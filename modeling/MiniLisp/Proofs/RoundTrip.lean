import MiniLisp.Proofs.Numeral
import MiniLisp.Proofs.Parsing

/-! Values written as code read back. Each value that has source is derived in the grammar from its own
code, whatever follows it in a list, and what is derived prints as the same code
(`readsBack_of_readable`). It is the same value unless something in it prints as a name: `nil`, the
truth values, and the numbers that are not finite read back as symbols. -/

namespace MiniLisp

open Grammar

/-- White space and parentheses do not occur in the name, and something does. -/
def Unbroken (name : String) : Prop :=
  name.toList ≠ [] ∧ ∀ c ∈ name.toList, isBlank c = false ∧ c ≠ '(' ∧ c ≠ ')'

/-- The text starts as a symbol may: not as a number, a string or a keyword does. -/
def SymbolStart : List Char → Prop
  | [] => False
  | c :: cs => ¬ c.isDigit ∧ ¬ (c = '-' ∧ ∃ d ∈ cs.head?, d.isDigit) ∧ c ≠ '"' ∧ ¬ (c = ':' ∧ cs ≠ [])

namespace Value

/-- `Readable n v`: the value has source, in which lists nest at most `n` deep. -/
inductive Readable : Nat → Value → Prop
  | nil {n : Nat} : Readable n .nil
  | bool {n : Nat} (b : Bool) : Readable n (.bool b)
  | number {n : Nat} (x : Float) : Readable n (.number x)
  | string {n : Nat} (s : String) : Readable n (.string s)
  | symbol {n : Nat} {name : String} : Unbroken name → SymbolStart name.toList →
    Readable n (.symbol name)
  | keyword {n : Nat} {name : String} : Unbroken name → Readable n (.keyword name)
  | list {n : Nat} {items : List Value} (quoted : Bool) (opened : Option Position) :
    (∀ v ∈ items, Readable n v) → Readable (n + 1) (.list items quoted opened)

/-- Values that print as a name. -/
inductive Named : Value → Prop
  | nil : Named .nil
  | bool (b : Bool) : Named (.bool b)
  | nan {x : Float} : Number.isNaN x → Named (.number x)
  | infinite {x : Float} : Number.isInfinite x → Named (.number x)

/-- The value, or one in its lists, has the property. -/
inductive Contains (p : Value → Prop) : Value → Prop
  | here {v : Value} : p v → Contains p v
  | inside {v : Value} {items : List Value} {quoted : Bool} {opened : Option Position} :
    v ∈ items → Contains p v → Contains p (.list items quoted opened)

theorem code_bool (b : Bool) : (bool b).code = Text.ofBool b := rfl

theorem code_number (x : Float) : (number x).code = Number.text x := rfl

theorem code_list (items : List Value) (quoted : Bool) (opened : Option Position) :
    (list items quoted opened).code = openingText quoted ++ Text.joined " " (codes items) ++ ")" := rfl

theorem codes_nil : codes [] = [] := rfl

theorem codes_cons (v : Value) (vs : List Value) : codes (v :: vs) = v.code :: codes vs := rfl

end Value

open Value

/-- What may follow a value in the code of a list: a space, or the end of the list. An opening
parenthesis may not: behind the symbol `'` it would start a quoted list. -/
def Follows (rest : List Glyph) : Prop := ∀ g ∈ rest.head?, g.char = ' ' ∨ g.char = ')'

theorem Follows.stops_inName {rest : List Glyph} (h : Follows rest) : Stops Glyph.inName rest := by
  intro g hg
  rcases h g hg with hc | hc <;> simp [Glyph.inName, Glyph.isDelimiter, hc, isBlank]

theorem Follows.stops_inNumber {rest : List Glyph} (h : Follows rest) : Stops Glyph.inNumber rest := by
  intro g hg
  rcases h g hg with hc | hc <;> simp [Glyph.inNumber, Glyph.isDigit, hc]

theorem mem_head?_place_append {q : Position} {cs : List Char} {rest : List Glyph} {g : Glyph}
    (h : g ∈ (Glyph.place q cs ++ rest).head?) : g.char ∈ cs.head? ∨ cs = [] ∧ g ∈ rest.head? := by
  cases cs with
  | nil => exact Or.inr ⟨rfl, h⟩
  | cons c cs =>
    obtain rfl : ⟨c, q⟩ = g := by simpa [Glyph.place] using h
    exact Or.inl rfl

theorem inName_place {p : Position} {name : String} (h : Unbroken name) :
    ∀ g ∈ Glyph.place p name.toList, g.inName :=
  fun _ hg => inName_iff.2 (h.2 _ (char_mem_of_mem_place hg))

theorem place_ne_nil {p : Position} {cs : List Char} (h : cs ≠ []) : Glyph.place p cs ≠ [] := by
  obtain ⟨c, cs, rfl⟩ := List.exists_cons_of_ne_nil h
  exact List.cons_ne_nil _ _

theorem not_bracketed_cons {c : Char} {p : Position} {gs : List Glyph}
    (h : c ∉ ['(', ')', '\x27']) : ¬ Bracketed (⟨c, p⟩ :: gs) := by
  simp only [List.mem_cons, List.not_mem_nil, or_false, not_or] at h
  rintro (hopen | hclose | ⟨hquote, -⟩)
  · exact h.1 hopen
  · exact h.2.1 hclose
  · exact h.2.2 hquote

section

variable {n : Nat} {p : Position} {rest : List Glyph} (hrest : Follows rest)
include hrest

theorem not_numberStart {cs : List Char} (h : SymbolStart cs) :
    ¬ NumberStart (Glyph.place p cs ++ rest) := by
  cases cs with
  | nil => exact h.elim
  | cons c cs =>
    rintro (hdigit | ⟨hminus, d, hmem, hdigit⟩)
    · exact h.1 hdigit
    · rcases mem_head?_place_append hmem with hd | ⟨rfl, hd⟩
      · exact h.2.1 ⟨hminus, d.char, hd, hdigit⟩
      · have := hrest.stops_inNumber d hd
        simp [Glyph.inNumber, hdigit] at this

theorem not_keywordStart {cs : List Char} (h : SymbolStart cs) :
    ¬ KeywordStart (Glyph.place p cs ++ rest) := by
  cases cs with
  | nil => exact h.elim
  | cons c cs =>
    rintro ⟨hcolon, g, hmem, hname⟩
    have hnil : cs = [] := by
      by_contra hne
      exact h.2.2.2 ⟨hcolon, hne⟩
    rcases mem_head?_place_append hmem with hg | ⟨-, hg⟩
    · simp [hnil] at hg
    · rw [hrest.stops_inName g hg] at hname
      exact absurd hname Bool.false_ne_true

theorem not_bracketed {name : String} (h : Unbroken name) :
    ¬ Bracketed (Glyph.place p name.toList ++ rest) := by
  obtain ⟨hne, hname⟩ := h
  cases hcs : name.toList with
  | nil => exact absurd hcs hne
  | cons c cs =>
    rw [hcs] at hname
    obtain ⟨-, hopen, hclose⟩ := hname c List.mem_cons_self
    rintro (h | h | ⟨-, g, hmem, hg⟩)
    · exact hopen h
    · exact hclose h
    · rcases mem_head?_place_append hmem with hd | ⟨-, hd⟩
      · exact (hname g.char (List.mem_cons_of_mem c (List.mem_of_mem_head? hd))).2.1 hg
      · rcases hrest g hd with h | h <;> simp [hg] at h

theorem form_symbol {name : String} (hname : Unbroken name) (hstart : SymbolStart name.toList) :
    Form n (Glyph.place p name.toList) (.symbol name) rest := by
  have hstring : ∀ g ∈ (Glyph.place p name.toList).head?, g.char ≠ '"' := by
    intro g hg
    cases hcs : name.toList with
    | nil => exact absurd hcs hname.1
    | cons c cs =>
      rw [hcs] at hg hstart
      obtain rfl : ⟨c, p⟩ = g := by simpa [Glyph.place] using hg
      exact hstart.2.2.1
  have hatom := Atom.symbol (place_ne_nil hname.1) (inName_place hname) hrest.stops_inName
    (not_numberStart hrest hstart) hstring (not_keywordStart hrest hstart)
  rw [chars_place, String.ofList_toList] at hatom
  exact .atom (not_bracketed hrest hname) hatom

theorem form_keyword {name : String} (hname : Unbroken name) :
    Form n (Glyph.place p (":" ++ name).toList) (.keyword name) rest := by
  have hcode : (":" ++ name).toList = ':' :: name.toList := by simp
  have hatom : Atom (⟨':', p⟩ :: Glyph.place (p.next ':') name.toList) _ rest :=
    .keyword rfl (place_ne_nil hname.1) (inName_place hname) hrest.stops_inName
  rw [chars_place, String.ofList_toList] at hatom
  rw [hcode]
  exact .atom (not_bracketed_cons (by decide)) hatom

theorem form_number {x : Float} (hnan : Number.isNaN x = false) (hinf : Number.isInfinite x = false) :
    Form n (Glyph.place p (Number.text x).toList) (.number (Number.read (Number.text x).toList))
      rest := by
  obtain ⟨sign, d, run, htext, hsign, hd, hrun⟩ := Number.text_shape hnan hinf
  obtain ⟨q, hplace⟩ := place_append p sign (d :: run)
  have hsign' : Glyph.place p sign = [] ∨ ∃ g, Glyph.place p sign = [g] ∧ g.char = '-' := by
    rcases hsign with rfl | rfl
    · exact Or.inl rfl
    · exact Or.inr ⟨⟨'-', p⟩, rfl, rfl⟩
  have hrun' : ∀ g ∈ Glyph.place (q.next d) run, g.inNumber := by
    intro g hg
    rcases hrun g.char (char_mem_of_mem_place hg) with hc | hc <;>
      simp [Glyph.inNumber, Glyph.isDigit, hc]
  have hatom := @Atom.number _ _ _ ⟨d, q⟩ hsign' hd hrun' hrest.stops_inNumber
  have hglyphs : Glyph.place p sign ++ ⟨d, q⟩ :: Glyph.place (q.next d) run =
      Glyph.place p (Number.text x).toList := by
    rw [htext, hplace]
    rfl
  rw [hglyphs, chars_place] at hatom
  refine .atom ?_ hatom
  rw [htext]
  rcases hsign with rfl | rfl
  · refine not_bracketed_cons ?_
    intro hmem
    simp only [List.mem_cons, List.not_mem_nil, or_false] at hmem
    rcases hmem with rfl | rfl | rfl <;> simp at hd
  · exact not_bracketed_cons (by decide)

end

theorem quoted_escapeChar {gs : List Glyph} {cs : List Char} (p : Position) (c : Char)
    (h : Quoted gs cs) : Quoted (Glyph.place p (Text.escapeChar c) ++ gs) (c :: cs) := by
  unfold Text.escapeChar
  split_ifs with hb hq ht hn
  · obtain rfl := beq_iff_eq.1 hb
    exact .escape rfl .backslash h
  · obtain rfl := beq_iff_eq.1 hq
    exact .escape rfl .quote h
  · obtain rfl := beq_iff_eq.1 ht
    exact .escape rfl .tab h
  · obtain rfl := beq_iff_eq.1 hn
    exact .escape rfl .newline h
  · rw [beq_iff_eq] at hb hq
    exact @Quoted.plain ⟨c, p⟩ gs cs hq hb h

theorem quoted_flatMap (p : Position) (cs : List Char) :
    Quoted (Glyph.place p (cs.flatMap Text.escapeChar)) cs := by
  induction cs generalizing p with
  | nil => exact .nil
  | cons c cs ih =>
    obtain ⟨q, hplace⟩ := place_append p (Text.escapeChar c) (cs.flatMap Text.escapeChar)
    rw [List.flatMap_cons, hplace]
    exact quoted_escapeChar p c (ih q)

theorem form_string (n : Nat) (p : Position) (s : String) (rest : List Glyph) :
    Form n (Glyph.place p (Text.literal s).toList) (.string s) rest := by
  obtain ⟨q, hplace⟩ := place_append p ('"' :: s.toList.flatMap Text.escapeChar) ['"']
  rw [Text.literal, String.toList_ofList, hplace]
  have hatom : Atom (⟨'"', p⟩ :: Glyph.place (p.next '"') (s.toList.flatMap Text.escapeChar) ++
      [⟨'"', q⟩]) _ rest := .string rfl (quoted_flatMap _ s.toList) rfl
  rw [String.ofList_toList] at hatom
  exact .atom (not_bracketed_cons (by decide)) hatom

theorem contains_list {q : Value → Prop} {items : List Value} {quoted : Bool} {opened : Option Position}
    (h : ¬ q (.list items quoted opened)) :
    Contains q (.list items quoted opened) ↔ ∃ v ∈ items, Contains q v := by
  constructor
  · intro hc
    cases hc with
    | here hq => exact absurd hq h
    | inside hv hc => exact ⟨_, hv, hc⟩
  · rintro ⟨v, hv, hc⟩
    exact .inside hv hc

theorem contains_atom {q : Value → Prop} {v : Value} (h : v.ty ≠ .list) : Contains q v ↔ q v := by
  constructor
  · rintro (hq | -)
    · exact hq
    · exact absurd rfl h
  · exact .here

/-- The code of `v`, wherever it stands, derives a value with the same code, and `v` itself if nothing
in it prints as a name. -/
def ReadsBack (n : Nat) (v : Value) : Prop :=
  ∀ (p : Position) (rest : List Glyph), Follows rest →
    ∃ w, Form n (Glyph.place p v.code.toList) w rest ∧ w.code = v.code ∧
      (w.beq v = true ↔ ¬ Contains Named v)

theorem code_of_named {v : Value} (h : Named v) :
    v.code ∈ ["nil", "true", "false", "NaN", "Infinity", "-Infinity"] := by
  cases h with
  | nil => exact List.mem_cons_self
  | bool b => cases b <;> simp [code_bool, Text.ofBool]
  | nan hx => simp [code_number, Number.text, hx]
  | @infinite x hx =>
    rw [code_number, Number.text]
    split_ifs <;> simp

theorem symbol_of_named {v : Value} (h : Named v) :
    Unbroken v.code ∧ SymbolStart v.code.toList := by
  have hcode := code_of_named h
  simp only [List.mem_cons, List.not_mem_nil, or_false] at hcode
  rcases hcode with hc | hc | hc | hc | hc | hc <;>
    simp [hc, Unbroken, SymbolStart, isBlank]

theorem readsBack_of_named {n : Nat} {v : Value} (hv : Named v) : ReadsBack n v := by
  obtain ⟨hname, hstart⟩ := symbol_of_named hv
  intro p rest hrest
  refine ⟨.symbol v.code, form_symbol hrest hname hstart, rfl, ?_⟩
  have hne : (Value.symbol v.code).beq v = false := by
    cases hv <;> rfl
  simp [hne, Contains.here hv]

theorem readsBack_of_form {n : Nat} {v : Value} (hv : ¬ Contains Named v) (hself : v.beq v = true)
    (hform : ∀ p rest, Follows rest → Form n (Glyph.place p v.code.toList) v rest) :
    ReadsBack n v := by
  intro p rest hrest
  exact ⟨v, hform p rest hrest, rfl, by simp [hself, hv]⟩

theorem readsBack_number (n : Nat) (x : Float) : ReadsBack n (.number x) := by
  cases hnan : Number.isNaN x with
  | true => exact readsBack_of_named (.nan hnan)
  | false =>
    cases hinf : Number.isInfinite x with
    | true => exact readsBack_of_named (.infinite hinf)
    | false =>
      intro p rest hrest
      obtain ⟨htext, heq⟩ := Number.read_text hnan hinf
      refine ⟨_, form_number hrest hnan hinf, htext, ?_⟩
      have hnamed : ¬ Contains Named (.number x) := by
        rintro (⟨⟨⟩⟩) <;> simp_all
      simp [Value.beq, heq, hnamed]

theorem joined_codes_cons (v u : Value) (us : List Value) :
    (Text.joined " " (codes (v :: u :: us))).toList =
      v.code.toList ++ ' ' :: (Text.joined " " (codes (u :: us))).toList := by
  simp [codes_cons, Text.joined]

/-- The code of `v`, wherever it stands, derives a value that is related to `v`. -/
def Derives (R : Value → Value → Prop) (n : Nat) (v : Value) : Prop :=
  ∀ (p : Position) (rest : List Glyph), Follows rest →
    ∃ w, Form n (Glyph.place p v.code.toList) w rest ∧ R w v

theorem forms_of_derives {R : Value → Value → Prop} {n : Nat} {items : List Value}
    (h : ∀ v ∈ items, Derives R n v) (p : Position) {rest : List Glyph} (hrest : Follows rest) :
    ∃ ws, Forms n (Glyph.place p (Text.joined " " (codes items)).toList) ws rest ∧
      List.Forall₂ R ws items := by
  induction items generalizing p with
  | nil => exact ⟨[], .nil (by simp [codes_nil, Text.joined, Glyph.place]), .nil⟩
  | cons v vs ih =>
    have hv := h v List.mem_cons_self
    have hvs : ∀ u ∈ vs, Derives R n u := fun u hu => h u (List.mem_cons_of_mem v hu)
    cases vs with
    | nil =>
      obtain ⟨w, hform, hR⟩ := hv p rest hrest
      exact ⟨[w], forms_singleton hform, .cons hR .nil⟩
    | cons u us =>
      rw [joined_codes_cons]
      generalize (Text.joined " " (codes (u :: us))).toList = js at ih
      obtain ⟨q, hplace⟩ := place_append p v.code.toList (' ' :: js)
      have hspace : Follows (⟨' ', q⟩ :: Glyph.place (q.next ' ') js ++ rest) := by simp [Follows]
      obtain ⟨w, hform, hR⟩ := hv p _ hspace
      obtain ⟨ws, hforms, hRs⟩ := ih hvs (q.next ' ')
      refine ⟨w :: ws, ?_, .cons hR hRs⟩
      rw [hplace]
      exact forms_cons hform (forms_blank rfl hforms)

theorem opener_openingText (p : Position) (quoted : Bool) :
    Opener (Glyph.place p (openingText quoted).toList) quoted p := by
  cases quoted with
  | false => exact .plain rfl
  | true => exact .quoted rfl rfl

theorem form_list_of_derives {R : Value → Value → Prop} {n : Nat} {items : List Value} (quoted : Bool)
    (opened : Option Position) (h : ∀ v ∈ items, Derives R n v) (p : Position) (rest : List Glyph) :
    ∃ ws, Form (n + 1) (Glyph.place p (Value.list items quoted opened).code.toList)
        (.list ws quoted (some p)) rest ∧ List.Forall₂ R ws items := by
  have hcode : (Value.list items quoted opened).code.toList =
      (openingText quoted).toList ++ ((Text.joined " " (codes items)).toList ++ [')']) := by
    simp [code_list]
  obtain ⟨q, hopening⟩ := place_append p (openingText quoted).toList
    ((Text.joined " " (codes items)).toList ++ [')'])
  obtain ⟨r, hitems⟩ := place_append q (Text.joined " " (codes items)).toList [')']
  have hclosing : Follows (⟨')', r⟩ :: rest) := by simp [Follows]
  obtain ⟨ws, hforms, hR⟩ := forms_of_derives h q hclosing
  refine ⟨ws, ?_, hR⟩
  rw [hcode, hopening, hitems, ← List.append_assoc]
  exact .list (opener_openingText p quoted) hforms rfl

theorem codes_of_forall₂ {ws items : List Value}
    (h : List.Forall₂ (fun w v : Value => w.code = v.code ∧ (w.beq v = true ↔ ¬ Contains Named v))
      ws items) :
    codes ws = codes items ∧ (beqItems ws items = true ↔ ∀ v ∈ items, ¬ Contains Named v) := by
  induction h with
  | nil => exact ⟨rfl, by simp [beqItems]⟩
  | cons hv _ ih =>
    obtain ⟨hcode, heq⟩ := hv
    obtain ⟨hcodes, heqs⟩ := ih
    refine ⟨?_, by simp [beqItems, heq, heqs]⟩
    rw [codes_cons, hcode, hcodes, ← codes_cons]

theorem forms_codes {n : Nat} {items : List Value} (h : ∀ v ∈ items, ReadsBack n v) (p : Position)
    {rest : List Glyph} (hrest : Follows rest) :
    ∃ ws, Forms n (Glyph.place p (Text.joined " " (codes items)).toList) ws rest ∧
      codes ws = codes items ∧ (beqItems ws items = true ↔ ∀ v ∈ items, ¬ Contains Named v) := by
  obtain ⟨ws, hforms, hback⟩ := forms_of_derives h p hrest
  exact ⟨ws, hforms, codes_of_forall₂ hback⟩

theorem readsBack_list {n : Nat} {items : List Value} (quoted : Bool) (opened : Option Position)
    (h : ∀ v ∈ items, ReadsBack n v) : ReadsBack (n + 1) (.list items quoted opened) := by
  intro p rest _
  obtain ⟨ws, hform, hback⟩ := form_list_of_derives quoted opened h p rest
  obtain ⟨hcodes, heq⟩ := codes_of_forall₂ hback
  refine ⟨.list ws quoted (some p), hform, by rw [code_list, hcodes, code_list], ?_⟩
  have hnamed : ¬ Named (.list items quoted opened) := by rintro ⟨⟩
  simp [Value.beq, heq, contains_list hnamed]

theorem readsBack_of_readable {n : Nat} {v : Value} (h : Readable n v) : ReadsBack n v := by
  induction h with
  | nil => exact readsBack_of_named .nil
  | bool b => exact readsBack_of_named (.bool b)
  | number x => exact readsBack_number _ x
  | string s =>
    refine readsBack_of_form (by rintro (⟨⟨⟩⟩)) (by simp [Value.beq]) ?_
    intro p rest _
    exact form_string _ p s rest
  | symbol hname hstart =>
    refine readsBack_of_form (by rintro (⟨⟨⟩⟩)) (by simp [Value.beq]) ?_
    intro p rest hrest
    exact form_symbol hrest hname hstart
  | keyword hname =>
    refine readsBack_of_form (by rintro (⟨⟨⟩⟩)) (by simp [Value.beq]) ?_
    intro p rest hrest
    exact form_keyword hrest hname
  | list quoted opened _ ih => exact readsBack_list quoted opened ih

/-- Print then read. The code of a value that has source, with lists at most `maxNesting` deep, is read as
exactly one form, with the same code. It equals the value if and only if there is no `nil`, no truth value
and no number that is not finite in it. -/
theorem readForms_code {v : Value} (h : Readable maxNesting v) :
    ∃ w, readForms {} v.code = .ok [w] ∧ w.code = v.code ∧
      ((w == v) = true ↔ ¬ Contains Named v) := by
  have hend : Follows [] := by simp [Follows]
  obtain ⟨w, hform, hcode, heq⟩ := readsBack_of_readable h .start [] hend
  exact ⟨w, readForms_of_program (forms_singleton hform), hcode, heq⟩

/-- A list with a symbol that is a quote, a text of a quote and a backslash, and `nil`: it reads back,
with a symbol in the place of `nil`. -/
theorem readForms_code_quotes :
    Readable maxNesting (.list [.symbol "'", .string "\"\\", .nil] true none) ∧
    ∃ w, readForms {} (list [.symbol "'", .string "\"\\", .nil] true none).code = .ok [w] ∧
      w.code = (list [.symbol "'", .string "\"\\", .nil] true none).code ∧
      ¬ (w == list [.symbol "'", .string "\"\\", .nil] true none) = true := by
  have hv : Readable maxNesting (.list [.symbol "'", .string "\"\\", .nil] true none) := by
    refine @Readable.list 127 _ true none ?_
    intro v hv
    simp only [List.mem_cons, List.not_mem_nil, or_false] at hv
    rcases hv with rfl | rfl | rfl
    · exact .symbol (by simp [Unbroken, isBlank]) (by simp [SymbolStart])
    · exact .string _
    · exact .nil
  have hnil : Contains Named (.list [.symbol "'", .string "\"\\", .nil] true none) :=
    .inside (by simp) (.here .nil)
  obtain ⟨w, hread, hcode, heq⟩ := readForms_code hv
  exact ⟨hv, w, hread, hcode, fun hw => heq.1 hw hnil⟩

end MiniLisp
