import Mathlib.Data.List.TakeWhile
import MiniLisp.Reader.Form

/-! The grammar of programs, as a relation between text and forms. A rule says what a piece of text is,
given the text that follows it, since numbers and names are as long as they can be. The glyphs of the
text carry their positions, so that the grammar also fixes where each list starts. -/

namespace MiniLisp.Grammar

/-- The text goes on with nothing that `p` holds of. -/
def Stops (p : Glyph → Bool) (rest : List Glyph) : Prop := ∀ g ∈ rest.head?, p g = false

/-- The letter of an escape sequence, and what it stands for. -/
inductive Escape : Char → Char → Prop
  | newline : Escape 'n' '\n'
  | tab : Escape 't' '\t'
  | backslash : Escape '\\' '\\'
  | quote : Escape '"' '"'

/-- The text between the quotes of a string, and the characters that it denotes. -/
inductive Quoted : List Glyph → List Char → Prop
  | nil : Quoted [] []
  | plain {g : Glyph} {gs : List Glyph} {cs : List Char} :
    g.char ≠ '"' → g.char ≠ '\\' → Quoted gs cs → Quoted (g :: gs) (g.char :: cs)
  | escape {b e : Glyph} {c : Char} {gs : List Glyph} {cs : List Char} :
    b.char = '\\' → Escape e.char c → Quoted gs cs → Quoted (b :: e :: gs) (c :: cs)

/-- The text starts as a number does: with a digit, or with a minus and a digit. -/
def NumberStart : List Glyph → Prop
  | [] => False
  | g :: gs => g.isDigit ∨ g.char = '-' ∧ ∃ d ∈ gs.head?, d.isDigit

/-- The text starts as a keyword does: with a colon and a character that belongs to a name. -/
def KeywordStart : List Glyph → Prop
  | [] => False
  | g :: gs => g.char = ':' ∧ ∃ n ∈ gs.head?, n.inName

/-- The text starts with a parenthesis, or with a quote and an opening one. -/
def Bracketed : List Glyph → Prop
  | [] => False
  | g :: gs => g.char = '(' ∨ g.char = ')' ∨ g.char = '\x27' ∧ ∃ o ∈ gs.head?, o.char = '('

/-- `Atom gs v rest`: before `rest`, the text `gs` is the atom `v`. The first rule that can apply to the
start of the text is the one that counts. -/
inductive Atom : List Glyph → Value → List Glyph → Prop
  | number {sign run rest : List Glyph} {d : Glyph} :
    (sign = [] ∨ ∃ g, sign = [g] ∧ g.char = '-') → d.isDigit → (∀ g ∈ run, g.inNumber) →
    Stops Glyph.inNumber rest →
    Atom (sign ++ d :: run) (.number (Number.read (Token.chars (sign ++ d :: run)))) rest
  | string {q c : Glyph} {gs rest : List Glyph} {cs : List Char} :
    q.char = '"' → Quoted gs cs → c.char = '"' →
    Atom (q :: gs ++ [c]) (.string (String.ofList cs)) rest
  | keyword {g : Glyph} {run rest : List Glyph} :
    g.char = ':' → run ≠ [] → (∀ g ∈ run, g.inName) → Stops Glyph.inName rest →
    Atom (g :: run) (.keyword (String.ofList (Token.chars run))) rest
  | symbol {run rest : List Glyph} :
    run ≠ [] → (∀ g ∈ run, g.inName) → Stops Glyph.inName rest →
    ¬ NumberStart (run ++ rest) → (∀ g ∈ run.head?, g.char ≠ '"') → ¬ KeywordStart (run ++ rest) →
    Atom run (.symbol (String.ofList (Token.chars run))) rest

/-- What starts a list, whether it is quoted, and where it stands. -/
inductive Opener : List Glyph → Bool → Position → Prop
  | plain {o : Glyph} : o.char = '(' → Opener [o] false o.position
  | quoted {q o : Glyph} : q.char = '\x27' → o.char = '(' → Opener [q, o] true q.position

mutual

/-- `Form n gs v rest`: before `rest`, the text `gs` is the form `v`, in which lists nest at most `n`
deep. -/
inductive Form : Nat → List Glyph → Value → List Glyph → Prop
  | atom {n : Nat} {gs rest : List Glyph} {v : Value} :
    ¬ Bracketed (gs ++ rest) → Atom gs v rest → Form n gs v rest
  | list {n : Nat} {os gs rest : List Glyph} {c : Glyph} {quoted : Bool} {opened : Position}
    {vs : List Value} :
    Opener os quoted opened → Forms n gs vs (c :: rest) → c.char = ')' →
    Form (n + 1) (os ++ gs ++ [c]) (.list vs quoted (some opened)) rest

/-- Forms in a row, with white space before, between and after them wherever it pleases. -/
inductive Forms : Nat → List Glyph → List Value → List Glyph → Prop
  | nil {n : Nat} {blanks rest : List Glyph} :
    (∀ g ∈ blanks, isBlank g.char) → Forms n blanks [] rest
  | cons {n : Nat} {blanks gs more rest : List Glyph} {v : Value} {vs : List Value} :
    (∀ g ∈ blanks, isBlank g.char) → Form n gs v (more ++ rest) → Forms n more vs rest →
    Forms n (blanks ++ gs ++ more) (v :: vs) rest

end

/-- The text is a program with these forms. -/
def Program (nesting : Nat) (source : String) (vs : List Value) : Prop :=
  Forms nesting (Glyph.ofText source) vs []

theorem chars_place (p : Position) (cs : List Char) : Token.chars (Glyph.place p cs) = cs := by
  induction cs generalizing p with
  | nil => rfl
  | cons c cs ih => exact congrArg (c :: ·) (ih (p.next c))

theorem char_mem_of_mem_place {p : Position} {cs : List Char} {g : Glyph} (h : g ∈ Glyph.place p cs) :
    g.char ∈ cs := by
  rw [← chars_place p cs]
  exact List.mem_map_of_mem h

theorem place_append (p : Position) (cs ds : List Char) :
    ∃ q, Glyph.place p (cs ++ ds) = Glyph.place p cs ++ Glyph.place q ds := by
  induction cs generalizing p with
  | nil => exact ⟨p, rfl⟩
  | cons c cs ih =>
    obtain ⟨q, hq⟩ := ih (p.next c)
    exact ⟨q, congrArg (_ :: ·) hq⟩

theorem stops_dropWhile (p : Glyph → Bool) (gs : List Glyph) : Stops p (gs.dropWhile p) := by
  intro g hg
  have h := List.head?_dropWhile_not p gs
  rw [Option.mem_def] at hg
  simpa [hg] using h

theorem all_takeWhile (p : Glyph → Bool) (gs : List Glyph) : ∀ g ∈ gs.takeWhile p, p g :=
  fun _ hg => List.mem_takeWhile_imp hg

theorem takeWhile_of_stops {p : Glyph → Bool} {run rest : List Glyph} (hrun : ∀ g ∈ run, p g)
    (hrest : Stops p rest) : (run ++ rest).takeWhile p = run := by
  rw [List.takeWhile_append_of_pos hrun]
  cases rest with
  | nil => simp
  | cons g rest => simp [hrest g rfl]

theorem dropWhile_of_stops {p : Glyph → Bool} {run rest : List Glyph} (hrun : ∀ g ∈ run, p g)
    (hrest : Stops p rest) : (run ++ rest).dropWhile p = rest := by
  rw [List.dropWhile_append_of_pos hrun]
  cases rest with
  | nil => simp
  | cons g rest => simp [hrest g rfl]

theorem escape_iff {e c : Char} : Escape e c ↔ Token.unescape e = some c := by
  constructor
  · rintro (_ | _ | _ | _) <;> rfl
  · intro h
    unfold Token.unescape at h
    split_ifs at h with hn ht hb hq
    · cases h; rw [beq_iff_eq.1 hn]; exact .newline
    · cases h; rw [beq_iff_eq.1 ht]; exact .tab
    · cases h; rw [beq_iff_eq.1 hb]; exact .backslash
    · cases h; rw [beq_iff_eq.1 hq]; exact .quote

theorem stringBody_of_quoted {gs rest : List Glyph} {cs : List Char} {c : Glyph} (h : Quoted gs cs)
    (hc : c.char = '"') : Token.stringBody (gs ++ c :: rest) = (cs, .closed rest) := by
  induction h with
  | nil =>
    rw [List.nil_append, Token.stringBody.eq_def]
    simp [hc]
  | plain hq hb _ ih =>
    rw [List.cons_append, Token.stringBody.eq_def]
    simp [hq, hb, ih]
  | escape hb he _ ih =>
    rw [List.cons_append, List.cons_append, Token.stringBody.eq_def]
    simp [hb, escape_iff.1 he, ih]

theorem quoted_of_stringBody {gs rest : List Glyph} {cs : List Char}
    (h : Token.stringBody gs = (cs, .closed rest)) :
    ∃ body c, gs = body ++ c :: rest ∧ Quoted body cs ∧ c.char = '"' := by
  fun_induction Token.stringBody gs generalizing cs with
  | case1 => simp at h
  | case2 g gs hq =>
    simp only [Prod.mk.injEq, StringEnd.closed.injEq] at h
    obtain ⟨rfl, rfl⟩ := h
    exact ⟨[], g, rfl, .nil, by simpa using hq⟩
  | case3 => simp at h
  | case4 g hq hb e gs c hc cs' fin hs ih =>
    simp only [Prod.mk.injEq] at h
    obtain ⟨rfl, rfl⟩ := h
    obtain ⟨body, c', rfl, hbody, hc'⟩ := ih hs
    exact ⟨g :: e :: body, c', rfl, .escape (by simpa using hb) (escape_iff.2 hc) hbody, hc'⟩
  | case5 => simp at h
  | case6 g gs hq hb cs' fin hs ih =>
    simp only [Prod.mk.injEq] at h
    obtain ⟨rfl, rfl⟩ := h
    obtain ⟨body, c', rfl, hbody, hc'⟩ := ih hs
    exact ⟨g :: body, c', rfl, .plain (by simpa using hq) (by simpa using hb) hbody, hc'⟩

theorem inName_iff {g : Glyph} :
    g.inName ↔ isBlank g.char = false ∧ g.char ≠ '(' ∧ g.char ≠ ')' := by
  simp [Glyph.inName, Glyph.isDelimiter, and_assoc]

theorem startsNumber_iff {g : Glyph} {gs : List Glyph} :
    Token.startsNumber g gs ↔ NumberStart (g :: gs) := by
  simp [Token.startsNumber, NumberStart, Option.any_eq_true]

theorem startsKeyword_iff {g : Glyph} {gs : List Glyph} :
    Token.startsKeyword g gs ↔ KeywordStart (g :: gs) := by
  simp [Token.startsKeyword, KeywordStart, Option.any_eq_true]

theorem startsQuote_iff {g : Glyph} {gs : List Glyph} :
    Token.startsQuote g gs ↔ g.char = '\x27' ∧ ∃ o ∈ gs.head?, o.char = '(' := by
  simp [Token.startsQuote, Option.any_eq_true]

theorem bracketed_iff {g : Glyph} {gs : List Glyph} :
    Bracketed (g :: gs) ↔ g.char = '(' ∨ g.char = ')' ∨ Token.startsQuote g gs := by
  rw [startsQuote_iff, Bracketed]

section

variable {g : Glyph} {gs : List Glyph} (hb : ¬ Bracketed (g :: gs))
include hb

theorem ofGlyphs_of_not_bracketed :
    Token.ofGlyphs g gs =
      if Token.startsNumber g gs then
        (⟨.atom (.number (Number.read (Token.chars (g :: gs.takeWhile Glyph.inNumber)))), g.position⟩,
          gs.dropWhile Glyph.inNumber)
      else if g.char == '"' then Token.ofString g gs
      else if Token.startsKeyword g gs then
        (⟨.atom (.keyword (String.ofList (Token.chars (gs.takeWhile Glyph.inName)))), g.position⟩,
          gs.dropWhile Glyph.inName)
      else
        (⟨.atom (.symbol (String.ofList (Token.chars (g :: gs.takeWhile Glyph.inName)))), g.position⟩,
          gs.dropWhile Glyph.inName) := by
  simp only [bracketed_iff, not_or] at hb
  obtain ⟨hopen, hclose, hquote⟩ := hb
  rw [Token.ofGlyphs, if_neg (by simpa using hclose), if_neg (by simpa using hopen), if_neg hquote]

theorem ofGlyphs_number (h : NumberStart (g :: gs)) :
    Token.ofGlyphs g gs =
      (⟨.atom (.number (Number.read (Token.chars (g :: gs.takeWhile Glyph.inNumber)))), g.position⟩,
        gs.dropWhile Glyph.inNumber) := by
  rw [ofGlyphs_of_not_bracketed hb, if_pos (startsNumber_iff.2 h)]

theorem ofGlyphs_string (h : g.char = '"') : Token.ofGlyphs g gs = Token.ofString g gs := by
  have hnumber : ¬ Token.startsNumber g gs := by simp [Token.startsNumber, Glyph.isDigit, h]
  rw [ofGlyphs_of_not_bracketed hb, if_neg hnumber, if_pos (by simpa using h)]

theorem ofGlyphs_keyword (h : KeywordStart (g :: gs)) :
    Token.ofGlyphs g gs =
      (⟨.atom (.keyword (String.ofList (Token.chars (gs.takeWhile Glyph.inName)))), g.position⟩,
        gs.dropWhile Glyph.inName) := by
  have hnumber : ¬ Token.startsNumber g gs := by simp [Token.startsNumber, Glyph.isDigit, h.1]
  rw [ofGlyphs_of_not_bracketed hb, if_neg hnumber, if_neg (by simp [h.1]),
    if_pos (startsKeyword_iff.2 h)]

theorem ofGlyphs_symbol (hnumber : ¬ NumberStart (g :: gs)) (hstring : g.char ≠ '"')
    (hkeyword : ¬ KeywordStart (g :: gs)) :
    Token.ofGlyphs g gs =
      (⟨.atom (.symbol (String.ofList (Token.chars (g :: gs.takeWhile Glyph.inName)))), g.position⟩,
        gs.dropWhile Glyph.inName) := by
  rw [ofGlyphs_of_not_bracketed hb, if_neg (mt startsNumber_iff.1 hnumber),
    if_neg (by simpa using hstring), if_neg (mt startsKeyword_iff.1 hkeyword)]

end

theorem ofGlyphs_of_atom {gs rest : List Glyph} {v : Value} (hb : ¬ Bracketed (gs ++ rest))
    (h : Atom gs v rest) :
    ∃ g more, gs ++ rest = g :: more ∧ isBlank g.char = false ∧
      Token.ofGlyphs g more = (⟨.atom v, g.position⟩, rest) := by
  cases h with
  | @number sign run _ d hsign hd hrun hstop =>
    rcases hsign with rfl | ⟨m, rfl, hm⟩
    · rw [List.nil_append, List.cons_append] at hb
      refine ⟨d, run ++ rest, rfl, not_isBlank_of_isDigit hd, ?_⟩
      rw [ofGlyphs_number hb (Or.inl hd), takeWhile_of_stops hrun hstop, dropWhile_of_stops hrun hstop]
      rfl
    · have hrun' : ∀ g ∈ d :: run, g.inNumber := by
        intro g hg
        rcases List.mem_cons.1 hg with rfl | hg
        · simp [Glyph.inNumber, hd]
        · exact hrun g hg
      rw [List.append_assoc, List.singleton_append] at hb
      refine ⟨m, d :: run ++ rest, rfl, by rw [hm]; rfl, ?_⟩
      rw [ofGlyphs_number hb (Or.inr ⟨hm, d, rfl, hd⟩), takeWhile_of_stops hrun' hstop,
        dropWhile_of_stops hrun' hstop]
      rfl
  | @string q c body _ cs hq hbody hc =>
    have htext : q :: body ++ [c] ++ rest = q :: (body ++ c :: rest) := by simp
    rw [htext] at hb ⊢
    refine ⟨q, _, rfl, by rw [hq]; rfl, ?_⟩
    rw [ofGlyphs_string hb hq, Token.ofString, stringBody_of_quoted hbody hc]
  | @keyword g run _ hg hne hrun hstop =>
    rw [List.cons_append] at hb
    refine ⟨g, run ++ rest, rfl, by rw [hg]; rfl, ?_⟩
    have hstart : KeywordStart (g :: (run ++ rest)) := by
      cases run with
      | nil => exact absurd rfl hne
      | cons n run => exact ⟨hg, n, rfl, hrun n List.mem_cons_self⟩
    rw [ofGlyphs_keyword hb hstart, takeWhile_of_stops hrun hstop, dropWhile_of_stops hrun hstop]
  | symbol hne hrun hstop hnumber hstring hkeyword =>
    cases gs with
    | nil => exact absurd rfl hne
    | cons g run =>
      have hrun' : ∀ g ∈ run, g.inName := fun x hx => hrun x (List.mem_cons_of_mem g hx)
      rw [List.cons_append] at hb hnumber hkeyword
      refine ⟨g, run ++ rest, rfl, (inName_iff.1 (hrun g List.mem_cons_self)).1, ?_⟩
      rw [ofGlyphs_symbol hb hnumber (hstring g rfl) hkeyword, takeWhile_of_stops hrun' hstop,
        dropWhile_of_stops hrun' hstop]

/-- What can stand at the start of text that does not start with white space. -/
inductive Lexed (g : Glyph) (gs : List Glyph) : Token × List Glyph → Prop
  | closing : g.char = ')' → Lexed g gs (⟨.closing, g.position⟩, gs)
  | opening {os more : List Glyph} {quoted : Bool} {opened : Position} : g :: gs = os ++ more →
    Opener os quoted opened → Lexed g gs (⟨.opening quoted, opened⟩, more)
  | atom {lexeme rest : List Glyph} {v : Value} : g :: gs = lexeme ++ rest →
    ¬ Bracketed (g :: gs) → Atom lexeme v rest → Lexed g gs (⟨.atom v, g.position⟩, rest)
  | fault (f : ReadFault) (p : Position) : Lexed g gs (⟨.fault f, p⟩, [])

section

variable {g : Glyph} {gs : List Glyph} (hb : ¬ Bracketed (g :: gs))
include hb

theorem lexed_number (h : NumberStart (g :: gs)) : Lexed g gs (Token.ofGlyphs g gs) := by
  rw [ofGlyphs_number hb h]
  rcases h with hd | ⟨hm, d, hhead, hd⟩
  · have hatom := Atom.number (Or.inl rfl) hd (all_takeWhile Glyph.inNumber gs)
      (stops_dropWhile Glyph.inNumber gs)
    exact .atom (by simp) hb hatom
  · obtain ⟨more, rfl⟩ : ∃ more, gs = d :: more := List.head?_eq_some_iff.1 hhead
    have hdn : d.inNumber := by simp [Glyph.inNumber, hd]
    have hatom := Atom.number (Or.inr ⟨g, rfl, hm⟩) hd (all_takeWhile Glyph.inNumber more)
      (stops_dropWhile Glyph.inNumber more)
    simp only [List.takeWhile_cons, List.dropWhile_cons, hdn, if_true]
    exact .atom (by simp) hb hatom

theorem lexed_string (h : g.char = '"') : Lexed g gs (Token.ofGlyphs g gs) := by
  rw [ofGlyphs_string hb h, Token.ofString]
  split
  · rename_i cs rest hs
    obtain ⟨body, c, rfl, hbody, hc⟩ := quoted_of_stringBody hs
    exact .atom (by simp) hb (.string h hbody hc)
  · exact .fault _ _
  · exact .fault _ _

theorem lexed_keyword (h : KeywordStart (g :: gs)) : Lexed g gs (Token.ofGlyphs g gs) := by
  rw [ofGlyphs_keyword hb h]
  obtain ⟨hc, n, hhead, hn⟩ := h
  obtain ⟨more, rfl⟩ : ∃ more, gs = n :: more := List.head?_eq_some_iff.1 hhead
  have hrun : (n :: more).takeWhile Glyph.inName ≠ [] := by simp [hn]
  refine .atom ?_ hb (.keyword hc hrun (all_takeWhile _ _) (stops_dropWhile _ (n :: more)))
  simp [List.takeWhile_append_dropWhile]

theorem lexed_symbol (hname : g.inName) (hnumber : ¬ NumberStart (g :: gs)) (hstring : g.char ≠ '"')
    (hkeyword : ¬ KeywordStart (g :: gs)) : Lexed g gs (Token.ofGlyphs g gs) := by
  rw [ofGlyphs_symbol hb hnumber hstring hkeyword]
  have htext : (g :: gs.takeWhile Glyph.inName) ++ gs.dropWhile Glyph.inName = g :: gs := by simp
  refine .atom htext.symm hb
    (.symbol (by simp) ?_ (stops_dropWhile _ gs) ?_ (by simpa using hstring) ?_)
  · intro x hx
    rcases List.mem_cons.1 hx with rfl | hx
    · exact hname
    · exact all_takeWhile _ gs x hx
  · rwa [htext]
  · rwa [htext]

end

theorem lexed_ofGlyphs {g : Glyph} {gs : List Glyph} (hblank : isBlank g.char = false) :
    Lexed g gs (Token.ofGlyphs g gs) := by
  by_cases hclose : g.char = ')'
  · rw [Token.ofGlyphs, if_pos (by simpa using hclose)]
    exact .closing hclose
  by_cases hopen : g.char = '('
  · rw [Token.ofGlyphs, if_neg (by simpa using hclose), if_pos (by simpa using hopen)]
    exact .opening rfl (.plain hopen)
  by_cases hquote : Token.startsQuote g gs
  · rw [Token.ofGlyphs, if_neg (by simpa using hclose), if_neg (by simpa using hopen), if_pos hquote]
    obtain ⟨hg, o, hhead, ho⟩ := startsQuote_iff.1 hquote
    obtain ⟨more, rfl⟩ : ∃ more, gs = o :: more := List.head?_eq_some_iff.1 hhead
    exact .opening rfl (.quoted hg ho)
  have hb : ¬ Bracketed (g :: gs) := by simp [bracketed_iff, hclose, hopen, hquote]
  by_cases hnumber : NumberStart (g :: gs)
  · exact lexed_number hb hnumber
  by_cases hstring : g.char = '"'
  · exact lexed_string hb hstring
  by_cases hkeyword : KeywordStart (g :: gs)
  · exact lexed_keyword hb hkeyword
  · exact lexed_symbol hb (inName_iff.2 ⟨hblank, hopen, hclose⟩) hnumber hstring hkeyword

end MiniLisp.Grammar
