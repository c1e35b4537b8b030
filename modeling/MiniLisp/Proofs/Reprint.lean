import MiniLisp.Proofs.RoundTrip

/-! Text that is read, written and read again. What text is read as is known exactly (`FromSource`):
names that no delimiter breaks, numbers that are none but may be infinite, and lists no deeper than the
limit. All of it has source, and only an infinite number in it prints as a name; so what it prints as
is read again, whatever stood between the tokens of the first text. -/

namespace MiniLisp

open Grammar

namespace Value

/-- `FromSource n v`: the value is one that text is read as, with lists at most `n` deep. -/
inductive FromSource : Nat → Value → Prop
  | number {n : Nat} {x : Float} : Number.isNaN x = false → FromSource n (.number x)
  | string {n : Nat} (s : String) : FromSource n (.string s)
  | symbol {n : Nat} {name : String} : Unbroken name → SymbolStart name.toList →
    FromSource n (.symbol name)
  | keyword {n : Nat} {name : String} : Unbroken name → FromSource n (.keyword name)
  | list {n : Nat} {items : List Value} (quoted : Bool) (opened : Position) :
    (∀ v ∈ items, FromSource n v) → FromSource (n + 1) (.list items quoted (some opened))

/-- Numbers too large for a double. -/
inductive Infinite : Value → Prop
  | number {x : Float} : Number.isInfinite x → Infinite (.number x)

theorem FromSource.readable {n : Nat} {v : Value} (h : FromSource n v) : Readable n v := by
  induction h with
  | number _ => exact .number _
  | string s => exact .string s
  | symbol hname hstart => exact .symbol hname hstart
  | keyword hname => exact .keyword hname
  | list quoted opened _ ih => exact .list quoted (some opened) ih

theorem contains_number {q : Value → Prop} {x : Float} : Contains q (.number x) ↔ q (.number x) :=
  contains_atom (by simp [ty])

theorem FromSource.contains_named_iff {n : Nat} {v : Value} (h : FromSource n v) :
    Contains Named v ↔ Contains Infinite v := by
  induction h with
  | number hnan =>
    rw [contains_number, contains_number]
    constructor
    · rintro (_ | _ | hx | hx)
      · simp [hnan] at hx
      · exact .number hx
    · rintro ⟨hx⟩
      exact .infinite hx
  | string s => exact ⟨by rintro (⟨⟨⟩⟩), by rintro (⟨⟨⟩⟩)⟩
  | symbol _ _ => exact ⟨by rintro (⟨⟨⟩⟩), by rintro (⟨⟨⟩⟩)⟩
  | keyword _ => exact ⟨by rintro (⟨⟨⟩⟩), by rintro (⟨⟨⟩⟩)⟩
  | list quoted opened _ ih =>
    rw [contains_list (by rintro ⟨⟩), contains_list (by rintro ⟨⟩)]
    constructor
    · rintro ⟨v, hv, hc⟩
      exact ⟨v, hv, (ih v hv).1 hc⟩
    · rintro ⟨v, hv, hc⟩
      exact ⟨v, hv, (ih v hv).2 hc⟩

theorem forall₂_beq_iff {vs ws : List Value} :
    List.Forall₂ (fun v w => (v == w) = true) vs ws ↔ beqItems vs ws = true := by
  induction vs generalizing ws with
  | nil => cases ws <;> simp [beqItems]
  | cons v vs ih =>
    cases ws with
    | nil => simp [beqItems]
    | cons w ws =>
      rw [List.forall₂_cons, ih, beqItems, Bool.and_eq_true]
      rfl

end Value

open Value

theorem unbroken_chars {run : List Glyph} (hne : run ≠ []) (h : ∀ g ∈ run, g.inName) :
    Unbroken (String.ofList (Token.chars run)) := by
  rw [Unbroken, String.toList_ofList]
  refine ⟨by simpa [Token.chars] using hne, fun c hc => ?_⟩
  obtain ⟨g, hg, rfl⟩ := List.mem_map.1 hc
  exact inName_iff.1 (h g hg)

/-- A symbol starts as one whatever followed it in its text: all that its first character could have
been joined with is in the symbol itself. -/
theorem symbolStart_chars {g : Glyph} {run rest : List Glyph} (hrun : ∀ x ∈ run, x.inName)
    (hnumber : ¬ NumberStart (g :: (run ++ rest))) (hstring : g.char ≠ '"')
    (hkeyword : ¬ KeywordStart (g :: (run ++ rest))) : SymbolStart (Token.chars (g :: run)) := by
  refine ⟨fun hd => hnumber (Or.inl hd), ?_, hstring, ?_⟩
  · rintro ⟨hminus, d, hmem, hd⟩
    cases run with
    | nil => simp at hmem
    | cons x run =>
      obtain rfl : x.char = d := by simpa using hmem
      exact hnumber (Or.inr ⟨hminus, x, rfl, hd⟩)
  · rintro ⟨hcolon, hne⟩
    cases run with
    | nil => exact hne rfl
    | cons x run => exact hkeyword ⟨hcolon, x, rfl, hrun x List.mem_cons_self⟩

theorem fromSource_of_atom {n : Nat} {gs rest : List Glyph} {v : Value} (h : Atom gs v rest) :
    FromSource n v := by
  cases h with
  | @number sign run _ d hsign hd _ _ =>
    refine .number ?_
    rcases hsign with rfl | ⟨m, rfl, hm⟩
    · exact Number.isNaN_read hd false (Token.chars run)
    · have hnan := Number.isNaN_read hd true (Token.chars run)
      rw [if_pos rfl, ← hm] at hnan
      exact hnan
  | string _ _ _ => exact .string _
  | keyword _ hne hrun _ => exact .keyword (unbroken_chars hne hrun)
  | symbol hne hrun _ hnumber hstring hkeyword =>
    refine .symbol (unbroken_chars hne hrun) ?_
    obtain ⟨g, run, rfl⟩ := List.exists_cons_of_ne_nil hne
    rw [String.toList_ofList]
    exact symbolStart_chars (fun x hx => hrun x (List.mem_cons_of_mem g hx)) hnumber
      (hstring g rfl) hkeyword

mutual

theorem fromSource_of_form {n : Nat} {gs rest : List Glyph} {v : Value} :
    Form n gs v rest → FromSource n v
  | .atom _ ha => fromSource_of_atom ha
  | .list _ hforms _ => .list _ _ (fromSource_of_forms hforms)

theorem fromSource_of_forms {n : Nat} {gs rest : List Glyph} {vs : List Value} :
    Forms n gs vs rest → ∀ v ∈ vs, FromSource n v
  | .nil _ => by simp
  | .cons _ hform hforms =>
    List.forall_mem_cons.2 ⟨fromSource_of_form hform, fromSource_of_forms hforms⟩

end

/-- Read, print, read. Whatever a text is read as, the codes of its forms with a space between them are
read under the same limit, and print as that text again. The forms are the same, one by one, if and only
if there is no infinite number in them. -/
theorem readForms_reprint (nesting : Nat) (source : String) (vs : List Value)
    (h : readForms ⟨false, nesting⟩ source = .ok vs) :
    ∃ ws, readForms ⟨false, nesting⟩ (Text.joined " " (codes vs)) = .ok ws ∧
      Text.joined " " (codes ws) = Text.joined " " (codes vs) ∧
      (List.Forall₂ (fun w v => (w == v) = true) ws vs ↔ ∀ v ∈ vs, ¬ Contains Infinite v) := by
  have hsource : ∀ v ∈ vs, FromSource nesting v := fromSource_of_forms (program_of_readForms h)
  have hback : ∀ v ∈ vs, ReadsBack nesting v :=
    fun v hv => readsBack_of_readable (hsource v hv).readable
  obtain ⟨ws, hforms, hcodes, heq⟩ := forms_codes hback .start (by simp [Follows] : Follows [])
  refine ⟨ws, readForms_of_program hforms, by rw [hcodes], ?_⟩
  rw [forall₂_beq_iff, heq]
  exact forall₂_congr fun v hv => not_congr (hsource v hv).contains_named_iff

/-- Tokens that stand against each other are parted by spaces: a symbol that ends in a quote, a list with
a keyword that does, a string and a symbol. -/
theorem readForms_reprint_juxtaposed :
    ∃ vs ws, readForms ⟨false, 2⟩ "x'(:y'())\"z\"w" = .ok vs ∧
      readForms ⟨false, 2⟩ "x' (:y' ()) \"z\" w" = .ok ws ∧
      List.Forall₂ (fun w v => (w == v) = true) ws vs := by
  have hread : readForms ⟨false, 2⟩ "x'(:y'())\"z\"w" =
      .ok [.symbol "x'", .list [.keyword "y'", .list [] false (some ⟨1, 7⟩)] false (some ⟨1, 3⟩),
        .string "z", .symbol "w"] := by decide +kernel
  obtain ⟨ws, hws, -, heq⟩ := readForms_reprint _ _ _ hread
  refine ⟨_, ws, hread, hws, heq.2 ?_⟩
  intro v hv hinf
  simp only [List.mem_cons, List.not_mem_nil, or_false] at hv
  rcases hv with rfl | rfl | rfl | rfl
  · rcases hinf with ⟨⟨⟩⟩
  · rcases hinf with ⟨⟨⟩⟩ | ⟨hu, hinf⟩
    simp only [List.mem_cons, List.not_mem_nil, or_false] at hu
    rcases hu with rfl | rfl
    · rcases hinf with ⟨⟨⟩⟩
    · rcases hinf with ⟨⟨⟩⟩ | ⟨⟨⟩, -⟩
  · rcases hinf with ⟨⟨⟩⟩
  · rcases hinf with ⟨⟨⟩⟩

end MiniLisp
