import MiniLisp.Proofs.Erasure
import MiniLisp.Proofs.NumberText
import MiniLisp.Proofs.RoundTrip

/-! Equality of values, and what they print as. Equality looks at a value without positions, without the
sign of zero, and at no more of a function than its header. That is the outline of the value, and two
values are equal if and only if they have the same outline and it contains no number that is none
(`beq_iff`). All that is printed of a value can be read off its outline, so equal values print alike;
and where values have source they can be told apart by it, since it reads back (`beq_of_code_eq`). -/

namespace MiniLisp

namespace Value

mutual

/-- What equality looks at. -/
def outline : Value → Value
  | number x => number (Number.signless x)
  | list items quoted _ => list (outlines items) quoted none
  -- a header is that of one function only, so what is put for the rest of it does not matter
  | native h _ => native h (.host 0)
  | lambda h _ _ => lambda h nil none
  | v => v

def outlines : List Value → List Value
  | [] => []
  | v :: vs => outline v :: outlines vs

end

/-- Numbers that are none. -/
inductive NotANumber : Value → Prop
  | number {x : Float} : Number.isNaN x → NotANumber (.number x)

theorem ty_outline (v : Value) : v.outline.ty = v.ty := by
  cases v <;> rfl

mutual

theorem code_outline : ∀ v : Value, v.outline.code = v.code
  | number x => Number.text_signless x
  | list items quoted _ =>
    congrArg (fun cs => openingText quoted ++ Text.joined " " cs ++ ")") (codes_outlines items)
  | nil | bool _ | string _ | symbol _ | keyword _ | native .. | lambda .. | special _ => rfl

theorem codes_outlines : ∀ vs : List Value, codes (outlines vs) = codes vs
  | [] => rfl
  | v :: vs => congrArg₂ List.cons (code_outline v) (codes_outlines vs)

end

mutual

theorem display_outline : ∀ v : Value, v.outline.display = v.display
  | number x => Number.text_signless x
  | list items quoted _ =>
    congrArg (fun ds => openingText quoted ++ Text.joined " " ds ++ ")") (displays_outlines items)
  | nil | bool _ | string _ | symbol _ | keyword _ | native .. | lambda .. | special _ => rfl

theorem displays_outlines : ∀ vs : List Value, displays (outlines vs) = displays vs
  | [] => rfl
  | v :: vs => congrArg₂ List.cons (display_outline v) (displays_outlines vs)

end

mutual

theorem outline_reposition (f : Option Position → Option Position) :
    ∀ v : Value, (v.reposition f).outline = v.outline
  | list items quoted _ => congrArg (list · quoted none) (outlines_repositions f items)
  | nil | bool _ | number _ | string _ | symbol _ | keyword _ | native .. | lambda .. | special _ => rfl

theorem outlines_repositions (f : Option Position → Option Position) :
    ∀ vs : List Value, outlines (repositions f vs) = outlines vs
  | [] => rfl
  | v :: vs => congrArg₂ List.cons (outline_reposition f v) (outlines_repositions f vs)

end

theorem Similar.outline {v w : Value} (h : Similar v w) : v.outline = w.outline := by
  rw [← outline_reposition (fun _ => none) v, ← outline_reposition (fun _ => none) w]
  exact congrArg Value.outline h

theorem contains_notANumber_number {x : Float} :
    Contains NotANumber (number x) ↔ Number.isNaN x := by
  have hatom : Contains NotANumber (number x) ↔ NotANumber (number x) :=
    contains_atom (by simp [ty])
  rw [hatom]
  exact ⟨fun ⟨h⟩ => h, .number⟩

theorem not_contains_notANumber {v : Value} (hlist : v.ty ≠ .list) (hnumber : v.ty ≠ .number) :
    ¬ Contains NotANumber v := by
  rw [contains_atom hlist]
  rintro ⟨-⟩
  exact hnumber rfl

theorem contains_notANumber_list {items : List Value} {quoted : Bool} {opened : Option Position} :
    Contains NotANumber (list items quoted opened) ↔ ∃ v ∈ items, Contains NotANumber v :=
  contains_list nofun

end Value

namespace Number

theorem isNaN_of_isZero {x : Float} (h : isZero x) : isNaN x = false := by
  have hrank : rank x = 0 := by rwa [isZero, beq_iff_eq] at h
  simp [isNaN, hrank]

theorem isNaN_signless (x : Float) : isNaN (signless x) = isNaN x := by
  by_cases h : isZero x
  · rw [isNaN_of_isZero h, isNaN_of_isZero (isZero_signless x ▸ h)]
  · rw [signless_of_not_isZero h]

/-- Doubles are equal if and only if they are the same but for the sign of zero, and numbers at all. -/
theorem beq_iff_signless {x y : Float} :
    (x == y) = true ↔ signless x = signless y ∧ isNaN x = false := by
  rw [signless_eq_iff]
  constructor
  · intro h
    refine ⟨Or.inl h, ?_⟩
    obtain ⟨hnan, -⟩ | ⟨hzero, -⟩ := beq_iff.1 h
    · exact hnan
    · exact isNaN_of_isZero hzero
  · rintro ⟨h | ⟨hnan, -⟩, hx⟩
    · exact h
    · rw [hx] at hnan
      exact absurd hnan Bool.false_ne_true

end Number

namespace Value

mutual

/-- Values are equal if and only if they have the same outline, and no number in them is none. -/
theorem beq_iff : ∀ a b : Value,
    a.beq b = true ↔ a.outline = b.outline ∧ ¬ Contains NotANumber a
  | list xs p o, b => by
    cases b with
    | list ys q o' =>
      rw [beq, outline, outline, Bool.and_eq_true, beq_iff_eq, beqItems_iff xs ys,
        contains_notANumber_list, list.injEq]
      grind
    | _ => simp [beq, outline]
  | number x, b => by
    cases b with
    | number y =>
      rw [beq, outline, outline, Number.beq_iff_signless, contains_notANumber_number, number.injEq,
        Bool.not_eq_true]
    | _ => simp [beq, outline]
  | nil, b | bool _, b | string _, b | symbol _, b | keyword _, b | native .., b | lambda .., b
  | special _, b => by
    -- values of two kinds are not equal, nor are their outlines
    rw [and_iff_left (not_contains_notANumber (by simp [ty]) (by simp [ty]))]
    cases b <;> simp [beq, outline]

theorem beqItems_iff : ∀ as bs : List Value,
    beqItems as bs = true ↔ outlines as = outlines bs ∧ ∀ v ∈ as, ¬ Contains NotANumber v
  | [], [] => by simp [beqItems]
  | [], _ :: _ | _ :: _, [] => by simp [beqItems, outlines]
  | a :: as, b :: bs => by
    rw [beqItems, Bool.and_eq_true, beq_iff a b, beqItems_iff as bs, outlines, outlines,
      List.cons.injEq, List.forall_mem_cons]
    exact and_and_and_comm

end

mutual

theorem contains_outline : ∀ v : Value, Contains NotANumber v.outline ↔ Contains NotANumber v
  | list items quoted _ => by
    rw [outline, contains_notANumber_list, contains_notANumber_list, contains_outlines items]
  | number x => by
    rw [outline, contains_notANumber_number, contains_notANumber_number, Number.isNaN_signless]
  | native .. | lambda .. => by
    rw [outline]
    exact iff_of_false (not_contains_notANumber (by simp [ty]) (by simp [ty]))
      (not_contains_notANumber (by simp [ty]) (by simp [ty]))
  | nil | bool _ | string _ | symbol _ | keyword _ | special _ => Iff.rfl

theorem contains_outlines : ∀ vs : List Value,
    (∃ v ∈ outlines vs, Contains NotANumber v) ↔ ∃ v ∈ vs, Contains NotANumber v
  | [] => by rw [outlines]
  | v :: vs => by
    rw [outlines, List.exists_mem_cons_iff, List.exists_mem_cons_iff, contains_outline v,
      contains_outlines vs]

end

theorem contains_congr {a b : Value} (h : a.outline = b.outline) :
    Contains NotANumber a ↔ Contains NotANumber b := by
  rw [← contains_outline a, h, contains_outline]

theorem beq_congr {a a' b b' : Value} (ha : a.outline = a'.outline) (hb : b.outline = b'.outline) :
    a.beq b = a'.beq b' := by
  rw [Bool.eq_iff_iff, beq_iff, beq_iff, ha, hb, contains_congr ha]

theorem beq_symm {a b : Value} (h : a.beq b = true) : b.beq a = true := by
  rw [beq_iff] at h ⊢
  exact ⟨h.1.symm, (contains_congr h.1).not.1 h.2⟩

theorem beq_comm (a b : Value) : a.beq b = b.beq a := Bool.eq_iff_iff.2 ⟨beq_symm, beq_symm⟩

theorem beq_trans {a b c : Value} (hab : a.beq b = true) (hbc : b.beq c = true) : a.beq c = true := by
  rw [beq_iff] at hab hbc ⊢
  exact ⟨hab.1.trans hbc.1, hab.2⟩

theorem beq_self_iff (v : Value) : v.beq v = true ↔ ¬ Contains NotANumber v := by
  rw [beq_iff, and_iff_right rfl]

end Value

open Value

/-- Values that have source, and in which nothing prints as a name, are equal if they have the same
source: both equal what it is read as. -/
theorem beq_of_code_eq {n : Nat} {a b : Value} (ha : Readable n a) (hb : Readable n b)
    (hna : ¬ Contains Named a) (hnb : ¬ Contains Named b) (hcode : a.code = b.code) :
    a.beq b = true := by
  have hend : Follows [] := by simp [Follows]
  obtain ⟨w, hform, -, hw⟩ := readsBack_of_readable ha .start [] hend
  obtain ⟨w', hform', -, hw'⟩ := readsBack_of_readable hb .start [] hend
  have hread : readForms ⟨false, n⟩ a.code = .ok [w] :=
    Grammar.readForms_of_program (Grammar.forms_singleton hform)
  have hread' : readForms ⟨false, n⟩ b.code = .ok [w'] :=
    Grammar.readForms_of_program (Grammar.forms_singleton hform')
  obtain rfl : w = w' := by
    rw [hcode, hread'] at hread
    simpa using hread.symm
  exact beq_trans (beq_symm (hw.2 hna)) (hw'.2 hnb)

/-- Equality of values is consistent with what they print as. It is symmetric, transitive and blind to
positions, and reflexive where no number is none. Equal values have the same type, code and display; and
values that read back are equal if they have the same code. -/
theorem equality_matches_printing :
    (∀ a b : Value, (a == b) = (b == a)) ∧
    (∀ a b c : Value, (a == b) = true → (b == c) = true → (a == c) = true) ∧
    (∀ v : Value, (v == v) = true ↔ ¬ Contains NotANumber v) ∧
    (∀ a a' b b' : Value, Similar a a' → Similar b b' → (a == b) = (a' == b')) ∧
    (∀ a b : Value, (a == b) = true → a.ty = b.ty ∧ a.code = b.code ∧ a.display = b.display) ∧
    ∀ (n : Nat) (a b : Value), Readable n a → Readable n b → ¬ Contains Named a →
      ¬ Contains Named b → a.code = b.code → (a == b) = true := by
  refine ⟨beq_comm, fun a b c => beq_trans, beq_self_iff, ?_, ?_, fun n a b => beq_of_code_eq⟩
  · intro a a' b b' ha hb
    exact beq_congr ha.outline hb.outline
  · intro a b h
    obtain ⟨houtline, -⟩ := (beq_iff a b).1 h
    refine ⟨?_, ?_, ?_⟩
    · rw [← ty_outline a, houtline, ty_outline]
    · rw [← code_outline a, houtline, code_outline]
    · rw [← display_outline a, houtline, display_outline]

/-- The two zeros, in lists that differ in their position too: the lists have the same code, and are equal.
A list with a number that is none does not equal itself. -/
theorem equality_matches_printing_zeros :
    let a := Value.list [.number (-0.0), .string "\"", .symbol "-"] true (some ⟨1, 1⟩)
    let b := Value.list [.number 0, .string "\"", .symbol "-"] true none
    let c := Value.list [.number Number.notANumber] true none
    Readable 1 a ∧ Readable 1 b ∧ ¬ Contains Named a ∧ ¬ Contains Named b ∧ a.code = b.code ∧
      (a == b) = true ∧ a.display = b.display ∧ (c == c) = false := by
  intro a b c
  have hitems (x : Float) : ∀ v ∈ [Value.number x, .string "\"", .symbol "-"], Readable 0 v := by
    intro v hv
    simp only [List.mem_cons, List.not_mem_nil, or_false] at hv
    rcases hv with rfl | rfl | rfl
    · exact .number x
    · exact .string _
    · exact .symbol (by simp [Unbroken, isBlank]) (by simp [SymbolStart])
  have hnamed {x : Float} (hnan : Number.isNaN x = false) (hinf : Number.isInfinite x = false)
      (opened : Option Position) :
      ¬ Contains Named (.list [.number x, .string "\"", .symbol "-"] true opened) := by
    rintro (⟨⟨⟩⟩ | ⟨hv, hc⟩)
    simp only [List.mem_cons, List.not_mem_nil, or_false] at hv
    rcases hv with rfl | rfl | rfl
    · rcases hc with ⟨⟨⟩⟩ <;> simp_all
    · rcases hc with ⟨⟨⟩⟩
    · rcases hc with ⟨⟨⟩⟩
  have ha : Readable 1 a := .list true _ (hitems (-0.0))
  have hb : Readable 1 b := .list true _ (hitems 0)
  have hna : ¬ Contains Named a := hnamed (by decide) (by decide) _
  have hnb : ¬ Contains Named b := hnamed (by decide) (by decide) _
  have hcode : a.code = b.code := by decide +kernel
  have hc : Contains NotANumber c := .inside List.mem_cons_self (.here (.number (by decide)))
  obtain ⟨-, -, hself, -, hprints, hreads⟩ := equality_matches_printing
  have heq := hreads 1 a b ha hb hna hnb hcode
  refine ⟨ha, hb, hna, hnb, hcode, heq, (hprints a b heq).2.2, ?_⟩
  rw [← Bool.not_eq_true, hself]
  exact not_not.2 hc

end MiniLisp
