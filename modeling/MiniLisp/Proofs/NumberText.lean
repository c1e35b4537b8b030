import MiniLisp.Proofs.Numeral
import MiniLisp.Value.Coercion

/-! Numbers as arguments of text functions and back. A number converted to a text and read from it again
is the number it was, up to the sign of zero (`read_text_eq_signless`), so two numbers have one text
if and only if they are equal or neither is a number (`text_eq_iff`). -/

namespace MiniLisp

namespace Number

/-- The number, with zero without its sign. -/
def signless (x : Float) : Float := if isZero x then ofRank false 0 else x

theorem signless_of_isZero {x : Float} (h : isZero x) : signless x = ofRank false 0 := if_pos h

theorem signless_of_not_isZero {x : Float} (h : ¬ isZero x) : signless x = x := if_neg h

theorem isZero_signless (x : Float) : isZero (signless x) = isZero x := by
  unfold signless
  split_ifs with h
  · rw [h]
    decide
  · rfl

theorem text_signless (x : Float) : text (signless x) = text x := by
  by_cases h : isZero x
  · have hrank : rank x = 0 := by rwa [isZero, beq_iff_eq] at h
    have hnan : isNaN x = false := by simp [isNaN, hrank]
    have hinf : isInfinite x = false := by
      rw [isInfinite, hrank]
      decide
    rw [signless_of_isZero h, text_of_isZero hnan hinf h]
    decide
  · rw [signless_of_not_isZero h]

theorem eq_infinity {x : Float} (h : isInfinite x) : x = infinity (isNegative x) := by
  rw [isInfinite, beq_iff_eq] at h
  rw [infinity, ← h, ofRank_rank]

theorem read_text_eq_signless (x : Float) : read (text x).toList = signless x := by
  by_cases hnan : isNaN x
  · have hx := eq_notANumber hnan
    subst hx
    rfl
  by_cases hinf : isInfinite x
  · have hx := eq_infinity hinf
    rw [hx]
    cases isNegative x <;> rfl
  simp only [Bool.not_eq_true] at hnan hinf
  by_cases hzero : isZero x
  · have hdigits : "0".toList = ['0'] := by simp
    rw [text_of_isZero hnan hinf hzero, hdigits, read_zero, signless_of_isZero hzero]
  · rw [read_text_eq hnan hinf fun h => absurd h hzero, signless_of_not_isZero hzero]

theorem signless_eq_iff {x y : Float} :
    signless x = signless y ↔ (x == y) = true ∨ isNaN x ∧ isNaN y := by
  rw [beq_iff]
  constructor
  · intro h
    have hzero : isZero x = isZero y := by rw [← isZero_signless x, h, isZero_signless]
    by_cases hx : isZero x
    · exact Or.inl (Or.inr ⟨hx, hzero ▸ hx⟩)
    · rw [signless_of_not_isZero hx, signless_of_not_isZero (hzero ▸ hx)] at h
      subst h
      cases hnan : isNaN x with
      | false => exact Or.inl (Or.inl ⟨rfl, rfl⟩)
      | true => exact Or.inr ⟨rfl, rfl⟩
  · rintro ((⟨-, rfl⟩ | ⟨hx, hy⟩) | ⟨hx, hy⟩)
    · rfl
    · rw [signless_of_isZero hx, signless_of_isZero hy]
    · rw [eq_notANumber hx, eq_notANumber hy]

theorem text_eq_iff {x y : Float} : text x = text y ↔ (x == y) = true ∨ isNaN x ∧ isNaN y := by
  rw [← signless_eq_iff]
  constructor
  · intro h
    rw [← read_text_eq_signless, h, read_text_eq_signless]
  · intro h
    rw [← text_signless, h, text_signless]

end Number

open Number

theorem Value.coerce_number_string (x : Float) :
    (number x).coerce .string = .ok (string (text x)) := rfl

theorem Value.coerce_string_number (s : String) :
    (string s).coerce .number = .ok (number (Number.read s.toList)) := rfl

/-- A number survives the conversion to a text and back: only the sign of zero is lost, and what is no
number stays none. Two numbers have the same text if and only if they are equal or neither is a number. -/
theorem number_survives_text (x : Float) :
    (∃ s z, (Value.number x).coerce .string = .ok (.string s) ∧
      (Value.string s).coerce .number = .ok (.number z) ∧
      (¬ isNaN x → ¬ isZero x → z = x) ∧ (isZero x → z = 0) ∧ (isNaN x → isNaN z)) ∧
    ∀ y, (Value.number x).coerce .string = (Value.number y).coerce .string ↔
      (x == y) = true ∨ isNaN x ∧ isNaN y := by
  constructor
  · refine ⟨text x, signless x, Value.coerce_number_string x, ?_, ?_, signless_of_isZero, ?_⟩
    · rw [Value.coerce_string_number, read_text_eq_signless]
    · intro _ hzero
      exact signless_of_not_isZero hzero
    · intro hnan
      rw [eq_notANumber hnan]
      decide
  · intro y
    rw [← text_eq_iff, Value.coerce_number_string, Value.coerce_number_string]
    simp

end MiniLisp
