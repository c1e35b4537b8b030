import Mathlib.Data.List.TakeWhile
import MiniLisp.Proofs.Double
import MiniLisp.Proofs.Rounding

/-! Numbers survive being written and read. The text of a finite number is digits with at most one
point among them (`positional_expanded`), its decimal has the number's rank (`decimalRank_shortest`),
and reading such a text rounds its decimal (`readUnsigned_of_positional`). -/

namespace MiniLisp.Number

/-- A text of digits, or of digits, a point and digits, and the decimal that it writes. -/
inductive Positional : List Char → Decimal → Prop
  | whole {ds : List Char} {x : Decimal} : ds ≠ [] → (∀ c ∈ ds, c.isDigit) →
    x.digits = digitsValue ds → x.exponent = 0 → Positional ds x
  | point {ds ps : List Char} {x : Decimal} : ds ≠ [] → (∀ c ∈ ds, c.isDigit) →
    (∀ c ∈ ps, c.isDigit) → x.digits = digitsValue (ds ++ ps) → x.exponent = -ps.length →
    Positional (ds ++ '.' :: ps) x

theorem digitsValue_eq (ds : List Char) : digitsValue ds = Nat.ofDigitChars 10 ds 0 := by
  rw [digitsValue_eq_foldl, Nat.ofDigitChars_eq_foldl]
  rfl

theorem digitsValue_toDigits (n : Nat) : digitsValue (Nat.toDigits 10 n) = n := by
  rw [digitsValue_eq, Nat.ofDigitChars_ten_toDigits]

theorem isDigit_of_mem_digits {n : Nat} {c : Char} (h : c ∈ Nat.toDigits 10 n) : c.isDigit :=
  Nat.isDigit_of_mem_toDigits (by decide) (by decide) h

theorem isDigit_of_mem_zeros {n : Nat} {c : Char} (h : c ∈ List.replicate n '0') : c.isDigit := by
  rw [(List.mem_replicate.1 h).2]
  rfl

/-- The same decimal with no power of ten left to multiply by. -/
def Decimal.expanded (x : Decimal) : Decimal :=
  if 0 ≤ x.exponent then ⟨x.digits * tenTo x.exponent.toNat, 0⟩ else x

theorem digitsValue_digits_zeros (n k : Nat) :
    digitsValue (Nat.toDigits 10 n ++ List.replicate k '0') = n * tenTo k := by
  rw [digitsValue_eq, Nat.ofDigitChars_append, Nat.ofDigitChars_ten_toDigits,
    Nat.ofDigitChars_replicate_zero, Nat.mul_comm]
  rfl

theorem digitsValue_zeros_digits (n k : Nat) :
    digitsValue (List.replicate k '0' ++ Nat.toDigits 10 n) = n := by
  rw [digitsValue_eq, Nat.ofDigitChars_append, Nat.ofDigitChars_replicate_zero, Nat.mul_zero,
    Nat.ofDigitChars_ten_toDigits]

theorem positional_expanded (x : Decimal) : Positional x.positional x.expanded := by
  obtain ⟨n, e⟩ := x
  have hds : ∀ c ∈ Nat.toDigits 10 n, c.isDigit := fun c => isDigit_of_mem_digits
  unfold Decimal.positional Decimal.expanded
  dsimp only
  split_ifs with he hlen
  · refine .whole (by simp) ?_ (digitsValue_digits_zeros n _).symm rfl
    intro c hc
    rcases List.mem_append.1 hc with hc | hc
    · exact hds c hc
    · exact isDigit_of_mem_zeros hc
  · refine .point ?_ (fun c hc => hds c (List.mem_of_mem_take hc))
      (fun c hc => hds c (List.mem_of_mem_drop hc)) ?_ ?_
    · rw [← List.length_pos_iff, List.length_take]
      omega
    · rw [List.take_append_drop, digitsValue_toDigits]
    · simp only [List.length_drop]
      omega
  · -- the zero before the point and those after it count for nothing
    refine .point (List.cons_ne_nil '0' []) (by simp) ?_
      (digitsValue_zeros_digits n (_ + 1)).symm ?_
    · intro c hc
      rcases List.mem_append.1 hc with hc | hc
      · exact isDigit_of_mem_zeros hc
      · exact hds c hc
    · change e = -(List.replicate _ '0' ++ Nat.toDigits 10 n).length
      rw [List.length_append, List.length_replicate]
      omega

theorem infinity_toList : "Infinity".toList = ['I', 'n', 'f', 'i', 'n', 'i', 't', 'y'] := by simp

theorem readUnsigned_of_isDigit {d : Char} {cs places rest : List Char} (negative : Bool)
    (hd : d.isDigit) (hfrac : fractionOf ((d :: cs).dropWhile Char.isDigit) = (places, rest)) :
    readUnsigned negative (d :: cs) =
      ofRank negative (decimalRank ⟨digitsValue ((d :: cs).takeWhile Char.isDigit ++ places),
        exponentOf rest - places.length⟩) := by
  have hprefix : "Infinity".toList.isPrefixOf (d :: cs) = false := by
    have hne : ('I' == d) = false := by
      rw [beq_eq_false_iff_ne]
      rintro rfl
      exact absurd hd (by decide)
    rw [infinity_toList, List.isPrefixOf, hne, Bool.false_and]
  rw [readUnsigned, if_neg (ne_true_of_eq_false hprefix), hfrac]
  dsimp only
  rw [List.takeWhile_cons_of_pos hd, List.isEmpty_cons, Bool.false_and, if_neg Bool.false_ne_true]

/-- Reading a text in positional notation gives the double nearest to its decimal. -/
theorem readUnsigned_of_positional {cs : List Char} {x : Decimal} (negative : Bool)
    (h : Positional cs x) : readUnsigned negative cs = ofRank negative (decimalRank x) := by
  cases h with
  | @whole ds _ hne hds hn he =>
    obtain ⟨d, ds, rfl⟩ := List.exists_cons_of_ne_nil hne
    have hfrac : fractionOf ((d :: ds).dropWhile Char.isDigit) = ([], []) := by
      rw [List.dropWhile_eq_nil_iff.2 hds]
      rfl
    rw [readUnsigned_of_isDigit negative (hds d List.mem_cons_self) hfrac,
      List.takeWhile_eq_self_iff.2 hds, List.append_nil, ← hn]
    congr
    exact he.symm
  | @point ds ps _ hne hds hps hn he =>
    obtain ⟨d, ds, rfl⟩ := List.exists_cons_of_ne_nil hne
    have htake : (d :: (ds ++ '.' :: ps)).takeWhile Char.isDigit = d :: ds := by
      rw [← List.cons_append, List.takeWhile_append_of_pos hds]
      simp
    have hfrac : fractionOf ((d :: (ds ++ '.' :: ps)).dropWhile Char.isDigit) = (ps, []) := by
      rw [← List.cons_append, List.dropWhile_append_of_pos hds]
      simp [fractionOf, List.takeWhile_eq_self_iff.2 hps, List.dropWhile_eq_nil_iff.2 hps]
    rw [List.cons_append, readUnsigned_of_isDigit negative (hds d List.mem_cons_self) hfrac, htake,
      ← hn]
    congr
    rw [he]
    exact Int.zero_sub _

theorem Positional.exists_cons {cs : List Char} {x : Decimal} (h : Positional cs x) :
    ∃ d run, cs = d :: run ∧ d.isDigit ∧ ∀ c ∈ run, c.isDigit ∨ c = '.' := by
  cases h with
  | @whole ds _ hne hds =>
    obtain ⟨d, ds, rfl⟩ := List.exists_cons_of_ne_nil hne
    exact ⟨d, ds, rfl, hds d List.mem_cons_self, fun c hc => Or.inl (hds c (List.mem_cons_of_mem d hc))⟩
  | @point ds ps _ hne hds hps =>
    obtain ⟨d, ds, rfl⟩ := List.exists_cons_of_ne_nil hne
    refine ⟨d, ds ++ '.' :: ps, rfl, hds d List.mem_cons_self, ?_⟩
    intro c hc
    rcases List.mem_append.1 hc with hc | hc
    · exact Or.inl (hds c (List.mem_cons_of_mem d hc))
    · rcases List.mem_cons.1 hc with rfl | hc
      · exact Or.inr rfl
      · exact Or.inl (hps c hc)

theorem decimalRank_expanded {x : Decimal} (h : decimalRank x < infinityRank) :
    decimalRank x.expanded = decimalRank x := by
  obtain ⟨n, e⟩ := x
  unfold Decimal.expanded
  split_ifs with he
  · dsimp only at he ⊢
    by_cases hn : n = 0
    · simp [decimalRank, hn]
    · have hmul : n * tenTo e.toNat ≠ 0 := Nat.mul_ne_zero hn (Nat.pow_pos (by decide)).ne'
      have hle : e ≤ 310 := by
        by_contra hgt
        rw [decimalRank, if_neg hn, if_pos (Int.not_le.1 hgt)] at h
        exact absurd h (Nat.lt_irrefl _)
      rw [decimalRank_of_bounds hmul (by dsimp only; omega) (by dsimp only; omega),
        decimalRank_of_bounds hn hle (by dsimp only; omega)]
      simp [Decimal.fraction, he]
  · rfl

theorem finiteText_toList (x : Float) :
    (finiteText x).toList =
      (if isNegative x then ['-'] else []) ++ (shortest (rank x)).positional := by
  rw [finiteText]
  split <;> simp

theorem splitSign_of_isDigit {d : Char} (hd : d.isDigit) (cs : List Char) :
    splitSign (d :: cs) = (false, d :: cs) := by
  unfold splitSign
  split
  · simp_all
  · simp_all
  · rfl

theorem read_of_isDigit {d : Char} (hd : d.isDigit) (negative : Bool) (cs : List Char) :
    read ((if negative then ['-'] else []) ++ d :: cs) = readUnsigned negative (d :: cs) := by
  cases negative with
  | false =>
    rw [if_neg Bool.false_ne_true, List.nil_append, read, Text.trimLeft,
      List.dropWhile_cons_of_neg (by simp [not_isBlank_of_isDigit hd]), splitSign_of_isDigit hd]
  | true => rfl

theorem read_of_positional {cs : List Char} {x : Decimal} (negative : Bool) (h : Positional cs x) :
    read ((if negative then ['-'] else []) ++ cs) = ofRank negative (decimalRank x) := by
  have hread := readUnsigned_of_positional negative h
  obtain ⟨d, run, rfl, hd, -⟩ := h.exists_cons
  rw [read_of_isDigit hd, hread]

theorem decimalRank_le (x : Decimal) : decimalRank x ≤ infinityRank := by
  unfold decimalRank
  split_ifs
  · exact Nat.zero_le _
  · exact Nat.le_refl _
  · exact Nat.zero_le _
  · unfold nearestRank
    dsimp only
    split_ifs
    · exact Nat.zero_le _
    · exact Nat.min_le_right _ _

theorem isNaN_read {d : Char} (hd : d.isDigit) (negative : Bool) (cs : List Char) :
    isNaN (read ((if negative then ['-'] else []) ++ d :: cs)) = false := by
  obtain ⟨⟨places, rest⟩, hfrac⟩ : ∃ r, fractionOf ((d :: cs).dropWhile Char.isDigit) = r := ⟨_, rfl⟩
  have hle := decimalRank_le ⟨digitsValue ((d :: cs).takeWhile Char.isDigit ++ places),
    exponentOf rest - places.length⟩
  rw [read_of_isDigit hd, readUnsigned_of_isDigit negative hd hfrac, isNaN, rank_ofRank _ hle,
    decide_eq_false_iff_not]
  exact Nat.not_lt.2 hle

theorem read_finiteText {x : Float} (hpos : 0 < rank x) (hk : rank x < infinityRank) :
    read (finiteText x).toList = x := by
  have hrank := decimalRank_shortest hpos hk
  rw [finiteText_toList, read_of_positional _ (positional_expanded _),
    decimalRank_expanded (by omega), hrank, ofRank_rank]

theorem read_zero : read ['0'] = ofRank false 0 := by
  have hzero : Positional ['0'] ⟨0, 0⟩ :=
    .whole (by simp) (by simp) (digitsValue_toDigits 0).symm rfl
  have hread := read_of_positional false hzero
  rwa [if_neg Bool.false_ne_true, List.nil_append, decimalRank, if_pos rfl] at hread

theorem rank_pos {x : Float} (h : ¬ isZero x) : 0 < rank x := by
  rw [isZero, beq_iff_eq] at h
  omega

theorem rank_lt_infinityRank {x : Float} (hnan : isNaN x = false) (hinf : isInfinite x = false) :
    rank x < infinityRank := by
  rw [isNaN, decide_eq_false_iff_not] at hnan
  rw [isInfinite, beq_eq_false_iff_ne] at hinf
  omega

/-- What is written of a number other than the infinities starts with a digit, behind a minus if it
has one. -/
theorem text_shape {x : Float} (hnan : isNaN x = false) (hinf : isInfinite x = false) :
    ∃ sign d run, (text x).toList = sign ++ d :: run ∧ (sign = [] ∨ sign = ['-']) ∧ d.isDigit ∧
      ∀ c ∈ run, c.isDigit ∨ c = '.' := by
  rw [text, if_neg (by simp [hnan]), if_neg (by simp [hinf])]
  split_ifs with hzero
  · exact ⟨[], '0', [], by simp, Or.inl rfl, rfl, by simp⟩
  · obtain ⟨d, run, hcons, hd, hrun⟩ := (positional_expanded (shortest (rank x))).exists_cons
    refine ⟨if isNegative x then ['-'] else [], d, run, ?_, ?_, hd, hrun⟩
    · rw [finiteText_toList, hcons]
    · cases isNegative x <;> simp

section

variable {x : Float} (hnan : isNaN x = false) (hinf : isInfinite x = false)
include hnan hinf

theorem text_of_isZero (hzero : isZero x) : text x = "0" := by
  rw [text, if_neg (by simp [hnan]), if_neg (by simp [hinf]), if_pos hzero]

theorem read_text_eq (hsign : isZero x → isNegative x = false) : read (text x).toList = x := by
  by_cases hzero : isZero x
  · have hrank : rank x = 0 := by rwa [isZero, beq_iff_eq] at hzero
    have hdigits : "0".toList = ['0'] := by simp
    rw [text_of_isZero hnan hinf hzero, hdigits, read_zero]
    conv_rhs => rw [← ofRank_rank x, hsign hzero, hrank]
  · have htext : text x = finiteText x := by
      rw [text, if_neg (by simp [hnan]), if_neg (by simp [hinf]), if_neg hzero]
    rw [htext]
    exact read_finiteText (rank_pos hzero) (rank_lt_infinityRank hnan hinf)

theorem read_text : text (read (text x).toList) = text x ∧ (read (text x).toList == x) = true := by
  by_cases hzero : isZero x
  · have hdigits : "0".toList = ['0'] := by simp
    rw [text_of_isZero hnan hinf hzero, hdigits, read_zero]
    exact ⟨by decide, beq_of_isZero (by decide) hzero⟩
  · rw [read_text_eq hnan hinf fun h => absurd h hzero]
    exact ⟨rfl, beq_self hnan⟩

end

end MiniLisp.Number
