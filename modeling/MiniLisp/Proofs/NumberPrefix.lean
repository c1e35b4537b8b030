import Mathlib.Data.Nat.Find
import MiniLisp.Proofs.Numeral

/-! The number that a text starts with. A numeral is an optional sign before `Infinity`, or before digits
with at most one point among them and an optional exponent (`Numeral`). Reading takes the longest numeral
that the text starts with (`Longest.readSigned_eq`): each of its parts is as long as it can be, since a longer
part would make a longer numeral. Numerals are ASCII, so the bytes of a text start with the same numerals
as its characters do, and the text can be cut behind each of them. -/

namespace MiniLisp

namespace Number

section

variable {α : Type} {R : List Char → α → Prop}

/-- `t`, of value `a`, is the longest text of its kind that `cs` starts with. -/
structure Longest (R : List Char → α → Prop) (cs t : List Char) (a : α) : Prop where
  kind : R t a
  start : t <+: cs
  most : ∀ t' a', R t' a' → t' <+: cs → t'.length ≤ t.length

theorem exists_longest {cs : List Char} (h : ∃ t a, R t a ∧ t <+: cs) : ∃ t a, Longest R cs t a := by
  classical
  let P (n : Nat) : Prop := ∃ t a, R t a ∧ t <+: cs ∧ t.length = n
  obtain ⟨t, a, hkind, hstart⟩ := h
  have hgreatest : P (Nat.findGreatest P cs.length) :=
    Nat.findGreatest_spec hstart.length_le ⟨t, a, hkind, hstart, rfl⟩
  obtain ⟨t, a, hkind, hstart, hlen⟩ := hgreatest
  refine ⟨t, a, hkind, hstart, ?_⟩
  intro t' a' hkind' hstart'
  rw [hlen]
  exact Nat.le_findGreatest hstart'.length_le ⟨t', a', hkind', hstart', rfl⟩

theorem Longest.ends {t u w : List Char} {a a' : α} (h : Longest R (t ++ u) t a)
    (hkind : R (t ++ w) a') (hw : w <+: u) : w = [] := by
  have hle := h.most _ _ hkind ((List.prefix_append_right_inj t).2 hw)
  rw [List.length_append] at hle
  exact List.eq_nil_of_length_eq_zero (by omega)

end

/-- An optional sign, and whether it is a minus. -/
inductive Signed : List Char → Bool → Prop
  | none : Signed [] false
  | plus : Signed ['+'] false
  | minus : Signed ['-'] true

/-- Digits, or a point with digits before it, behind it or on both sides; and what stands on either
side. -/
inductive Mantissa : List Char → List Char × List Char → Prop
  | whole {ds : List Char} : ds ≠ [] → (∀ c ∈ ds, c.isDigit) → Mantissa ds (ds, [])
  | point {ds ps : List Char} : ds ≠ [] ∨ ps ≠ [] → (∀ c ∈ ds, c.isDigit) → (∀ c ∈ ps, c.isDigit) →
    Mantissa (ds ++ '.' :: ps) (ds, ps)

/-- Nothing, or a letter with an optional sign and digits behind it; and the power of ten it stands
for. -/
inductive Exponent : List Char → Int → Prop
  | none : Exponent [] 0
  | some {c : Char} {sign ds : List Char} {negative : Bool} : c = 'e' ∨ c = 'E' →
    Signed sign negative → ds ≠ [] → (∀ d ∈ ds, d.isDigit) →
    Exponent (c :: (sign ++ ds)) (if negative then -(exponentValue ds : Int) else exponentValue ds)

/-- A numeral, and the double that it stands for. -/
inductive Numeral : List Char → Float → Prop
  | infinity {sign : List Char} {negative : Bool} : Signed sign negative →
    Numeral (sign ++ "Infinity".toList) (infinity negative)
  | decimal {sign mantissa exponent whole places : List Char} {negative : Bool} {e : Int} :
    Signed sign negative → Mantissa mantissa (whole, places) → Exponent exponent e →
    Numeral (sign ++ (mantissa ++ exponent))
      (ofRank negative (decimalRank ⟨digitsValue (whole ++ places), e - places.length⟩))

/-! The sign. -/

theorem splitSign_of_head {cs : List Char} (h : ∀ c ∈ cs.head?, c ≠ '+' ∧ c ≠ '-') :
    splitSign cs = (false, cs) := by
  unfold splitSign
  split
  · simp at h
  · simp at h
  · rfl

theorem splitSign_append {sign cs : List Char} {negative : Bool} (hsign : Signed sign negative)
    (h : ∀ c ∈ cs.head?, c ≠ '+' ∧ c ≠ '-') : splitSign (sign ++ cs) = (negative, cs) := by
  cases hsign with
  | none => exact splitSign_of_head h
  | plus => rfl
  | minus => rfl

theorem exists_splitSign (cs : List Char) : ∃ sign negative rest,
    cs = sign ++ rest ∧ Signed sign negative ∧ splitSign cs = (negative, rest) := by
  unfold splitSign
  split
  · exact ⟨_, _, _, rfl, .minus, rfl⟩
  · exact ⟨_, _, _, rfl, .plus, rfl⟩
  · exact ⟨_, _, _, rfl, .none, rfl⟩

/-! Runs of digits. -/

section

variable {ds u : List Char} (hds : ∀ c ∈ ds, c.isDigit) (hu : ∀ c ∈ u.head?, c.isDigit = false)
include hds hu

theorem takeWhile_digits : (ds ++ u).takeWhile Char.isDigit = ds := by
  rw [List.takeWhile_append_of_pos hds]
  cases u with
  | nil => simp
  | cons c u => simp [hu c rfl]

theorem dropWhile_digits : (ds ++ u).dropWhile Char.isDigit = u := by
  rw [List.dropWhile_append_of_pos hds]
  cases u with
  | nil => rfl
  | cons c u => simp [hu c rfl]

end

/-! The mantissa. -/

theorem Mantissa.mem {m : List Char} {v : List Char × List Char} (h : Mantissa m v) {c : Char}
    (hc : c ∈ m) : c.isDigit ∨ c = '.' := by
  cases h with
  | whole _ hds => exact Or.inl (hds c hc)
  | point _ hds hps =>
    rcases List.mem_append.1 hc with hc | hc
    · exact Or.inl (hds c hc)
    · rcases List.mem_cons.1 hc with rfl | hc
      · exact Or.inr rfl
      · exact Or.inl (hps c hc)

theorem Mantissa.ne_nil {m : List Char} {v : List Char × List Char} (h : Mantissa m v) : m ≠ [] := by
  cases h with
  | whole hne => exact hne
  | point => simp

theorem forall_digits_concat {ds : List Char} {d : Char} (hds : ∀ c ∈ ds, c.isDigit) (hd : d.isDigit) :
    ∀ c ∈ ds ++ [d], c.isDigit := by
  intro c hc
  rcases List.mem_append.1 hc with hc | hc
  · exact hds c hc
  · rw [List.mem_singleton.1 hc]
    exact hd

theorem Mantissa.concat {m whole places : List Char} (h : Mantissa m (whole, places)) {d : Char}
    (hd : d.isDigit) : ∃ v, Mantissa (m ++ [d]) v := by
  cases h with
  | whole hne hds => exact ⟨_, .whole (by simp) (forall_digits_concat hds hd)⟩
  | point _ hds hps =>
    rw [List.append_assoc, List.cons_append]
    exact ⟨_, .point (Or.inr (by simp)) hds (forall_digits_concat hps hd)⟩

theorem prefix_of_head? {c : Char} {u : List Char} (h : c ∈ u.head?) : [c] <+: u := by
  cases u with
  | nil => cases h
  | cons d u =>
    obtain rfl : d = c := by simpa using h
    exact ⟨u, rfl⟩

theorem Longest.takes_mantissa {m u whole places : List Char}
    (h : Longest Mantissa (m ++ u) m (whole, places)) :
    (m ++ u).takeWhile Char.isDigit = whole ∧
      fractionOf ((m ++ u).dropWhile Char.isDigit) = (places, u) := by
  have hu : ∀ c ∈ u.head?, c.isDigit = false := by
    intro c hc
    by_contra hd
    obtain ⟨v, hv⟩ := h.kind.concat (Bool.not_eq_false _ ▸ hd)
    exact List.cons_ne_nil c [] (h.ends hv (prefix_of_head? hc))
  cases hm : h.kind with
  | whole hne hds =>
    have hpoint : ∀ c ∈ u.head?, c ≠ '.' := by
      rintro c hc rfl
      have hlonger : Mantissa (m ++ ['.']) (m, []) := .point (Or.inl hne) hds (by simp)
      exact List.cons_ne_nil _ _ (h.ends hlonger (prefix_of_head? hc))
    rw [takeWhile_digits hds hu, dropWhile_digits hds hu]
    refine ⟨rfl, ?_⟩
    unfold fractionOf
    split
    · simp at hpoint
    · rfl
  | point _ hds hps =>
    have hdot : ∀ c ∈ ('.' :: (places ++ u)).head?, c.isDigit = false := by simp
    rw [List.append_assoc, List.cons_append, takeWhile_digits hds hdot, dropWhile_digits hds hdot,
      fractionOf, takeWhile_digits hps hu, dropWhile_digits hps hu]
    exact ⟨rfl, rfl⟩

/-! The exponent. -/

theorem exponentOf_append {c : Char} {sign ds u : List Char} {negative : Bool}
    (hc : c = 'e' ∨ c = 'E') (hsign : Signed sign negative) (hne : ds ≠ []) (hds : ∀ d ∈ ds, d.isDigit)
    (hu : ∀ d ∈ u.head?, d.isDigit = false) :
    exponentOf (c :: (sign ++ (ds ++ u))) =
      if negative then -(exponentValue ds : Int) else exponentValue ds := by
  have hhead : ∀ d ∈ (ds ++ u).head?, d ≠ '+' ∧ d ≠ '-' := by
    obtain ⟨d, ds, rfl⟩ := List.exists_cons_of_ne_nil hne
    have hd := hds d List.mem_cons_self
    simp only [List.cons_append, List.head?_cons, Option.mem_some_iff, forall_eq']
    constructor
    · rintro rfl
      exact absurd hd (by decide)
    · rintro rfl
      exact absurd hd (by decide)
  have hletter : (c == 'e' || c == 'E') = true := by simpa using hc
  rw [exponentOf, if_pos hletter, splitSign_append hsign hhead]
  dsimp only
  rw [takeWhile_digits hds hu]

/-- Reading takes the longest exponent, if only the empty one. -/
theorem Longest.takes_exponent {w u : List Char} {e : Int} (h : Longest Exponent (w ++ u) w e) :
    exponentOf (w ++ u) = e := by
  cases hw : h.kind with
  | none =>
    rw [List.nil_append]
    cases u with
    | nil => rfl
    | cons c u =>
      rw [exponentOf]
      split_ifs with hc
      · -- the letter is there, so it must be the digits that are missing
        obtain ⟨sign, negative, rest, rfl, hsign, hsplit⟩ := exists_splitSign u
        have hempty : rest.takeWhile Char.isDigit = [] := by
          by_contra hne
          have hlonger := Exponent.some (by simpa using hc) hsign hne fun d => List.mem_takeWhile_imp
          have hstart : c :: (sign ++ rest.takeWhile Char.isDigit) <+: c :: (sign ++ rest) := by
            rw [List.cons_prefix_cons, List.prefix_append_right_inj]
            exact ⟨rfl, List.takeWhile_prefix _⟩
          exact List.cons_ne_nil _ _ (h.ends (w := c :: _) hlonger hstart)
        rw [hsplit]
        dsimp only
        rw [hempty]
        cases negative <;> rfl
      · rfl
  | @some c sign ds negative hc hsign hne hds =>
    have hu : ∀ d ∈ u.head?, d.isDigit = false := by
      intro d hd
      by_contra hdigit
      have hlonger := Exponent.some hc hsign (by simp : ds ++ [d] ≠ [])
        (forall_digits_concat hds (Bool.not_eq_false _ ▸ hdigit))
      rw [← List.append_assoc, ← List.cons_append] at hlonger
      exact List.cons_ne_nil _ _ (h.ends hlonger (prefix_of_head? hd))
    rw [List.cons_append, List.append_assoc]
    exact exponentOf_append hc hsign hne hds hu

/-! The numeral. -/

section

variable {sign m w u whole places : List Char} {negative : Bool} {e : Int} {x : Float}
  (h : Longest Numeral (sign ++ (m ++ (w ++ u))) (sign ++ (m ++ w)) x) (hsign : Signed sign negative)
  (hm : Mantissa m (whole, places)) (he : Exponent w e)
include h hsign hm he

theorem Longest.exponent : Longest Exponent (w ++ u) w e := by
  refine ⟨he, List.prefix_append w u, ?_⟩
  intro w' e' he' hw'
  have hstart : sign ++ (m ++ w') <+: sign ++ (m ++ (w ++ u)) := by simpa using hw'
  have hle := h.most _ _ (.decimal hsign hm he') hstart
  simpa using hle

/-- The mantissa of the longest numeral is the longest mantissa behind its sign: it cannot go on with
the letter of an exponent, and without an exponent it would make a longer numeral. -/
theorem Longest.mantissa : Longest Mantissa (m ++ (w ++ u)) m (whole, places) := by
  refine ⟨hm, List.prefix_append m _, ?_⟩
  rintro m' ⟨whole', places'⟩ hm' hstart
  by_contra hlt
  obtain ⟨z, rfl⟩ := List.prefix_of_prefix_length_le (List.prefix_append m (w ++ u)) hstart (by omega)
  have hz : z ≠ [] := by
    rintro rfl
    simp at hlt
  cases he with
  | none =>
    have hlonger : sign ++ (m ++ z ++ []) <+: sign ++ (m ++ ([] ++ u)) := by simpa using hstart
    have hle := h.most _ _ (.decimal hsign hm' .none) hlonger
    simp only [List.append_nil, List.length_append] at hle hlt
    omega
  | @some c _ _ _ hc =>
    obtain ⟨d, z, rfl⟩ := List.exists_cons_of_ne_nil hz
    rw [List.prefix_append_right_inj, List.cons_append, List.cons_prefix_cons] at hstart
    obtain ⟨rfl, -⟩ := hstart
    have hmem := hm'.mem (List.mem_append_right m List.mem_cons_self)
    rcases hc with rfl | rfl <;> simp at hmem

end

theorem not_sign_of_mantissa {m : List Char} {v : List Char × List Char} (h : Mantissa m v)
    (u : List Char) : ∀ c ∈ (m ++ u).head?, c ≠ '+' ∧ c ≠ '-' := by
  obtain ⟨c, m', rfl⟩ := List.exists_cons_of_ne_nil h.ne_nil
  have hc := h.mem List.mem_cons_self
  simp only [List.cons_append, List.head?_cons, Option.mem_some_iff, forall_eq']
  constructor <;> rintro rfl <;> simp at hc

theorem not_infinity_of_mantissa {m : List Char} {v : List Char × List Char} (h : Mantissa m v)
    (u : List Char) : "Infinity".toList.isPrefixOf (m ++ u) = false := by
  obtain ⟨c, m', rfl⟩ := List.exists_cons_of_ne_nil h.ne_nil
  have hne : ('I' == c) = false := by
    rw [beq_eq_false_iff_ne]
    rintro rfl
    have hc := h.mem List.mem_cons_self
    simp at hc
  rw [infinity_toList, List.cons_append, List.isPrefixOf, hne, Bool.false_and]

theorem Mantissa.isEmpty_eq_false {m whole places : List Char} (h : Mantissa m (whole, places)) :
    (whole.isEmpty && places.isEmpty) = false := by
  cases h with
  | whole hne => simp [hne]
  | point hne => simpa [imp_iff_not_or] using hne

/-- Reading, after white space: the sign is taken off, and the rest read with it. -/
def readSigned (cs : List Char) : Float := readUnsigned (splitSign cs).1 (splitSign cs).2

theorem read_eq_readSigned (cs : List Char) : read cs = readSigned (Text.trimLeft cs) := rfl

theorem readSigned_of_splitSign {cs rest : List Char} {negative : Bool}
    (h : splitSign cs = (negative, rest)) : readSigned cs = readUnsigned negative rest := by
  rw [readSigned, h]

/-- Reading gives the value of the longest numeral that the text starts with. -/
theorem Longest.readSigned_eq {cs t : List Char} {x : Float} (h : Longest Numeral cs t x) :
    readSigned cs = x := by
  obtain ⟨u, rfl⟩ := h.start
  cases hx : h.kind with
  | @infinity sign negative hsign =>
    have hsplit : splitSign (sign ++ ("Infinity".toList ++ u)) = (negative, "Infinity".toList ++ u) :=
      splitSign_append hsign (by simp [infinity_toList])
    have hstart : "Infinity".toList.isPrefixOf ("Infinity".toList ++ u) :=
      List.isPrefixOf_iff_prefix.2 (List.prefix_append _ u)
    rw [List.append_assoc, readSigned_of_splitSign hsplit, readUnsigned, if_pos hstart]
  | @decimal sign m w whole places negative e hsign hm he =>
    rw [List.append_assoc, List.append_assoc] at h ⊢
    obtain ⟨hwhole, hplaces⟩ := (h.mantissa hsign hm he).takes_mantissa
    rw [readSigned_of_splitSign (splitSign_append hsign (not_sign_of_mantissa hm _)), readUnsigned,
      if_neg (ne_true_of_eq_false (not_infinity_of_mantissa hm _)), hwhole, hplaces]
    dsimp only
    rw [hm.isEmpty_eq_false, if_neg Bool.false_ne_true, (h.exponent hsign hm he).takes_exponent]

theorem exists_mantissa {cs places rest : List Char}
    (hplaces : fractionOf (cs.dropWhile Char.isDigit) = (places, rest))
    (h : ¬ ((cs.takeWhile Char.isDigit).isEmpty && places.isEmpty)) :
    ∃ m whole places, Mantissa m (whole, places) ∧ m <+: cs := by
  by_cases hwhole : cs.takeWhile Char.isDigit = []
  · have hcs := List.takeWhile_append_dropWhile (p := Char.isDigit) (l := cs)
    rw [hwhole, List.nil_append] at hcs
    rw [hcs] at hplaces
    have hne : places ≠ [] := by simpa [hwhole] using h
    unfold fractionOf at hplaces
    split at hplaces
    · rename_i cs
      cases hplaces
      have hpoint : Mantissa ([] ++ '.' :: cs.takeWhile Char.isDigit) _ :=
        .point (Or.inr hne) (by simp) fun c => List.mem_takeWhile_imp
      exact ⟨_, _, _, hpoint, List.cons_prefix_cons.2 ⟨rfl, List.takeWhile_prefix _⟩⟩
    · cases hplaces
      exact absurd rfl hne
  · exact ⟨_, _, _, .whole hwhole fun c => List.mem_takeWhile_imp, List.takeWhile_prefix _⟩

/-- A text that starts with no numeral does not read as a number. -/
theorem readSigned_of_no_numeral {cs : List Char} (h : ¬ ∃ t x, Numeral t x ∧ t <+: cs) :
    readSigned cs = notANumber := by
  obtain ⟨sign, negative, rest, rfl, hsign, hsplit⟩ := exists_splitSign cs
  obtain ⟨⟨places, more⟩, hplaces⟩ : ∃ r, fractionOf (rest.dropWhile Char.isDigit) = r := ⟨_, rfl⟩
  rw [readSigned_of_splitSign hsplit, readUnsigned, hplaces]
  dsimp only
  split_ifs with hinf hempty
  · have hstart := List.isPrefixOf_iff_prefix.1 hinf
    exact absurd ⟨_, _, .infinity hsign, (List.prefix_append_right_inj sign).2 hstart⟩ h
  · rfl
  · obtain ⟨m, _, _, hm, hstart⟩ := exists_mantissa hplaces hempty
    refine absurd ⟨_, _, .decimal hsign hm .none, ?_⟩ h
    rw [List.append_nil]
    exact (List.prefix_append_right_inj sign).2 hstart

end Number

namespace Text

/-- Each character is one byte long. -/
def Ascii (cs : List Char) : Prop := ∀ c ∈ cs, c.toNat < 128

theorem Ascii.append {cs ds : List Char} (hcs : Ascii cs) (hds : Ascii ds) : Ascii (cs ++ ds) := by
  intro c hc
  exact (List.mem_append.1 hc).elim (hcs c) (hds c)

/-- The bytes of a text, each as the character of its number. -/
def bytes (cs : List Char) : List Char :=
  (cs.flatMap String.utf8EncodeChar).map fun b => Char.ofNat b.toNat

theorem bytes_cons (c : Char) (cs : List Char) : bytes (c :: cs) = bytes [c] ++ bytes cs := by
  simp [bytes]

theorem toNat_ofNat_byte (b : UInt8) : (Char.ofNat b.toNat).toNat = b.toNat := by
  have hb := b.toNat_lt
  have hvalid : b.toNat.isValidChar := Or.inl (by omega)
  rw [Char.ofNat, dif_pos hvalid]
  rfl

theorem bytes_of_ascii {c : Char} (h : c.toNat < 128) : bytes [c] = [c] := by
  have hv : c.val.toNat < 128 := h
  have hb : (UInt8.ofNat c.val.toNat).toNat = c.toNat := by
    rw [UInt8.toNat_ofNat']
    exact Nat.mod_eq_of_lt (by omega)
  simp only [bytes, List.flatMap_cons, List.flatMap_nil, List.append_nil, String.utf8EncodeChar]
  rw [if_pos (by omega), List.map_singleton, hb, Char.ofNat_toNat]

theorem bytes_of_not_ascii {c : Char} (h : ¬ c.toNat < 128) :
    ∃ b bs, bytes [c] = b :: bs ∧ 128 ≤ b.toNat := by
  have hv : ¬ c.val.toNat ≤ 127 := by
    change ¬ c.toNat ≤ 127
    omega
  simp only [bytes, List.flatMap_cons, List.flatMap_nil, List.append_nil, String.utf8EncodeChar]
  rw [if_neg hv]
  split_ifs
  all_goals
    refine ⟨_, _, rfl, ?_⟩
    rw [toNat_ofNat_byte, UInt8.toNat_ofNat']
    omega

theorem prefix_bytes_iff {t cs : List Char} (h : Ascii t) : t <+: bytes cs ↔ t <+: cs := by
  induction t generalizing cs with
  | nil => simp
  | cons a t ih =>
    have ha := h a List.mem_cons_self
    have ht : Ascii t := fun c hc => h c (List.mem_cons_of_mem a hc)
    cases cs with
    | nil => simp [bytes]
    | cons c cs =>
      rw [bytes_cons]
      by_cases hc : c.toNat < 128
      · rw [bytes_of_ascii hc, List.singleton_append, List.cons_prefix_cons, List.cons_prefix_cons,
          ih ht]
      · obtain ⟨b, bs, hbytes, hb⟩ := bytes_of_not_ascii hc
        rw [hbytes, List.cons_append, List.cons_prefix_cons, List.cons_prefix_cons]
        constructor
        · rintro ⟨rfl, -⟩
          omega
        · rintro ⟨rfl, -⟩
          exact absurd ha hc

theorem utf8ByteSize_of_ascii {t : List Char} (h : Ascii t) :
    (String.ofList t).utf8ByteSize = t.length := by
  induction t with
  | nil => rfl
  | cons c t ih =>
    have hsize : c.utf8Size = 1 := by
      rw [Char.utf8Size_eq_one_iff, UInt32.le_iff_toNat_le]
      exact Nat.le_of_lt_succ (h c List.mem_cons_self)
    rw [String.ofList_cons, String.utf8ByteSize_append, String.utf8ByteSize_singleton, hsize,
      ih fun d hd => h d (List.mem_cons_of_mem c hd), List.length_cons, Nat.add_comm]

/-- As many bytes into a text as the ASCII text that it starts with has characters, there is a boundary
between characters. -/
theorem isValid_of_prefix {t cs : List Char} (h : Ascii t) (hstart : t <+: cs) :
    (⟨t.length⟩ : String.Pos.Raw).IsValid (String.ofList cs) := by
  obtain ⟨u, rfl⟩ := hstart
  rw [String.Pos.Raw.isValid_iff_exists_append]
  refine ⟨String.ofList t, String.ofList u, String.ofList_append, ?_⟩
  rw [String.Pos.Raw.ext_iff]
  exact (utf8ByteSize_of_ascii h).symm

theorem trimLeft_prefix (cs more : List Char) : trimLeft cs <+: trimLeft (cs ++ more) := by
  unfold trimLeft
  rw [List.dropWhile_append]
  split_ifs with h
  · rw [List.isEmpty_iff.1 h]
    exact List.nil_prefix
  · exact List.prefix_append _ more

end Text

namespace Number

open Text (Ascii)

theorem ascii_of_digits {ds : List Char} (h : ∀ c ∈ ds, c.isDigit) : Ascii ds := by
  intro c hc
  have hd := h c hc
  simp only [Char.isDigit, ge_iff_le, Bool.and_eq_true, decide_eq_true_eq, UInt32.le_iff_toNat_le] at hd
  have hle : c.toNat ≤ 57 := hd.2
  omega

theorem Signed.ascii {sign : List Char} {negative : Bool} (h : Signed sign negative) : Ascii sign := by
  cases h <;> simp [Ascii]

theorem Mantissa.ascii {m : List Char} {v : List Char × List Char} (h : Mantissa m v) : Ascii m := by
  cases h with
  | whole _ hds => exact ascii_of_digits hds
  | point _ hds hps =>
    have hpoint : Ascii ['.'] := by simp [Ascii]
    exact (ascii_of_digits hds).append (hpoint.append (ascii_of_digits hps))

theorem Exponent.ascii {w : List Char} {e : Int} (h : Exponent w e) : Ascii w := by
  cases h with
  | none => simp [Ascii]
  | @some c sign ds _ hc hsign _ hds =>
    have hletter : Ascii [c] := by rcases hc with rfl | rfl <;> simp [Ascii]
    exact hletter.append (hsign.ascii.append (ascii_of_digits hds))

theorem Numeral.ascii {t : List Char} {x : Float} (h : Numeral t x) : Ascii t := by
  cases h with
  | infinity hsign => exact hsign.ascii.append (by simp [Ascii])
  | decimal hsign hm he => exact hsign.ascii.append (hm.ascii.append he.ascii)

theorem Longest.of_prefix {cs cs' t : List Char} {x : Float} (h : Longest Numeral cs' t x)
    (hcs : cs <+: cs') (hstart : t <+: cs) : Longest Numeral cs t x :=
  ⟨h.kind, hstart, fun t' x' hkind hstart' => h.most t' x' hkind (hstart'.trans hcs)⟩

/-- Text behind the longest numeral that does not go on with it makes no difference. -/
theorem readSigned_congr {cs cs' : List Char} (hcs : cs <+: cs')
    (h : ∀ t x, Numeral t x → t <+: cs' → t <+: cs) : readSigned cs' = readSigned cs := by
  by_cases hnumeral : ∃ t x, Numeral t x ∧ t <+: cs'
  · obtain ⟨t, x, hlongest⟩ := exists_longest hnumeral
    have hstart := h t x hlongest.kind hlongest.start
    rw [hlongest.readSigned_eq, (hlongest.of_prefix hcs hstart).readSigned_eq]
  · have hnone : ¬ ∃ t x, Numeral t x ∧ t <+: cs := by
      rintro ⟨t, x, hkind, hstart⟩
      exact hnumeral ⟨t, x, hkind, hstart.trans hcs⟩
    rw [readSigned_of_no_numeral hnumeral, readSigned_of_no_numeral hnone]

/-- Reading a text as a number gives the value of the longest numeral behind its white space, or no
number. Numerals stand in the bytes just where they stand in the characters, so that every cut is between
characters; and appended text makes no difference unless it makes a longer numeral. -/
theorem read_longest_numeral (s : String) :
    (∀ t x, Longest Numeral (Text.trimLeft s.toList) t x → read s.toList = x) ∧
    ((∃ t x, Numeral t x ∧ t <+: Text.trimLeft s.toList) →
      ∃ t x, Longest Numeral (Text.trimLeft s.toList) t x) ∧
    ((¬ ∃ t x, Numeral t x ∧ t <+: Text.trimLeft s.toList) → read s.toList = notANumber) ∧
    (∀ t, (∃ negative, Signed t negative) ∨ (∃ x, Numeral t x) →
      (t <+: Text.bytes (Text.trimLeft s.toList) ↔ t <+: Text.trimLeft s.toList) ∧
      (t <+: Text.trimLeft s.toList →
        (⟨t.length⟩ : String.Pos.Raw).IsValid (String.ofList (Text.trimLeft s.toList)))) ∧
    ∀ more : String, (∀ t x, Numeral t x → t <+: Text.trimLeft (s ++ more).toList →
        t <+: Text.trimLeft s.toList) → read (s ++ more).toList = read s.toList := by
  refine ⟨fun t x h => h.readSigned_eq, exists_longest, readSigned_of_no_numeral, ?_, ?_⟩
  · rintro t h
    have hascii : Ascii t := by
      rcases h with ⟨_, hsign⟩ | ⟨_, hnumeral⟩
      · exact hsign.ascii
      · exact hnumeral.ascii
    exact ⟨Text.prefix_bytes_iff hascii, Text.isValid_of_prefix hascii⟩
  · intro more h
    rw [read_eq_readSigned, read_eq_readSigned]
    refine readSigned_congr ?_ h
    rw [String.toList_append]
    exact Text.trimLeft_prefix s.toList more.toList

end Number
end MiniLisp
