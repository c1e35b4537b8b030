/-! White space is the Unicode property `White_Space`: 25 characters, six of them ASCII. -/

namespace MiniLisp

def isBlank (c : Char) : Bool :=
  let n := c.toNat
  if n < 0x85 then (9 ≤ n && n ≤ 13) || n == 0x20
  else n == 0x85 || n == 0xA0 || n == 0x1680 || (0x2000 ≤ n && n ≤ 0x200A) ||
    n == 0x2028 || n == 0x2029 || n == 0x202F || n == 0x205F || n == 0x3000

theorem not_isBlank_of_isDigit {c : Char} (h : c.isDigit) : isBlank c = false := by
  simp only [Char.isDigit, ge_iff_le, Bool.and_eq_true, decide_eq_true_eq, UInt32.le_iff_toNat_le] at h
  have hl : 48 ≤ c.toNat := h.1
  have hu : c.toNat ≤ 57 := h.2
  unfold isBlank
  grind

namespace Text

def trimLeft (cs : List Char) : List Char := cs.dropWhile isBlank

/-- The text without the white space at either end. -/
def trim (s : String) : String :=
  String.ofList (trimLeft (trimLeft s.toList).reverse).reverse

end Text
end MiniLisp
