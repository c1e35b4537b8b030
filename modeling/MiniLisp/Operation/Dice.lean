/-! A row of pseudo-random words from a seed. -/

namespace MiniLisp.Dice

/-- Spreads the bits of a word over the whole of it. -/
def mix (x : UInt64) : UInt64 :=
  let x := (x ^^^ (x >>> 30)) * 0xBF58476D1CE4E5B9
  let x := (x ^^^ (x >>> 27)) * 0x94D049BB133111EB
  x ^^^ (x >>> 31)

def ofSeed (seed : UInt64) (i : Nat) : UInt64 := mix (seed + (UInt64.ofNat i + 1) * 0x9E3779B97F4A7C15)

end MiniLisp.Dice
