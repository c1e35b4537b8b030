import MiniLisp.Text.Basic

/-! Positions in source text. Lines and columns count from one, a column is one character, and only
the newline ends a line. -/

namespace MiniLisp

structure Position where
  line : Nat
  column : Nat
deriving DecidableEq, Inhabited

namespace Position

def start : Position := ⟨1, 1⟩

def next (p : Position) (c : Char) : Position :=
  if c == '\n' then ⟨p.line + 1, 1⟩ else ⟨p.line, p.column + 1⟩

def text (p : Position) : String := "line " ++ Text.ofNat p.line ++ ", col " ++ Text.ofNat p.column

end Position

/-- What an error message appends when it knows where it arose. -/
def locationSuffix : Option Position → String
  | some p => " at " ++ p.text
  | none => ""

end MiniLisp
