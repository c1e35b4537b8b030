/-! Small operations on text: joining, repeating, padding, and character classes given by a table. -/

namespace MiniLisp.Text

def ofNat (n : Nat) : String := String.ofList (Nat.toDigits 10 n)

def ofBool (b : Bool) : String := if b then "true" else "false"

/-- Membership in a table of code point ranges, both ends included. -/
def inRanges (table : List (Nat × Nat)) (c : Char) : Bool :=
  table.any fun r => r.1 ≤ c.toNat && c.toNat ≤ r.2

def joined (sep : String) : List String → String
  | [] => ""
  | [s] => s
  | s :: t => s ++ sep ++ joined sep t

/-- `n` copies of a text; the empty text needs no copying. -/
def copies (s : String) (n : Nat) : String :=
  if s.isEmpty then "" else n.repeat (· ++ s) ""

def padded (width : Nat) (s : String) : String := s ++ copies " " (width - s.length)

end MiniLisp.Text
