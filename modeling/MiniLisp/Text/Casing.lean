import MiniLisp.Text.Basic
import MiniLisp.Text.CaseTable

/-! Upper and lower case of whole texts, by the full Unicode mappings: a character may become several
(`ß` gives `SS`), and a capital sigma at the end of a word becomes the final small sigma. -/

namespace MiniLisp.Text

def CaseRun.covers (r : CaseRun) (n : Nat) : Bool :=
  r.first ≤ n && n ≤ r.last && (n - r.first) % r.step == 0

def mapped (runs : List CaseRun) (expansions : List (Nat × List Nat)) (c : Char) : List Char :=
  match runs.find? (·.covers c.toNat) with
  | some r => [Char.ofNat (c.toNat + r.shift).toNat]
  | none =>
    match expansions.lookup c.toNat with
    | some ns => ns.map Char.ofNat
    | none => [c]

def upperChar (c : Char) : List Char := mapped upperRuns upperExpansions c

def lowerChar (c : Char) : List Char := mapped lowerRuns lowerExpansions c

/-- Whether the first character that case-ignorable ones do not hide is a cased one. -/
def reachesCased (cs : List Char) : Bool :=
  match cs.dropWhile (inRanges caseIgnorableRanges) with
  | c :: _ => inRanges casedRanges c
  | [] => false

/-- Lower case of `cs`, where `before` holds the characters that precede it, nearest first. -/
def lowerAfter (before : List Char) : List Char → List Char
  | [] => []
  | c :: cs =>
    (if c == 'Σ' then
      if reachesCased before && !reachesCased cs then ['ς'] else ['σ']
    else lowerChar c) ++ lowerAfter (c :: before) cs

def upper (s : String) : String := String.ofList (s.toList.flatMap upperChar)

def lower (s : String) : String := String.ofList (lowerAfter [] s.toList)

end MiniLisp.Text
