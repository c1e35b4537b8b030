import MiniLisp.Reader.Glyph

/-! Positions from byte offsets. The table of a source holds the offsets at which its lines start. The
position of what is left to read is found there by its offset: the line is the last one that starts no
later, and the column counts the characters on it so far. -/

namespace MiniLisp

/-- The characters that fill the first `n` bytes, and those behind them. No character is cut in two. -/
def splitBytes : Nat → List Char → Option (List Char × List Char)
  | 0, cs => some ([], cs)
  | _ + 1, [] => none
  | n + 1, c :: cs =>
    if c.utf8Size ≤ n + 1 then
      (splitBytes (n + 1 - c.utf8Size) cs).map fun (front, back) => (c :: front, back)
    else none

structure LineTable where
  source : String
  starts : List Nat

namespace LineTable

/-- The offsets behind the newlines of a text that begins at `offset`. -/
def behindNewlines (offset : Nat) : List Char → List Nat
  | [] => []
  | c :: cs =>
    let next := offset + c.utf8Size
    if c == '\n' then next :: behindNewlines next cs else behindNewlines next cs

def ofText (source : String) : LineTable := ⟨source, 0 :: behindNewlines 0 source.toList⟩

variable (t : LineTable)

/-- The position of the start of `rest`, which the source ends with. -/
def spanOf (rest : String) : Option Position := do
  let offset := t.source.utf8ByteSize - rest.utf8ByteSize
  -- the starts ascend, so that those up to the offset come first
  let line := (t.starts.takeWhile (· ≤ offset)).length
  let start ← t.starts[line - 1]?
  let (_, fromLine) ← splitBytes start t.source.toList
  let (onLine, _) ← splitBytes (offset - start) fromLine
  return ⟨line, onLine.length + 1⟩

/-- The characters of what is left to read, each with the position of what is left from there on. -/
def glyphs : List Char → Option (List Glyph)
  | [] => some []
  | c :: cs => do
    let p ← t.spanOf (String.ofList (c :: cs))
    let gs ← glyphs cs
    return ⟨c, p⟩ :: gs

end LineTable
end MiniLisp
