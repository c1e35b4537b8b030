import MiniLisp.Position
import MiniLisp.Text.Blank

/-! Source text as glyphs: characters that know where they stand. -/

namespace MiniLisp

structure Glyph where
  char : Char
  position : Position
deriving DecidableEq

namespace Glyph

/-- The glyphs of a text that starts at `p`. -/
def place (p : Position) : List Char → List Glyph
  | [] => []
  | c :: cs => ⟨c, p⟩ :: place (p.next c) cs

def ofText (s : String) : List Glyph := place .start s.toList

/-- White space and parentheses end an atom. -/
def isDelimiter (g : Glyph) : Bool := isBlank g.char || g.char == '(' || g.char == ')'

def isDigit (g : Glyph) : Bool := g.char.isDigit

def inNumber (g : Glyph) : Bool := g.isDigit || g.char == '.'

def inName (g : Glyph) : Bool := !g.isDelimiter

def isLineEnd (g : Glyph) : Bool := g.char == '\n' || g.char == '\r'

end Glyph
end MiniLisp
