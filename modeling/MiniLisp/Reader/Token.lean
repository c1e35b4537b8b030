import MiniLisp.Error
import MiniLisp.Reader.Glyph

/-! Tokens of the language. At a token's start its first characters decide what it is: a parenthesis,
a quote before an opening parenthesis, a number (a digit, or a minus before one), a string, a keyword
(a colon before a name), and a symbol otherwise. Numbers and names are as long as they can be. A
malformed string is the last token. -/

namespace MiniLisp

inductive Lexeme where
  | opening (quoted : Bool)
  | closing
  | atom (v : Value)
  | fault (f : ReadFault)

structure Token where
  lexeme : Lexeme
  position : Position

/-- How a string literal ends: at its closing quote, at the end of the text, or at a character that
no escape sequence has. -/
inductive StringEnd where
  | closed (rest : List Glyph)
  | cut
  | escape (g : Glyph)

namespace Token

def chars (gs : List Glyph) : List Char := gs.map Glyph.char

def unescape (c : Char) : Option Char :=
  if c == 'n' then some '\n'
  else if c == 't' then some '\t'
  else if c == '\\' then some '\\'
  else if c == '"' then some '"'
  else none

/-- The text of a string literal after its opening quote, and how it ends. -/
def stringBody : List Glyph → List Char × StringEnd
  | [] => ([], .cut)
  | g :: gs =>
    if g.char == '"' then ([], .closed gs)
    else if g.char == '\\' then
      match gs with
      | [] => ([], .cut)
      | e :: gs =>
        match unescape e.char with
        | some c => let (cs, fin) := stringBody gs; (c :: cs, fin)
        | none => ([], .escape e)
    else let (cs, fin) := stringBody gs; (g.char :: cs, fin)

/-- The token at a string's opening quote; a malformed string leaves nothing to read. -/
def ofString (g : Glyph) (gs : List Glyph) : Token × List Glyph :=
  match stringBody gs with
  | (cs, .closed rest) => (⟨.atom (.string (String.ofList cs)), g.position⟩, rest)
  | (_, .cut) => (⟨.fault .unterminatedString, g.position⟩, [])
  | (_, .escape e) => (⟨.fault (.badEscape e.char), e.position⟩, [])

def startsNumber (g : Glyph) (gs : List Glyph) : Bool :=
  g.isDigit || (g.char == '-' && gs.head?.any Glyph.isDigit)

def startsKeyword (g : Glyph) (gs : List Glyph) : Bool :=
  g.char == ':' && gs.head?.any Glyph.inName

def startsQuote (g : Glyph) (gs : List Glyph) : Bool :=
  g.char == '\x27' && gs.head?.any (·.char == '(')

/-- The token that starts at `g`, which is not white space, and the glyphs after it. -/
def ofGlyphs (g : Glyph) (gs : List Glyph) : Token × List Glyph :=
  if g.char == ')' then (⟨.closing, g.position⟩, gs)
  else if g.char == '(' then (⟨.opening false, g.position⟩, gs)
  else if startsQuote g gs then (⟨.opening true, g.position⟩, gs.tail)
  else if startsNumber g gs then
    (⟨.atom (.number (Number.read (chars (g :: gs.takeWhile Glyph.inNumber)))), g.position⟩,
      gs.dropWhile Glyph.inNumber)
  else if g.char == '"' then ofString g gs
  else if startsKeyword g gs then
    (⟨.atom (.keyword (String.ofList (chars (gs.takeWhile Glyph.inName)))), g.position⟩,
      gs.dropWhile Glyph.inName)
  else
    (⟨.atom (.symbol (String.ofList (chars (g :: gs.takeWhile Glyph.inName)))), g.position⟩,
      gs.dropWhile Glyph.inName)

/-- What follows the body of a comment. A comment ends before a newline, before a carriage return and
a newline, or with the text; where a carriage return stands alone there is no comment at all. -/
def afterComment (gs : List Glyph) : Option (List Glyph) :=
  match gs.dropWhile fun g => !g.isLineEnd with
  | [] => some []
  | g :: rest =>
    if g.char == '\n' || rest.head?.any (·.char == '\n') then some (g :: rest) else none

/-- One step of the scan: a token, or white space or a comment that gives none. -/
def scan (comments : Bool) (g : Glyph) (gs : List Glyph) : Option Token × List Glyph :=
  if isBlank g.char then (none, gs)
  else
    match if comments && g.char == ';' then afterComment gs else none with
    | some rest => (none, rest)
    | none => let (t, rest) := ofGlyphs g gs; (some t, rest)

theorem length_dropWhile_le (p : Glyph → Bool) (gs : List Glyph) :
    (gs.dropWhile p).length ≤ gs.length :=
  (List.dropWhile_suffix p).length_le

theorem stringBody_length_le {gs : List Glyph} {cs : List Char} {rest : List Glyph}
    (h : stringBody gs = (cs, .closed rest)) : rest.length ≤ gs.length := by
  fun_induction stringBody gs generalizing cs with
  | case1 => simp at h
  | case2 g gs hq => simp_all
  | case3 g hq hb => simp at h
  | case4 g hq hb e gs c hc cs' fin hs ih =>
    simp only [Prod.mk.injEq] at h
    have : rest.length ≤ gs.length := ih (by rw [← h.2]; exact hs)
    simp only [List.length_cons]; omega
  | case5 g hq hb e gs hc => simp at h
  | case6 g gs hq hb cs' fin hs ih =>
    simp only [Prod.mk.injEq] at h
    have : rest.length ≤ gs.length := ih (by rw [← h.2]; exact hs)
    simp only [List.length_cons]; omega

theorem ofString_length_le (g : Glyph) (gs : List Glyph) : (ofString g gs).2.length ≤ gs.length := by
  unfold ofString
  split
  · rename_i h; exact stringBody_length_le h
  · simp
  · simp

theorem ofGlyphs_length_le (g : Glyph) (gs : List Glyph) : (ofGlyphs g gs).2.length ≤ gs.length := by
  unfold ofGlyphs
  split
  · exact Nat.le_refl _
  split
  · exact Nat.le_refl _
  split
  · rw [List.length_tail]; omega
  split
  · exact length_dropWhile_le _ _
  split
  · exact ofString_length_le g gs
  split
  · exact length_dropWhile_le _ _
  · exact length_dropWhile_le _ _

theorem afterComment_length_le {gs rest : List Glyph} (h : afterComment gs = some rest) :
    rest.length ≤ gs.length := by
  have hle := length_dropWhile_le (fun g => !g.isLineEnd) gs
  unfold afterComment at h
  split at h
  · simp_all
  · rename_i g tail hd
    split at h
    · simp only [Option.some.injEq] at h; rw [← h, ← hd]; exact hle
    · simp at h

theorem scan_length_le (comments : Bool) (g : Glyph) (gs : List Glyph) :
    (scan comments g gs).2.length ≤ gs.length := by
  unfold scan
  split
  · exact Nat.le_refl _
  · split
    · rename_i rest h
      split at h
      · exact afterComment_length_le h
      · simp at h
    · exact ofGlyphs_length_le g gs

/-- All tokens of a text, in order. -/
def all (comments : Bool) : List Glyph → List Token
  | [] => []
  | g :: gs => (scan comments g gs).1.toList ++ all comments (scan comments g gs).2
termination_by gs => gs.length
decreasing_by
  have := scan_length_le comments g gs
  simp only [List.length_cons]; omega

end Token
end MiniLisp
