import MiniLisp.Reader.Token

/-! Forms from tokens. The tokens are fed one by one to a reading, which holds the lists that are
still open; the first token that does not fit stops it. A text whose lists are all closed is read as
its forms, in order. -/

namespace MiniLisp

/-- How source is read: whether a semicolon starts a comment, and how deep lists may nest. -/
structure ReaderConfig where
  comments : Bool := false
  nesting : Nat := maxNesting
deriving DecidableEq, Inhabited

/-- A list still open: how and where it started, and the forms before it, latest first. -/
structure Frame where
  quoted : Bool
  opened : Position
  before : List Value

/-- The forms read so far in the innermost open list, latest first, and the open lists from the
innermost out. -/
structure Reading where
  forms : List Value := []
  frames : List Frame := []

namespace Reading

def feed (nesting : Nat) (r : Reading) (t : Token) : Except ReadError Reading :=
  match t.lexeme with
  | .atom v => .ok { r with forms := v :: r.forms }
  | .fault f => .error ⟨f, t.position⟩
  | .opening quoted =>
    if nesting ≤ r.frames.length then .error ⟨.tooNested nesting, t.position⟩
    else .ok ⟨[], ⟨quoted, t.position, r.forms⟩ :: r.frames⟩
  | .closing =>
    match r.frames with
    | [] => .error ⟨.strayClose, t.position⟩
    | f :: fs => .ok ⟨.list r.forms.reverse f.quoted (some f.opened) :: f.before, fs⟩

def feedAll (nesting : Nat) : Reading → List Token → Except ReadError Reading
  | r, [] => .ok r
  | r, t :: ts =>
    match r.feed nesting t with
    | .ok r => feedAll nesting r ts
    | .error e => .error e

def finish (r : Reading) : Except ReadError (List Value) :=
  match r.frames with
  | [] => .ok r.forms.reverse
  | f :: _ => .error ⟨.unclosed f.opened, f.opened⟩

end Reading

def formsOfTokens (nesting : Nat) (ts : List Token) : Except ReadError (List Value) :=
  match Reading.feedAll nesting {} ts with
  | .ok r => r.finish
  | .error e => .error e

/-- The forms of a text. -/
def readForms (config : ReaderConfig) (source : String) : Except ReadError (List Value) :=
  formsOfTokens config.nesting (Token.all config.comments (Glyph.ofText source))

end MiniLisp
