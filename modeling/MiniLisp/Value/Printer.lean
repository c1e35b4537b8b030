import MiniLisp.Number.Numeral
import MiniLisp.Text.Quoted
import MiniLisp.Value.Basic

/-! Three renderings of a value. `code` is source that reads back where the value has source;
`display` is what a shell shows; `diagnostic` names every constructor. -/

namespace MiniLisp

def Header.signature (h : Header) : String := "(" ++ Text.joined ", " (h.params.map Param.text) ++ ")"

namespace Value

def openingText (quoted : Bool) : String := if quoted then "'(" else "("

mutual

def code : Value → String
  | nil => "nil"
  | bool b => Text.ofBool b
  | number x => Number.text x
  | string s => Text.literal s
  | symbol name => name
  | keyword name => ":" ++ name
  | list items quoted _ => openingText quoted ++ Text.joined " " (codes items) ++ ")"
  | native h _ => "#<function:" ++ h.name ++ ">"
  | lambda h _ _ => "#<function:" ++ h.name ++ ">"
  | special f => "#<special-form:" ++ f.name ++ ">"

def codes : List Value → List String
  | [] => []
  | v :: vs => code v :: codes vs

end

mutual

def display : Value → String
  | nil => "<Nil>"
  | string s => "\"" ++ s ++ "\""
  | list items quoted _ => openingText quoted ++ Text.joined " " (displays items) ++ ")"
  | native h _ => "fn " ++ h.name ++ " " ++ h.signature
  | lambda h _ _ => "fn " ++ h.name ++ " " ++ h.signature
  | special f => "< " ++ f.name ++ " (special form) >"
  | v => code v

def displays : List Value → List String
  | [] => []
  | v :: vs => display v :: displays vs

end

mutual

def diagnostic : Value → String
  | nil => "Nil"
  | bool b => "Bool(" ++ Text.ofBool b ++ ")"
  | number x => "Number(" ++ Number.text x ++ ")"
  | string s => "String(" ++ Text.revealed s ++ ")"
  | symbol name => "Symbol(" ++ name ++ ")"
  | keyword name => "Keyword(" ++ name ++ ")"
  | list items quoted _ =>
    (if quoted then "Quoted(" else "List(") ++ Text.joined ", " (diagnostics items) ++ ")"
  | native h _ => "Function(Native(" ++ h.name ++ " " ++ h.signature ++ "))"
  | lambda h body _ =>
    "Function(Lambda(" ++ h.name ++ " " ++ h.signature ++ ", body=" ++ diagnostic body ++ "))"
  | special f => "SpecialForm(" ++ f.name ++ ")"

def diagnostics : List Value → List String
  | [] => []
  | v :: vs => diagnostic v :: diagnostics vs

end

end Value
end MiniLisp
