import MiniLisp.Limits
import MiniLisp.Value.Printer

/-! Errors by cause. A cause fixes the kind of an error and its message; the position is added by
whoever knows it. -/

namespace MiniLisp

/-- Why source text is not a program. -/
inductive ReadFault where
  | strayClose
  | unclosed (opened : Position)
  | unterminatedString
  | badEscape (c : Char)
  | tooNested (limit : Nat)
deriving DecidableEq

inductive ReadKind where
  | invalidSyntax | incomplete | invalidEscape | tooDeeplyNested
deriving DecidableEq

namespace ReadFault

def kind : ReadFault → ReadKind
  | strayClose => .invalidSyntax
  | unclosed _ => .incomplete
  | unterminatedString => .incomplete
  | badEscape _ => .invalidEscape
  | tooNested _ => .tooDeeplyNested

def message : ReadFault → String
  | strayClose => "Unexpected ')' with no open list"
  | unclosed opened => "Unclosed list opened at " ++ opened.text
  | unterminatedString => "Unterminated string literal"
  | badEscape c => "Invalid escape sequence '\\" ++ String.singleton c ++ "'"
  | tooNested limit => "Expression too deeply nested (max depth: " ++ Text.ofNat limit ++ ")"

def found : ReadFault → Option String
  | strayClose => some ")"
  | badEscape c => some (String.singleton c)
  | _ => none

end ReadFault

structure ReadError where
  fault : ReadFault
  position : Position
deriving DecidableEq

/-- More text may still make a program of it. -/
def ReadError.isIncomplete (e : ReadError) : Bool := e.fault.kind == .incomplete

def ReadError.text (e : ReadError) : String :=
  "ParsingError: " ++ e.fault.message ++ locationSuffix (some e.position)

inductive ErrorKind where
  | unboundSymbol | notAFunction | type | arity | evaluation
deriving DecidableEq

def ErrorKind.name : ErrorKind → String
  | unboundSymbol => "UnboundSymbolError"
  | notAFunction => "NotAFunctionError"
  | type => "TypeError"
  | arity => "ArityError"
  | evaluation => "RuntimeError"

/-- Why an evaluation fails. -/
inductive Cause where
  | unbound (name : String)
  | notCallable (v : Value)
  /-- Symbols and keywords are never converted. -/
  | unconvertible (v : Value) (target : Ty)
  | wrongType (v : Value) (target : Ty)
  /-- An operation demands a value of this type and is given another. -/
  | wrongArgument (wanted : Ty) (v : Value)
  | conditionNotBool (form : SpecialForm) (v : Value)
  | malformedBranch (v : Value)
  | bindingNotList (v : Value)
  | bindingTarget (v : Value)
  | definitionTarget (v : Value)
  | functionName (v : Value)
  | paramsNotList (v : Value)
  | paramNotSymbol (v : Value)
  | duplicateParam (name : String)
  | undocumented (v : Value)
  | argumentCount (expected : Arity) (got : Nat)
  /-- A typed function is given another number of arguments than it takes, whatever was declared. -/
  | adapterCount (expected : Arity) (got : Nat)
  /-- A value that was found to be of this type is not. No call ends so. -/
  | unreachable (wanted : Ty)
  | depthExceeded
  | repeatCount (times : Float)
  | repeatSize (times : Float)
  /-- Reported by an operation of the host. -/
  | host (kind : ErrorKind) (message : String)

namespace Cause

def kind : Cause → ErrorKind
  | unbound _ => .unboundSymbol
  | notCallable _ => .notAFunction
  | argumentCount .. | adapterCount .. => .arity
  | duplicateParam _ | unreachable _ | depthExceeded | repeatCount _ | repeatSize _ => .evaluation
  | host k _ => k
  | _ => .type

def message : Cause → String
  | unbound name => "Unbound symbol '" ++ name ++ "'"
  | notCallable v => v.code ++ " is not a function"
  | unconvertible v target => "cannot coerce " ++ v.ty.name ++ " " ++ v.code ++ " to " ++ target.name
  | wrongType v target => "expected " ++ target.name ++ ", got " ++ v.ty.name ++ " " ++ v.code
  | wrongArgument wanted v => "expected " ++ wanted.name ++ ", got " ++ v.code
  | conditionNotBool form v => form.name ++ " condition must be a bool, got " ++ v.code
  | malformedBranch v => "case branch must be a (condition result) list, got " ++ v.code
  | bindingNotList v => "let binding must be a (symbol value) list, got " ++ v.code
  | bindingTarget v => "let binding target must be a symbol, got " ++ v.code
  | definitionTarget v => "def requires a symbol, got " ++ v.code
  | functionName v => "defun requires a symbol name, got " ++ v.code
  | paramsNotList v => "defun parameters must be a list, got " ++ v.code
  | paramNotSymbol v => "defun parameters must be symbols, got " ++ v.code
  | duplicateParam name => "Duplicate parameter name: " ++ name
  | undocumented v => "doc expects a function, got " ++ v.code
  | argumentCount expected got | adapterCount expected got =>
    "expected " ++ expected.text ++ " arguments, got " ++ Text.ofNat got
  | unreachable wanted => wanted.title ++ "Kind saw a non-" ++ wanted.name ++ " after precheck"
  | depthExceeded => "Evaluation depth limit exceeded (max: " ++ Text.ofNat maxDepth ++ ")"
  | repeatCount times => "Invalid repeat count: " ++ Number.countText times
  | repeatSize times =>
    "Invalid repeat count: " ++ Number.countText times ++ " (result would exceed " ++
      Text.ofNat maxTextBytes ++ " bytes)"
  | host _ message => message

end Cause

/-- A cause and, where known, the innermost list that was being evaluated. -/
structure RuntimeError where
  cause : Cause
  position : Option Position := none

def RuntimeError.text (e : RuntimeError) : String :=
  e.cause.kind.name ++ ": " ++ e.cause.message ++ locationSuffix e.position

inductive Error where
  | reading (e : ReadError)
  | running (e : RuntimeError)
  /-- The outermost scope was to be left; no program does that. -/
  | leftRoot

namespace Error

def ofCause (cause : Cause) : Error := running ⟨cause, none⟩

/-- Places an error that has no position yet. -/
def orAt (position : Option Position) : Error → Error
  | running e => running ⟨e.cause, e.position <|> position⟩
  | e => e

def message : Error → String
  | reading e => e.fault.message
  | running e => e.cause.message
  | leftRoot => "exit_scope called on the root environment"

def text : Error → String
  | reading e => e.text
  | running e => e.text
  | leftRoot => leftRoot.message

end Error

/-- Counts the arguments first, whatever they are. -/
def Arity.check (expected : Arity) (got : Nat) : Except Cause Unit :=
  if expected.admits got then .ok () else .error (.argumentCount expected got)

end MiniLisp
