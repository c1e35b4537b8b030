import MiniLisp.Shell.Script

/-! The interactive shell. Lines are kept while what they hold is an unfinished form, and then run
together, unless an interrupt abandons them; a line that starts nothing may be a command instead. Which
requests the terminal makes does not depend on how they turn out. -/

namespace MiniLisp.Shell

def banner : String :=
  "Toylisp REPL\n" ++
  "Enter expressions like: (+ 1 2)\n" ++
  "Unbalanced input continues on the next line.\n" ++
  "Type :help for more commands, or Ctrl+C to exit.\n" ++
  "\n"

def helpText : String :=
  "Toylisp Interpreter:\n" ++
  "  :help      - Show this help message\n" ++
  "  :env       - Show global bindings and builtins\n" ++
  "  :ast EXPR  - Show the parsed tree of EXPR without evaluating it\n" ++
  "  :quit      - Exit the interpreter\n" ++
  "  :exit      - Exit the interpreter\n" ++
  "  Ctrl+C     - Cancel a multi-line form, or exit\n" ++
  "\n" ++
  "Values:\n" ++
  "  Numbers: 42, -2.5    Strings: \"hi\\n\"    Keywords: :else\n" ++
  "  Booleans: true, false    Quoted lists: '(1 2 3)\n" ++
  "\n" ++
  "Special forms: do, if, case, eval, let, def, defun\n" ++
  "\n" ++
  "Examples:\n" ++
  "  (+ 1 2 3)\n" ++
  "  (if (< 2 5) \"yes\" \"no\")\n" ++
  "  (let (x 10) (* x x))\n" ++
  "  (defun sq (n) (* n n))\n" ++
  "  (case ((= 1 2) :one) (:else :other))\n" ++
  "  (doc str-cat)\n" ++
  "\n"

def farewell : String := "Goodbye!\n"

/-- What comes from the terminal. -/
inductive Event where
  | line (text : String)
  | interrupt
  | failure (reason : String)

/-- What an event asks for. -/
inductive Request where
  | nothing
  | help
  | bindings
  | tree (source : String)
  | run (source : String)
  | quit
  | abort (reason : String)
deriving DecidableEq

def Request.ends : Request → Bool
  | quit | abort _ => true
  | _ => false

/-- The command on a line without white space around it. -/
def command? (line : String) : Option Request :=
  if line == ":help" then some .help
  else if line == ":env" then some .bindings
  else if line == ":quit" || line == ":exit" then some .quit
  else if ":ast".toList.isPrefixOf line.toList then some (.tree (String.ofList (line.toList.drop 4)))
  else none

/-- Adds a line to the text held back, and runs that text unless more could complete it. -/
def hold (held line : String) : Request × String :=
  let held := held ++ line ++ "\n"
  match readForms config held with
  | .error e => if e.isIncomplete then (.nothing, held) else (.run held, "")
  | .ok _ => (.run held, "")

/-- What a line asks for while `held` is held back, and what is held back then. -/
def accept (held line : String) : Request × String :=
  if held.isEmpty then
    let bare := Text.trim line
    if bare.isEmpty then (.nothing, "")
    else
      match command? bare with
      | some r => (r, "")
      | none => hold held line
  else hold held line

/-- An interrupt abandons what is held back, or quits. -/
def respond (held : String) : Event → Request × String
  | .line line => accept held line
  | .interrupt => if held.isEmpty then (.quit, held) else (.nothing, "")
  | .failure reason => (.abort reason, held)

/-- The requests that events make, up to the first that ends the session, and the text still held back.
The end of the input quits too. -/
def requests (held : String) : List Event → List Request × String
  | [] => ([.quit], held)
  | event :: events =>
    let (r, held) := respond held event
    if r.ends then ([r], held)
    else
      let (rs, held) := requests held events
      (r :: rs, held)

/-- The sources that are run among requests. -/
def sources (rs : List Request) : List String :=
  rs.filterMap fun
    | .run source => some source
    | _ => none

/-- Names in columns of 15 characters, four to a line. -/
def columns : List String → String
  | a :: b :: c :: d :: names => row [a, b, c, d] ++ columns names
  | [] => ""
  | names => row names
where
  row (names : List String) : String :=
    String.join (names.map fun name => "  " ++ Text.padded 15 name) ++ "\n"

def bindingsText (m : Machine) : String :=
  let names := m.builtins.names
  let globals := (m.store.visible m.global).toList
  "Builtin functions (" ++ Text.ofNat names.length ++ "):\n" ++ columns names ++ "\n" ++
    "Global bindings (" ++ Text.ofNat globals.length ++ "):\n" ++
    String.join (globals.map fun (name, v) => "  " ++ name ++ " = " ++ v.display ++ "\n")

def treeText (source : String) : String :=
  match readForms config source with
  | .ok forms => String.join (forms.map fun v => v.diagnostic ++ "\n")
  | .error e => "Error: " ++ e.text ++ "\n"

def say (m : Machine) (s : String) : Machine :=
  { m with world := { m.world with output := m.world.output ++ s } }

def reply : Except Error (Option Value) → String
  | .ok (some v) => v.display ++ "\n"
  | .ok none => ""
  | .error e => "Error: " ++ e.text ++ "\n"

def perform (m : Machine) : Request → Machine
  | .nothing => m
  | .help => say m helpText
  | .bindings => say m (bindingsText m)
  | .tree source => say m (treeText source)
  | .quit => say m farewell
  | .abort reason => say m ("Error: " ++ reason ++ "\n")
  | .run source =>
    let (r, m) := m.run source
    say m (reply r)

def tellHelp : Op Value := do
  Op.write helpText
  return .nil

def helpFunction : Definition := .hostFixed "help" [] (adapt [] tellHelp)

def sqrtFunction : Definition :=
  .hostFixed "sqrt" [("n", .number)] (adapt [.one .number] fun x => Op.answer (.number x.sqrt))

def start (rolls : Nat → UInt64) : Machine :=
  say (((Machine.new config rolls).register helpFunction).register sqrtFunction) banner

/-- The characters up to each newline, and those after the last one if there are any. -/
def splitLines (current : List Char) : List Char → List String
  | [] => if current.isEmpty then [] else [String.ofList current.reverse]
  | c :: cs =>
    if c == '\n' then
      let line := if current.head? == some '\r' then current.tail else current
      String.ofList line.reverse :: splitLines [] cs
    else splitLines (c :: current) cs

def typed (text : String) : List Event := (splitLines [] text.toList).map .line

def transcript (rolls : Nat → UInt64) (input : String) : String :=
  ((requests "" (typed input)).1.foldl perform (start rolls)).world.output

end MiniLisp.Shell
