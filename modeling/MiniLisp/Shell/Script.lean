import MiniLisp.Interpreter

/-! Running a file: its last value is shown, or the error that stopped it. -/

namespace MiniLisp.Shell

/-- What a shell reads: comments count as white space. -/
def config : ReaderConfig := { comments := true }

structure Report where
  output : String
  errors : String
  status : Nat

def runFile (rolls : Nat → UInt64) (path : String) (contents : Except String String) : Report :=
  let greeting := "Loading file '" ++ path ++ "'\n\n"
  match contents with
  | .error reason => ⟨greeting, "Error: could not read '" ++ path ++ "': " ++ reason ++ "\n", 1⟩
  | .ok source =>
    match (Machine.new config rolls).run source with
    | (.ok v, m) => ⟨greeting ++ m.world.output ++ (v.getD .nil).display ++ "\n", "", 0⟩
    | (.error e, m) => ⟨greeting ++ m.world.output, "Error: " ++ e.text ++ "\n", 1⟩

end MiniLisp.Shell
