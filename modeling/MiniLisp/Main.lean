import MiniLisp.Operation.Dice
import MiniLisp.Shell.Repl

/-! The command line: runs the file that is named, or an interactive shell on standard input. -/

namespace MiniLisp

def reason : IO.Error → String
  | .noFileOrDirectory .. => "No such file or directory (os error 2)"
  | .permissionDenied .. => "Permission denied (os error 13)"
  | e => toString e

def contentsOf (path : String) : IO (Except String String) := do
  try return .ok (← IO.FS.readFile path)
  catch e => return .error (reason e)

def playFile (rolls : Nat → UInt64) (path : String) : IO UInt32 := do
  let contents ← contentsOf path
  let report := Shell.runFile rolls path contents
  IO.print report.output
  IO.eprint report.errors
  return UInt32.ofNat report.status

/-- Serves one line after the other and prints what each adds to the output. -/
partial def serve (input : IO.FS.Stream) (m : Machine) (held : String) : IO Unit := do
  IO.print m.world.output
  (← IO.getStdout).flush
  let m := { m with world := { m.world with output := "" } }
  let raw ← input.getLine
  match Shell.splitLines [] raw.toList with
  | line :: _ =>
    match Shell.accept held line with
    | (.quit, _) => IO.print (Shell.perform m .quit).world.output
    | (request, held) => serve input (Shell.perform m request) held
  | [] => IO.print (Shell.perform m .quit).world.output

end MiniLisp

def main (args : List String) : IO UInt32 := do
  let rolls := MiniLisp.Dice.ofSeed (UInt64.ofNat (← IO.monoNanosNow))
  match args with
  | path :: _ => MiniLisp.playFile rolls path
  | [] =>
    MiniLisp.serve (← IO.getStdin) (MiniLisp.Shell.start rolls) ""
    return 0
