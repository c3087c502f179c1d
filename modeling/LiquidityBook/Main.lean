import LiquidityBook.Command.Invocation
import Std.Time.DateTime.Timestamp

/-! The toolkit as a program: it reads the environment, the clock and the file that is named, and
prints what `Invocation.run` answers. Overflow is checked. -/
namespace LiquidityBook

/-- The variables of the process; there are none where they cannot be listed. -/
def readVariables : IO (List (String × String)) := do
  try return variablesOfBlock (← IO.FS.readFile "/proc/self/environ")
  catch _ => return []

def readUserFile : Option String → IO UserFile
  | none => return .unnamed
  | some path => do
    try return .text (← IO.FS.readFile path)
    catch _ => return .missing

def answer (args : List String) : IO Outcome := do
  match Invocation.ofArguments args with
  | .error stop => return .ofStop stop
  | .ok i =>
    let now ← Std.Time.Timestamp.now
    return .ofAnswer (i.run (← readUserFile i.file) (← readVariables) now.toSecondsSinceUnixEpoch.val true)

end LiquidityBook

open LiquidityBook in
def main (args : List String) : IO UInt32 := do
  let outcome ← answer args
  match outcome with
  | .printed text => IO.print text
  | .failed cause => IO.eprintln ("Error: " ++ cause.message)
  | .misused => IO.eprint Outcome.helpText
  return UInt32.ofNat outcome.exitCode
