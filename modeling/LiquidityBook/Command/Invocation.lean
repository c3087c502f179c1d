import LiquidityBook.Command.Run
import LiquidityBook.Command.Verb
import LiquidityBook.Settings.Load

/-! Command lines: the command, the file with settings for it, and how a run ends. -/
namespace LiquidityBook

/-- A command and the file with settings for it. -/
structure Invocation where
  file : Option String
  command : Command

namespace Invocation

open Command

def fileOption : OptionForm := .single "config" readPath?

/-- The rest of a command line behind the command's name. A file named here goes before one named
in front of the command. -/
def ofCommand (file : Option String) (v : Verb) (args : List String) : Except Stop Invocation := do
  let g ← Given.ofArguments { v.form with options := fileOption :: v.form.options } args
  match v.read g, Given.optional readPath? "config" g with
  | some command, some own => return ⟨own.or file, command⟩
  | _, _ => throw .usage

/-- The command line from where the command's name may stand. -/
def read (file : Option String) : List String → Except Stop Invocation
  | [] => .error .usage
  | arg :: args =>
    if arg = "--config" then
      match args with
      | value :: args =>
        if file.isSome || Given.looksLikeOption value || value.isEmpty then .error .usage
        else read (some value) args
      | [] => .error .usage
    else if arg.startsWith "--config=" then
      let value := String.ofList (arg.toList.drop "--config=".length)
      if file.isSome || value.isEmpty then .error .usage else read (some value) args
    else if arg = "--version" || arg.startsWith "-V" then .error .version
    else if arg = "--help" || arg.startsWith "-h" then .error .help
    else if arg = "help" then
      match args with
      | [] => .error .help
      | [name] =>
        .error (if name = "help" || verbs.any (·.name == name) then .help else .usage)
      | _ => .error .usage
    else
      match verbs.find? (·.name == arg) with
      | some v => ofCommand file v args
      | none => .error .usage

def ofArguments (args : List String) : Except Stop Invocation := read none args

/-- Carries a command out, with the contents of its file, the environment and the clock. -/
def run (i : Invocation) (file : UserFile) (env : List (String × String)) (now : Int) (checked : Bool) :
    Except CommandError String := do
  let settings ← (Settings.load Settings.envPrefix file env).mapError .settings
  let context ← (Context.ofSettings settings now checked).mapError .settings
  i.command.run context

end Invocation

/-- How a run of the program ends. -/
inductive Outcome where
  | printed (text : String)
  | failed (cause : CommandError)
  | misused
deriving DecidableEq

namespace Outcome

def exitCode : Outcome → Nat
  | printed _ => 0
  | failed .overflow => 101
  | failed _ => 1
  | misused => 2

def helpText : String :=
  "Usage: lbctl [--config <FILE>] <COMMAND>\n\nCommands:\n" ++
    String.join (Command.verbs.map fun v => "  " ++ v.name ++ "\n")

def versionText : String := "lbctl 0.1.0\n"

def ofStop : Command.Stop → Outcome
  | .usage => misused
  | .help => printed helpText
  | .version => printed versionText

def ofAnswer : Except CommandError String → Outcome
  | .ok text => printed (text ++ "\n")
  | .error cause => failed cause

end Outcome

end LiquidityBook
