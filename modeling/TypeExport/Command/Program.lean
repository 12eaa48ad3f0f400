import TypeExport.Command.Arguments
import TypeExport.Command.Run

/-!
# The program

`Program.run` is the program on a file system: from the arguments of a command line to what is printed.
-/

namespace TypeExport.Program

/-- What a run of the program leaves behind. -/
structure Outcome where
  exitCode : Nat := 0
  output : String := ""
  errors : String := ""
  deriving DecidableEq, Repr

/-- The lines as a text. -/
def text (lines : List String) : String := String.join (lines.map (· ++ "\n"))

def versionText : String := "dtogen 0.1.0\n"

def helpText : String := text
  ["Generate TypeScript declarations from a model of declared types",
   "",
   "Usage: dtogen [OPTIONS] <COMMAND>",
   "",
   "Commands:",
   "  generate  Generate the modules of a namespace",
   "  discover  List the types and files that would be generated",
   "  help      Print this text",
   "",
   "Options of all commands:",
   "  -v, --verbose            Accepted for more messages",
   "  -h, --help               Print this text",
   "  -V, --version            Print the version (before a command only)",
   "  -c, --config <PATH>      The configuration file [default: dtogen.toml]",
   "      --schema <PATH>      A JSON or TOML file with the model",
   "  -s, --src <PATH>         A directory of Rust source files with the model",
   "  -n, --namespace <NAME>   The namespace to export",
   "      --nested-namespaces  Also export the namespaces below it",
   "",
   "Options of generate:",
   "  -o, --output <PATH>      The directory of the modules",
   "      --barrel <NAME>      The name of the module that exports all others"]

/-- The outcome of a command. -/
def Outcome.ofResult (r : RunResult) : Outcome :=
  match r.fault with
  | none => { output := text r.lines }
  | some fault => { exitCode := 1, output := text r.lines, errors := fault.report }

/-- Runs the program with the arguments of a command line. -/
def run {m : Type → Type} [Monad m] (files : FileAccess m) (env : Placeholder.Environment)
    (arguments : List String) : m Outcome := do
  match Request.ofArguments arguments with
  | .error fault => return { exitCode := 2, errors := "error: " ++ fault.message ++ "\n" }
  | .ok .help => return { output := helpText }
  | .ok .version => return { output := versionText }
  | .ok (.run command) => return .ofResult (← command.run files env)

end TypeExport.Program
