import RestForge.CommandLine.Options
import RestForge.Run.Generate

/-!
# The program

* `Answer`: what a call of the program shows, and its exit code.
* `program`: what a call with given arguments does on a tree of files.
* `call?`: a call, if it can be made with these arguments at all.

The exit code is 0 for a run that went well, 1 for one that failed, 2 for arguments that cannot be
used, and 101 where a type name is illegal.
-/

set_option autoImplicit false

namespace RestForge.CommandLine

structure Answer where
  exitCode : Nat
  /-- Shown to the reader of the output. -/
  output : String
  /-- Shown apart from the output. -/
  errors : String
  deriving Repr, DecidableEq

def unlines (ls : List String) : String := String.join (ls.map (· ++ "\n"))

def usageLine : String := "Usage: stencil-gen [OPTIONS] --schemas <SCHEMAS>"

def helpText : String :=
  unlines
    ["Schema-driven generator for typed REST resource clients, models, validators and smoke tests",
      "",
      usageLine,
      "",
      "Options:",
      "  -s, --schemas <SCHEMAS>            Directory containing the schema files",
      "  -o, --output <OUTPUT>              Root of the generated crate [default: stencil/api]",
      "      --max-depth <MAX_DEPTH>        Deepest allowed child table nesting [default: 4]",
      "  -j, --jobs <JOBS>                  Worker threads (default: one per core)",
      "      --crate-name <CRATE_NAME>      Package name of the generated crate [default: stencil-api]",
      "      --runtime-path <RUNTIME_PATH>  Path of the stencil runtime, used as a path dependency in the generated manifest",
      "      --report <REPORT>              Write a JSON run report to this file",
      "      --clean                        Remove previously generated sources first",
      "      --dry-run                      Generate and validate without writing files",
      "  -v, --verbose...                   Increase verbosity (-v, -vv, -vvv)",
      "      --log-json                     Emit logs as JSON",
      "  -h, --help                         Print help",
      "  -V, --version                      Print version"]

def versionText : String := "stencil-gen 0.1.0\n"

def Ending.answer : Ending → Answer
  | help => ⟨0, helpText, ""⟩
  | version => ⟨0, versionText, ""⟩
  | refused e =>
    ⟨2, "", unlines ["error: " ++ e.text, "", usageLine, "", "For more information, try '--help'."]⟩

def failureCode : Run.Failure → Nat
  | .illegalName _ => 101
  | _ => 1

def failureText (f : Run.Failure) : String :=
  match f with
  | .illegalName _ => f.message ++ "\n"
  | _ => "Error: " ++ f.detail ++ "\n"

/-- A run, and the tree that it leaves. -/
def runAnswer (config : Run.Config) (tree : FileTree) : Answer × FileTree :=
  match Run.run config ⟨tree, ""⟩ with
  | (.ok _, w) => (⟨0, w.shown, ""⟩, w.tree)
  | (.error f, w) => (⟨failureCode f, w.shown, failureText f⟩, w.tree)

def program (arguments : List String) (tree : FileTree) : Answer × FileTree :=
  match readConfig arguments with
  | .ok config => runAnswer config tree
  | .error ending => (ending.answer, tree)

/-- An argument ends at the first NUL, so none can hold one. -/
def isArgument (argument : String) : Bool := !argument.toList.contains '\x00'

def call? (arguments : List String) (tree : FileTree) : Option (Answer × FileTree) :=
  if arguments.all isArgument then some (program arguments tree) else none

end RestForge.CommandLine
