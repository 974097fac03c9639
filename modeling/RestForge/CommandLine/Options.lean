import RestForge.Run.Config
import RestForge.Text.Split

/-!
# Command-line options

* `Switch`, `Setting`: options that stand alone, and options with a value, with their spellings.
* `Word`: the forms that an argument can have.
* `Ending`: help or version asked for, or arguments that cannot be used.
* `Choices`: what has been read so far; `readConfig`: the configuration that all arguments give.

A value stands behind `=`, directly behind a short option, or in the next argument, which then does
not begin with a hyphen. Short options without a value may stand together. The first argument that
asks for help or cannot be used decides.
-/

set_option autoImplicit false

namespace RestForge.CommandLine

open Run (Config)

/-! ## Options by name -/

inductive Switch where
  | clean
  | dryRun
  | verbose
  | logJson
  | help
  | version
  deriving Repr, DecidableEq

namespace Switch

def all : List Switch := [clean, dryRun, verbose, logJson, help, version]

def long : Switch → String
  | clean => "clean"
  | dryRun => "dry-run"
  | verbose => "verbose"
  | logJson => "log-json"
  | help => "help"
  | version => "version"

def short? : Switch → Option Char
  | verbose => some 'v'
  | help => some 'h'
  | version => some 'V'
  | _ => none

def usage (s : Switch) : String := "--" ++ s.long

end Switch

inductive Setting where
  | schemas
  | output
  | maxDepth
  | jobs
  | crateName
  | runtimePath
  | report
  deriving Repr, DecidableEq

namespace Setting

def all : List Setting := [schemas, output, maxDepth, jobs, crateName, runtimePath, report]

def long : Setting → String
  | schemas => "schemas"
  | output => "output"
  | maxDepth => "max-depth"
  | jobs => "jobs"
  | crateName => "crate-name"
  | runtimePath => "runtime-path"
  | report => "report"

def short? : Setting → Option Char
  | schemas => some 's'
  | output => some 'o'
  | jobs => some 'j'
  | _ => none

/-- The word for the value in messages. -/
def valueName (s : Setting) : String :=
  String.ofList (s.long.toList.map fun c => if c = '-' then '_' else c.toUpper)

def usage (s : Setting) : String := s!"--{s.long} <{s.valueName}>"

end Setting

/-- An option of either kind. -/
inductive Choice where
  | switch (s : Switch)
  | setting (s : Setting)
  deriving Repr, DecidableEq

namespace Choice

def all : List Choice := Switch.all.map switch ++ Setting.all.map setting

def long : Choice → String
  | switch s => s.long
  | setting s => s.long

def short? : Choice → Option Char
  | switch s => s.short?
  | setting s => s.short?

def usage : Choice → String
  | switch s => s.usage
  | setting s => s.usage

def ofLong? (name : String) : Option Choice := all.find? fun o => o.long == name

def ofShort? (c : Char) : Option Choice := all.find? fun o => o.short? == some c

end Choice

/-! ## Endings -/

inductive UsageError where
  | unexpected (argument : String)
  | missingValue (s : Setting)
  | unneededValue (s : Switch) (value : String)
  | invalidValue (s : Setting) (value : String)
  | repeated (o : Choice)
  | noSchemas
  deriving Repr, DecidableEq

def UsageError.text : UsageError → String
  | unexpected argument => s!"unexpected argument '{argument}' found"
  | missingValue s => s!"a value is required for '{s.usage}' but none was supplied"
  | unneededValue s value =>
    s!"unexpected value '{value}' for '{s.usage}' found; no more were expected"
  | invalidValue s value => s!"invalid value '{value}' for '{s.usage}'"
  | repeated o => s!"the argument '{o.usage}' cannot be used multiple times"
  | noSchemas =>
    s!"the following required arguments were not provided:\n  {Setting.schemas.usage}"

inductive Ending where
  | help
  | version
  | refused (e : UsageError)
  deriving Repr, DecidableEq

/-! ## Forms of arguments -/

inductive Word where
  | plain
  | long (name : String) (value : Option String)
  | short (letters : List Char)
  /-- Nothing behind it is an option. -/
  | optionsEnd
  deriving Repr, DecidableEq

/-- The name of a long option, and its value behind the first `=`. -/
def longWord (cs : List Char) : Word :=
  let name := String.ofList (cs.takeWhile (· != '='))
  match cs.dropWhile (· != '=') with
  | [] => .long name none
  | _ :: value => .long name (some (String.ofList value))

def Word.ofArgument (argument : String) : Word :=
  match argument.toList with
  | ['-'] => .plain
  | ['-', '-'] => .optionsEnd
  | '-' :: '-' :: cs => longWord cs
  | '-' :: cs => .short cs
  | _ => .plain

/-! ## Values -/

/-- The least number that a count cannot reach. -/
def countLimit : Nat := 18446744073709551616

/-- Decimal digits, with a plus sign in front or without. -/
def readCount? (s : String) : Option Nat :=
  let digits := match s.toList with
    | '+' :: cs => cs
    | cs => cs
  if digits.isEmpty || !digits.all Char.isDigit then none
  else
    let n := digits.foldl (fun n c => 10 * n + (c.toNat - '0'.toNat)) 0
    if n < countLimit then some n else none

def readPath? (s : String) : Option String := if s.isEmpty then none else some s

/-- The configuration with a setting changed, if the setting can have the value. -/
def Setting.set? (s : Setting) (value : String) (c : Config) : Option Config :=
  match s with
  | schemas => (readPath? value).map fun p => { c with schemaRoot := p }
  | output => (readPath? value).map fun p => { c with outputRoot := p }
  | maxDepth => (readCount? value).map fun n => { c with maxDepth := n }
  | jobs => (readCount? value).map fun n => { c with jobs := some n }
  | crateName => some { c with crateName := value }
  | runtimePath => (readPath? value).map fun p => { c with runtimePath := some p }
  | report => (readPath? value).map fun p => { c with report := some p }

/-! ## Reading -/

/-- The options given so far and the configuration that they make. -/
structure Choices where
  given : List Choice
  config : Config
  deriving Repr, DecidableEq

namespace Choices

def none : Choices := ⟨[], .standard⟩

/-- Only the option for more messages may be given more than once. -/
def note (c : Choices) (o : Choice) : Except Ending Choices :=
  if c.given.contains o && o != .switch .verbose then .error (.refused (.repeated o))
  else .ok { c with given := o :: c.given }

/-- How much and in which form messages are logged has no bearing on a run. -/
def turnOn (c : Choices) (s : Switch) : Except Ending Choices :=
  match s with
  | .help => .error .help
  | .version => .error .version
  | .clean => ({ c with config.clean := true }).note (.switch s)
  | .dryRun => ({ c with config.dryRun := true }).note (.switch s)
  | .verbose => c.note (.switch s)
  | .logJson => c.note (.switch s)

def set (c : Choices) (s : Setting) (value : String) : Except Ending Choices := do
  let c ← c.note (.setting s)
  match s.set? value c.config with
  | some config => .ok { c with config }
  | .none => .error (.refused (.invalidValue s value))

/-- Reads short options that stand together; the last one may want its value from the next argument. -/
def readLetters (c : Choices) : List Char → Except Ending (Choices × Option Setting)
  | [] => .ok (c, .none)
  | letter :: letters =>
    match Choice.ofShort? letter with
    | .none => .error (.refused (.unexpected (String.ofList ['-', letter])))
    | some (.switch s) => do readLetters (← c.turnOn s) letters
    | some (.setting s) =>
      match letters with
      | [] => .ok (c, some s)
      | '=' :: value => do return (← c.set s (String.ofList value), .none)
      | value => do return (← c.set s (String.ofList value), .none)

def readLong (c : Choices) (argument name : String) (value : Option String) :
    Except Ending (Choices × Option Setting) :=
  match Choice.ofLong? name, value with
  | .none, _ => .error (.refused (.unexpected argument))
  | some (.switch s), .none => do return (← c.turnOn s, .none)
  | some (.switch s), some value => .error (.refused (.unneededValue s value))
  | some (.setting s), .none => .ok (c, some s)
  | some (.setting s), some value => do return (← c.set s value, .none)

/-- Reads one argument; the answer names a setting that takes the next argument as its value. -/
def readWord (c : Choices) (argument : String) : Except Ending (Choices × Option Setting) :=
  match Word.ofArgument argument with
  | .long name value => c.readLong argument name value
  | .short letters => c.readLetters letters
  | _ => .error (.refused (.unexpected argument))

/-- Reads the arguments; `wanting` waits for its value. -/
def read (c : Choices) (wanting : Option Setting) : List String → Except Ending Choices
  | [] =>
    match wanting with
    | .none => .ok c
    | some s => .error (.refused (.missingValue s))
  | argument :: rest =>
    match wanting, Word.ofArgument argument with
    | some s, .plain => do (← c.set s argument).read .none rest
    | some s, _ => .error (.refused (.missingValue s))
    | .none, .optionsEnd =>
      match rest with
      | [] => .ok c
      | next :: _ => .error (.refused (.unexpected next))
    | .none, _ => do
      let (c, wanting) ← c.readWord argument
      c.read wanting rest

end Choices

/-- The schema root has to be given. -/
def readConfig (arguments : List String) : Except Ending Config := do
  let c ← Choices.none.read .none arguments
  if c.given.contains (.setting .schemas) then return c.config
  else throw (.refused .noSchemas)

end RestForge.CommandLine
