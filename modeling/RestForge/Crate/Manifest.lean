import RestForge.Text.Quoted

/-!
# The manifest of the generated crate

* `Crate.isName`: names that a crate may have.
* `Crate.manifest`: the text of the manifest.

The runtime library is taken from a path where one is given, and by its version otherwise. The empty
workspace at the end lets the crate build on its own inside another workspace.
-/

set_option autoImplicit false

namespace RestForge.Crate

/-! ## Names -/

def isNameChar (c : Char) : Bool := c.isAlphanum || c == '-' || c == '_'

/-- A letter, then letters, digits, hyphens and underscores. -/
def isName (name : String) : Bool :=
  match name.toList with
  | [] => false
  | c :: cs => c.isAlpha && cs.all isNameChar

/-! ## Text -/

/-- The version of the runtime library that generated code is written for. -/
def runtimeVersion : String := "0.1"

/-- What stands for the runtime library among the dependencies. -/
def runtimeSource (runtimePath : Option String) : String :=
  match runtimePath with
  | some path => "\x7b path = " ++ Text.quote path ++ " \x7d"
  | none => "\"" ++ runtimeVersion ++ "\""

def manifestLines (name : String) (runtimePath : Option String) : List String :=
  ["# This file was automatically generated by stencil-gen. Do not edit manually.",
    "",
    "[package]",
    "name = \"" ++ name ++ "\"",
    "version = \"0.1.0\"",
    "edition = \"2024\"",
    "publish = false",
    "",
    "[dependencies]",
    "serde = \x7b version = \"1.0\", features = [\"derive\"] \x7d",
    "stencil = " ++ runtimeSource runtimePath,
    "",
    "[workspace]"]

def manifest (name : String) (runtimePath : Option String) : String :=
  String.join ((manifestLines name runtimePath).map (· ++ "\n"))

end RestForge.Crate
