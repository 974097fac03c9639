import RestForge.Text.Quoted

/-!
# Tokens of generated source

* `Token`: a word, a mark, a literal, or a group between delimiters.
* `Token.flat`: the words of a token sequence with the groups opened up, and `flatText`, the same
  with one space between them.
* Short ways to write the marks that generated code uses.
-/

set_option autoImplicit false

namespace RestForge.Source

inductive Delimiter where
  | paren
  | bracket
  | brace
  deriving Repr, DecidableEq

namespace Delimiter

def opening : Delimiter → String
  | paren => "("
  | bracket => "["
  | brace => "\x7b"

def closing : Delimiter → String
  | paren => ")"
  | bracket => "]"
  | brace => "\x7d"

end Delimiter

/-- A joint mark belongs together with the mark behind it. -/
inductive Token where
  | word (s : String)
  | mark (c : Char) (joint : Bool)
  | literal (s : String)
  | group (d : Delimiter) (body : List Token)
  deriving Repr

/-! ## Flat form -/

mutual

def Token.flat : Token → List String
  | .word s => [s]
  | .mark c _ => [String.singleton c]
  | .literal s => [s]
  | .group d body => d.opening :: flatAll body ++ [d.closing]

def flatAll : List Token → List String
  | [] => []
  | t :: ts => t.flat ++ flatAll ts

end

def flatText (ts : List Token) : String := String.intercalate " " (flatAll ts)

/-! ## Writing tokens -/

def word (s : String) : List Token := [.word s]

def mark (c : Char) : List Token := [.mark c false]

def text (s : String) : List Token := [.literal (Text.literal s)]

/-- A mark of several characters. -/
def marks : List Char → List Token
  | [] => []
  | [c] => [.mark c false]
  | c :: cs => .mark c true :: marks cs

def colons : List Token := marks [':', ':']

def parens (body : List Token) : List Token := [.group .paren body]

def brackets (body : List Token) : List Token := [.group .bracket body]

def braces (body : List Token) : List Token := [.group .brace body]

/-- Parts with a comma between them, and one behind the last if asked for. -/
def commaSeparated (trailing : Bool) (parts : List (List Token)) : List Token :=
  match parts with
  | [] => []
  | _ => List.intercalate (mark ',') parts ++ (if trailing then mark ',' else [])

end RestForge.Source
