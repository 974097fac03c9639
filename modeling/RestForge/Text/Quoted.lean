import RestForge.Text.Unprintable

/-!
# Quoted text

Two ways to write a text between double quotes. Both put a backslash before a quote and a backslash,
write line feed, carriage return, tab and NUL by letters, and write any other character that has no
printed form or attaches to its neighbour as `\u{…}` with its code point in hexadecimal.

* `quote`: the form used in messages.
* `literal`: the form of a string literal in source code, where NUL before an octal digit is
  written out in two digits.
-/

set_option autoImplicit false

namespace RestForge.Text

def hexEscape (c : Char) : List Char :=
  ['\\', 'u', '{'] ++ Nat.toDigits 16 c.toNat ++ ['}']

def escapeChar (c : Char) : List Char :=
  if c = '"' then ['\\', '"']
  else if c = '\\' then ['\\', '\\']
  else if c = '\n' then ['\\', 'n']
  else if c = '\r' then ['\\', 'r']
  else if c = '\t' then ['\\', 't']
  else if c = '\x00' then ['\\', '0']
  else if isPrintable c && !isJoiningMark c then [c]
  else hexEscape c

def quote (s : String) : String :=
  String.ofList ('"' :: s.toList.flatMap escapeChar ++ ['"'])

def startsOctal : List Char → Bool
  | c :: _ => '0' ≤ c && c ≤ '7'
  | [] => false

def escapeLiteral : List Char → List Char
  | [] => []
  | c :: cs =>
    (if c = '\x00' && startsOctal cs then ['\\', 'x', '0', '0'] else escapeChar c)
      ++ escapeLiteral cs

def literal (s : String) : String :=
  String.ofList ('"' :: escapeLiteral s.toList ++ ['"'])

end RestForge.Text
