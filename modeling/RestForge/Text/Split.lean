import RestForge.Text.CodeRuns

/-!
# Cutting text

* `splitChars`, `split`: the pieces between the occurrences of one character; there is always at
  least one piece.
* `isBlank`, `trim`: the white space of the character standard and its removal from both ends.
* `trimEndWhere`, `trimEndSpaces`: removal of characters, of plain spaces, from the end.
* `lines`: the lines of a text, where a final line break ends the last line and opens no new one.
-/

set_option autoImplicit false

namespace RestForge.Text

/-! ## Pieces between separators -/

def splitChars (sep : Char) : List Char → List (List Char)
  | [] => [[]]
  | c :: cs =>
    if c = sep then [] :: splitChars sep cs
    else
      match splitChars sep cs with
      | [] => [[c]]
      | piece :: pieces => (c :: piece) :: pieces

def split (sep : Char) (s : String) : List String :=
  (splitChars sep s.toList).map String.ofList

/-- The last piece of a text cut at `sep`. -/
def lastPiece (sep : Char) (s : String) : String :=
  (split sep s).getLastD ""

/-! ## White space -/

def blankRanges : List (Nat × Nat) :=
  [(0x0009, 0x000D), (0x0020, 0x0020), (0x0085, 0x0085), (0x00A0, 0x00A0), (0x1680, 0x1680),
    (0x2000, 0x200A), (0x2028, 0x2029), (0x202F, 0x202F), (0x205F, 0x205F), (0x3000, 0x3000)]

def isBlank (c : Char) : Bool := inRanges blankRanges c.toNat

def dropEndWhile (p : Char → Bool) (cs : List Char) : List Char :=
  (cs.reverse.dropWhile p).reverse

def trimWhere (p : Char → Bool) (s : String) : String :=
  String.ofList (dropEndWhile p (s.toList.dropWhile p))

def trim (s : String) : String := trimWhere isBlank s

def trimEndWhere (p : Char → Bool) (s : String) : String := String.ofList (dropEndWhile p s.toList)

def trimEndSpaces (s : String) : String := trimEndWhere (· == ' ') s

/-! ## Lines -/

def lines (s : String) : List String :=
  let pieces := split '\n' s
  if pieces.getLast? = some "" then pieces.dropLast else pieces

end RestForge.Text
