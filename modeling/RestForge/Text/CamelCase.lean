import RestForge.Text.Letters

/-!
# Words and their camel case

A text falls into words at every character that is neither letter nor digit, and inside such a piece
where a small letter meets a capital one and before the last capital of a run of capitals that a
small letter follows.

* `Casing`: the case of the word so far.
* `words`: the words of a text.
* `capitalize`: the first letter in capital form and the others in small form.
* `camelCase`: the capitalized words, written together.
-/

set_option autoImplicit false

namespace RestForge.Text

/-- Case of the last cased character of the word under construction. -/
inductive Casing where
  | uncased
  | small
  | capital
  deriving Repr, DecidableEq

def Casing.step (casing : Casing) (c : Char) : Casing :=
  if isLowercase c then .small
  else if isUppercase c then .capital
  else casing

/-- Cuts one piece of letters and digits; `word` holds the current word, last character first. -/
def humps (casing : Casing) (word : List Char) : List Char → List (List Char)
  | [] => []
  | [c] => [(c :: word).reverse]
  | c :: next :: rest =>
    let following := casing.step c
    if following = .small && isUppercase next then
      (c :: word).reverse :: humps .uncased [] (next :: rest)
    else if casing = .capital && isUppercase c && isLowercase next then
      word.reverse :: humps .uncased [c] (next :: rest)
    else
      humps following (c :: word) (next :: rest)

/-- The maximal runs of letters and digits. -/
def alphanumericPieces : List Char → List (List Char)
  | [] => [[]]
  | c :: cs =>
    if isAlphanumeric c then
      match alphanumericPieces cs with
      | [] => [[c]]
      | piece :: pieces => (c :: piece) :: pieces
    else [] :: alphanumericPieces cs

def words (cs : List Char) : List (List Char) :=
  (alphanumericPieces cs).flatMap (humps .uncased [])

/-- A capital sigma at the end of a word has a small form of its own. -/
def lowercaseWord : List Char → List Char
  | [] => []
  | [c] => if c = 'Σ' then ['ς'] else toLowercase c
  | c :: next :: rest => toLowercase c ++ lowercaseWord (next :: rest)

def capitalize : List Char → List Char
  | [] => []
  | c :: cs => toUppercase c ++ lowercaseWord cs

def camelCase (s : String) : String :=
  String.ofList ((words s.toList).flatMap capitalize)

end RestForge.Text
