/-!
# Breaking text into lines

A document is text with breaks in nested groups. A group whose text fits on the rest of the line is
written without line breaks. In a group that does not fit, every break ends the line if the group is
consistent; if it is not, a break ends the line only if what follows up to the next break does not
fit.

* `Break`: width when it does not end the line, indentation and extra characters when it does.
* `Doc`: text, breaks and groups; `box` and `limited` build groups.
* `Doc.width`, `reach`: how far text goes on before the next break.
* `render`: the lines.
-/

set_option autoImplicit false

namespace RestForge.Source

/-! ## Documents -/

structure Break where
  /-- Added to the indentation of the group. -/
  offset : Int
  /-- Spaces written if the line goes on. -/
  blank : Nat
  /-- Written before the line ends. -/
  before : String
  /-- Written at the start of the next line. -/
  after : String
  /-- Written if the line goes on. -/
  inLine : String
  /-- Writes nothing as the last part of its group. -/
  ifNonempty : Bool
  /-- Writes nothing where the line is too long already. -/
  ifRoom : Bool
  /-- Never ends the line. -/
  never : Bool
  deriving Repr, DecidableEq

inductive Doc where
  | text (s : String)
  | brk (b : Break)
  | group (consistent : Bool) (indent : Int) (parts : List Doc)
  | wide
  deriving Repr

/-- Wider than any line. -/
def unfitting : Nat := 0xffff

namespace Break

def spaces (n : Nat) : Break := ⟨0, n, "", "", "", false, false, false⟩

/-- No width. -/
def zero : Break := spaces 0

/-- One space. -/
def space : Break := spaces 1

/-- Ends the line wherever it stands. -/
def hard : Break := spaces unfitting

/-- Only ends the measuring of what stands before it. -/
def measure : Break := { zero with never := true }

end Break

namespace Doc

def str (s : String) : List Doc := [text s]

def zb : List Doc := [brk .zero]

def sp : List Doc := [brk .space]

def hb : List Doc := [brk .hard]

def hbIfNonempty : List Doc := [brk { Break.hard with ifNonempty := true }]

def spIfNonempty : List Doc := [brk { Break.space with ifNonempty := true }]

def measured : List Doc := [brk .measure]

/-- Moves the last break by `n` columns. -/
def shift (n : Int) : List Doc → List Doc
  | [] => []
  | [brk b] => [brk { b with offset := b.offset + n }]
  | d :: ds => d :: shift n ds

/-- A last break that wants something behind it writes nothing; it still ends the measuring. -/
def closed : List Doc → List Doc
  | [] => []
  | [brk b] => if b.ifNonempty then [brk .measure] else [brk b]
  | d :: ds => d :: closed ds

/-- A last break that wants something behind it stays as long as there is room in the line. -/
def heldOpen : List Doc → List Doc
  | [] => []
  | [brk b] => [brk { b with ifRoom := b.ifNonempty }]
  | d :: ds => d :: heldOpen ds

/-- A group; nothing is left of one that holds only a break. -/
def box (consistent : Bool) (indent : Int) (parts : List Doc) : List Doc :=
  match parts with
  | [brk _] => []
  | _ => [group consistent indent (closed parts)]

def cbox (indent : Int) (parts : List Doc) : List Doc := box true indent parts

def ibox (indent : Int) (parts : List Doc) : List Doc := box false indent parts

/-! ## Measuring -/

mutual

/-- Columns when written without line breaks. -/
def width : Doc → Nat
  | text s => s.utf8ByteSize
  | brk b => b.blank
  | group _ _ parts => widthAll parts
  | wide => unfitting

def widthAll : List Doc → Nat
  | [] => 0
  | d :: ds => d.width + widthAll ds

end

/-- Columns up to the next break on this level; `rest` is what follows behind the group. -/
def reach : List Doc → Nat → Nat
  | [], rest => rest
  | text s :: ds, rest => s.utf8ByteSize + reach ds rest
  | brk _ :: _, _ => 0
  | group _ _ parts :: ds, rest => widthAll parts + reach ds rest
  | wide :: ds, rest => unfitting + reach ds rest

/-- A consistent group that does not fit if its text is wider than `most`. -/
def limited (most : Nat) (indent : Int) (parts : List Doc) : List Doc :=
  cbox indent (if most < widthAll parts then heldOpen parts ++ [wide] else parts)

end Doc

/-! ## Writing -/

/-- Columns of a line. -/
def margin : Int := 89

/-- Columns that are left on a line however deep it is indented. -/
def leastSpace : Int := 60

/-- What has been written: the text, the columns left, and spaces due before more text. -/
structure Pen where
  out : String
  space : Int
  pending : Nat
  deriving Repr

namespace Pen

def write (p : Pen) (s : String) : Pen :=
  { out := p.out ++ String.ofList (List.replicate p.pending ' ') ++ s
    space := p.space - s.utf8ByteSize
    pending := 0 }

/-- Goes on in the line. -/
def goOn (p : Pen) (b : Break) : Pen :=
  { out := p.out ++ b.inLine
    space := p.space - b.blank - b.inLine.utf8ByteSize
    pending := p.pending + b.blank }

/-- Ends the line. -/
def endLine (p : Pen) (b : Break) (indent : Int) : Pen :=
  let p := if b.before.isEmpty then p else p.write b.before
  let column := indent + b.offset
  let p : Pen := ⟨p.out ++ "\n", max (margin - column) leastSpace, column.toNat⟩
  if b.after.isEmpty then p else p.write b.after

end Pen

/-- How the breaks of a group behave. -/
inductive Mode where
  | fits
  | consistent
  | inconsistent
  deriving Repr, DecidableEq

def Mode.goesOn (m : Mode) (b : Break) (size : Nat) (space : Int) : Bool :=
  b.never ||
    match m with
    | fits => true
    | consistent => false
    | inconsistent => (size : Int) ≤ space

mutual

/-- Writes one part; `rest` is the reach of what follows it. -/
def writeDoc (mode : Mode) (indent : Int) (rest : Nat) (pen : Pen) : Doc → Pen
  | .text s => pen.write s
  | .brk b =>
    if b.ifRoom && pen.space < 0 then pen
    else if mode.goesOn b (b.blank + rest) pen.space then pen.goOn b
    else pen.endLine b indent
  | .group consistent shift parts =>
    if pen.space < Doc.widthAll parts + rest then
      writeDocs (if consistent then .consistent else .inconsistent) (indent + shift) rest pen parts
    else writeDocs .fits indent rest pen parts
  | .wide => pen

def writeDocs (mode : Mode) (indent : Int) (rest : Nat) (pen : Pen) : List Doc → Pen
  | [] => pen
  | d :: ds => writeDocs mode indent rest (writeDoc mode indent (Doc.reach ds rest) pen d) ds

end

def render (docs : List Doc) : String :=
  (writeDocs .inconsistent 0 0 ⟨"", margin, 0⟩ docs).out

end RestForge.Source
