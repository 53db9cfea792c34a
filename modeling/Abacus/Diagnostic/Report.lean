import Abacus.Diagnostic.Excerpt
import Abacus.Diagnostic.Position
import Abacus.Text.Padded
import Abacus.Text.Width

/-!
# Reports

A report shows an error on several lines: its code, its message, the part of the text around its
labels with each label drawn below its line, and the advice. Lines are drawn at their full length,
however long, and a label belongs to the line on which it starts.
-/

namespace Abacus

open Text (spaces padStart padEnd)

/-- A character of a shown line with its byte offset in the line and its columns. -/
structure Cell where
  char : Char
  offset : Nat
  width : Nat

/-- What has been laid out of a line. -/
structure Row where
  /-- The cells so far, latest first. -/
  cells : List Cell := []
  offset : Nat := 0
  column : Nat := 0
  /-- Whether a control sequence for the terminal is under way. -/
  inSequence : Bool := false

/-- Adds a character to a line. A tab reaches to the next multiple of four columns, and a control
sequence, from an escape character to the next `m`, takes none. -/
def Row.push (row : Row) (c : Char) : Row :=
  let width :=
    if row.inSequence then 0
    else if c = '\t' then 4 - row.column % 4
    else Text.width c
  { cells := ⟨c, row.offset, width⟩ :: row.cells
    offset := row.offset + c.utf8Size
    column := row.column + width
    inSequence := if row.inSequence then c ≠ 'm' else c = '\x1b' }

/-- A line laid out in cells. -/
def layOut (text : List Char) : Row := text.foldl Row.push {}

namespace Row

/-- The row as text, tabs as spaces. -/
def text (row : Row) : String :=
  String.join (row.cells.reverse.map fun cell =>
    if cell.char = '\t' then spaces cell.width else String.singleton cell.char)

/-- The columns of the characters that satisfy a condition on their first byte and the byte behind
them. -/
def columns (row : Row) (p : Nat → Nat → Bool) : Nat :=
  (row.cells.filter fun cell => p cell.offset (cell.offset + cell.char.utf8Size)).foldl
    (fun total cell => total + cell.width) 0

/-- One more column for an offset behind the row. -/
def beyond (row : Row) (offset : Nat) : Nat := if row.offset < offset then 1 else 0

/-- The column at which a label starts: behind all characters that end by then. -/
def startColumn (row : Row) (offset : Nat) : Nat :=
  row.columns (fun _ stop => stop ≤ offset) + row.beyond offset

/-- The column at which a label ends: behind all characters that start before its end. -/
def stopColumn (row : Row) (offset : Nat) : Nat :=
  row.columns (fun start _ => start < offset) + row.beyond offset

end Row

/-- A label on its line: its columns, and the column of the mark that leads to its text. -/
structure Mark where
  label : Label
  start : Nat
  stop : Nat

/-- The column from which the text of a label hangs. -/
def Mark.bar (m : Mark) : Nat := (m.start + m.stop) / 2

/-- A label on a row whose line starts at an offset, not before the column `first`. -/
def Mark.of (row : Row) (lineStart first : Nat) (label : Label) : Mark :=
  let start := max (row.startColumn (label.offset - lineStart)) first
  let stop :=
    if label.length = 0 then start + 1
    else max (row.stopColumn (label.offset + label.length - lineStart)) (start + 1)
  ⟨label, start, stop⟩

/-- Labels on a row from left to right, none before the column `first` or on an earlier one. -/
def Mark.ofLabels (row : Row) (lineStart first : Nat) : List Label → List Mark
  | [] => []
  | label :: rest =>
    let mark := Mark.of row lineStart first label
    mark :: ofLabels row lineStart (max first mark.stop) rest

/-- A number of horizontal strokes. -/
def strokes (n : Nat) : String := String.ofList (List.replicate n '─')

/-- The line below a row: a stroke under every label, with a mark from which its text hangs. -/
def underline (first : Nat) : List Mark → String
  | [] => ""
  | m :: rest =>
    spaces (m.start - first) ++ strokes (m.bar - m.start) ++
      (if m.label.length = 0 then "▲" else "┬") ++ strokes (m.stop - m.bar - 1) ++
      underline (max first m.stop) rest

/-- The line with the text of a mark, below the bars of the marks to its left. -/
def hanging (left : List Mark) (m : Mark) : String :=
  let bars := left.foldl (fun row other => padEnd other.bar row ++ "│") ""
  padEnd m.bar bars ++ "╰── " ++ m.label.text

/-- The lines with the texts of marks, given from right to left: each hangs from its mark, and the
rightmost comes first. -/
def hangings : List Mark → List String
  | [] => []
  | m :: left => hanging left.reverse m :: hangings left

/-- A line with the labels drawn below it, `width` being that of the line numbers. -/
def drawLine (width : Nat) (labels : List Label) (line : ShownLine) : String :=
  let row := layOut line.text
  let shown := " " ++ padStart width line.number.repr ++ " │ " ++ row.text ++ "\n"
  let here := labels.filter fun l => line.span.start ≤ l.offset && l.offset < line.span.stop
  if here.isEmpty then shown
  else
    let marks := Mark.ofLabels row line.span.start 0 here
    let below := underline 0 marks :: hangings marks.reverse
    shown ++ String.join (below.map fun text => spaces (width + 2) ++ "· " ++ text ++ "\n")

/-- An excerpt with its labels: the place of its first label, the lines, and a closing stroke. -/
def drawExcerpt (m : Manuscript) (labels : List Label) (around : Label × Excerpt) : String :=
  let (label, x) := around
  let lines := m.lines x
  let width := ((lines.getLast?.map ShownLine.number).getD 0).repr.length
  let first := (labels.find? fun l =>
    label.offset ≤ l.offset && l.offset + l.length ≤ label.offset + label.length).getD label
  let (row, column) := m.place first.offset
  spaces (width + 2) ++ "╭─[" ++ m.name ++ ":" ++ (row + 1).repr ++ ":" ++ (column + 1).repr ++
    "]\n" ++ String.join (lines.map (drawLine width labels)) ++ spaces (width + 2) ++ "╰────\n"

/-- A label that spans two labels, the first of which starts no later. -/
def Label.join (a b : Label) : Label :=
  ⟨a.text, a.offset, max (a.offset + a.length) (b.offset + b.length) - a.offset⟩

/-- Adds the excerpt of a label to those of the labels before it, latest first. An excerpt that
touches the latest one becomes one with it. -/
def Manuscript.addExcerpt (m : Manuscript) (excerpts : List (Label × Excerpt))
    (label : Label) (x : Excerpt) : List (Label × Excerpt) :=
  match excerpts with
  | [] => [(label, x)]
  | (previous, y) :: earlier =>
    if x.linesAbove ≤ y.linesAbove + y.lineEndsSeen then
      match m.excerpt? (previous.join label) with
      | some joined => (previous.join label, joined) :: earlier
      | none => (label, x) :: excerpts
    else (label, x) :: excerpts

/-- The excerpts for labels in order, behind those already made, latest first; or the label that
reaches beyond the text. -/
def Manuscript.excerpts (m : Manuscript) (made : List (Label × Excerpt)) :
    List Label → Except Label (List (Label × Excerpt))
  | [] => .ok made.reverse
  | label :: rest =>
    match m.excerpt? label with
    | none => .error label
    | some x => m.excerpts (m.addExcerpt made label x) rest

/-- What stands in place of the excerpts when a label reaches beyond the text. -/
def outOfBounds (label : Label) : String :=
  "  [Failed to read contents for label `" ++ label.text ++ "` (offset: " ++ label.offset.repr ++
    ", length: " ++ label.length.repr ++ "): OutOfBounds]\n"

/-- A line of a message without the spaces at its end. -/
def messageLine (line : List Char) : String :=
  String.ofList (line.reverse.dropWhile (· = ' ')).reverse

/-- A message line by line: the first line stands behind a cross and every other behind a bar. -/
def drawMessage (message : String) : String :=
  "  × " ++ "\n  │ ".intercalate ((message.toList.splitOn '\n').map messageLine) ++ "\n"

/-- The report of an error in a named text. -/
def Error.report (e : Error) (name source : String) : String :=
  let m := Manuscript.of name source
  let labels := e.labels.mergeSort fun a b => a.offset ≤ b.offset
  let body := match m.excerpts [] labels with
    | .ok excerpts => String.join (excerpts.map (drawExcerpt m labels))
    | .error label => outOfBounds label
  let help := match e.cause.help? with
    | some text => "  help: " ++ text ++ "\n"
    | none => ""
  e.cause.code ++ "\n\n" ++ drawMessage e.message ++ body ++ help

/-- The handler that draws reports with an excerpt of the text. -/
def ReportHandler.graphical : ReportHandler := ⟨fun e name source => some (e.report name source)⟩

end Abacus
