import Abacus.Error

/-!
# Positions

A position is a line and a column, both counted from one. Lines end with a line feed, and columns
count characters. The position of a byte offset is behind all characters that start before it.

An error is shown to the reader by a handler of reports, which may draw it over several lines; where
the handler fails, one line with the position and the message takes the place of the report.
-/

namespace Abacus

/-- A place in a text: line and column, counted from one. -/
structure Position where
  line : Nat
  column : Nat
  deriving DecidableEq

namespace Position

/-- The first position of a text. -/
def start : Position := ⟨1, 1⟩

/-- The position behind a character. -/
def advance (p : Position) (c : Char) : Position :=
  if c = '\n' then ⟨p.line + 1, 1⟩ else ⟨p.line, p.column + 1⟩

/-- The position behind those characters of a text at `p` that start within `offset` bytes. -/
def after (p : Position) (offset : Nat) : List Char → Position
  | [] => p
  | c :: cs => if offset = 0 then p else (p.advance c).after (offset - c.utf8Size) cs

/-- The position of a byte offset in a text. -/
def ofOffset (source : String) (offset : Nat) : Position := start.after offset source.toList

end Position

/-- An error on one line: the name of the text, the position and the message. -/
def Error.summary (e : Error) (name source : String) : String :=
  let position := Position.ofOffset source e.span.start
  name ++ ":" ++ position.line.repr ++ ":" ++ position.column.repr ++ ": " ++ e.message

/-- A way to draw errors for a reader. -/
structure ReportHandler where
  /-- The report of an error in a named text, unless it cannot be drawn. -/
  draw? : Error → (name source : String) → Option String

/-- What a reader sees of an error in a named text. -/
def Error.rendered (e : Error) (handler : ReportHandler) (name source : String) : String :=
  (handler.draw? e name source).getD (e.summary name source)

end Abacus
