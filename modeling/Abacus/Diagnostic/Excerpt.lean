import Abacus.Error

/-!
# Excerpts

An excerpt shows the lines that a label lies on, with one line above and one line below. Here a line
end is a line feed, a carriage return, or the two together; an excerpt is cut at line ends only.
-/

namespace Abacus

/-- The line ends of a text that starts at an offset, behind those already seen, latest first. -/
def lineEndsFrom (offset : Nat) (seen : List Span) : List Char → List Span
  | [] => seen.reverse
  | '\r' :: '\n' :: cs => lineEndsFrom (offset + 2) (⟨offset, offset + 2⟩ :: seen) cs
  | c :: cs =>
    let next := offset + c.utf8Size
    if c = '\n' ∨ c = '\r' then lineEndsFrom next (⟨offset, next⟩ :: seen) cs
    else lineEndsFrom next seen cs

/-- A text prepared for showing parts of it. -/
structure Manuscript where
  name : String
  text : List Char
  size : Nat
  /-- The spans of the line ends, in order. -/
  lineEnds : List Span

/-- A named text with its line ends. -/
def Manuscript.of (name source : String) : Manuscript :=
  ⟨name, source.toList, source.utf8ByteSize, lineEndsFrom 0 [] source.toList⟩

/-- Some full lines of a text. -/
structure Excerpt where
  /-- The bytes of the excerpt. -/
  span : Span
  /-- The number of lines above the excerpt. -/
  linesAbove : Nat
  /-- The number of line ends up to the end of the excerpt. -/
  lineEndsSeen : Nat

namespace Manuscript

/-- The line ends that lie in front of an offset. -/
def endsBefore (m : Manuscript) (offset : Nat) : List Span :=
  m.lineEnds.filter (·.stop ≤ offset)

/-- The last byte of a label; a label without bytes ends on the byte before it. -/
def lastByte (label : Label) : Nat := label.offset + label.length - 1

/-- The lines around a label, unless the label reaches beyond the text. -/
def excerpt? (m : Manuscript) (label : Label) : Option Excerpt :=
  if m.size < lastByte label then none
  else
    let linesAbove := (m.endsBefore label.offset).length - 1
    let start := ((0 :: m.lineEnds.map (·.stop))[linesAbove]?).getD 0
    let behind := m.lineEnds.filter (lastByte label < ·.start)
    let stop := (behind[1]?.map (·.stop)).getD m.size
    some ⟨⟨start, stop⟩, linesAbove, (m.endsBefore stop).length⟩

/-- Line and column of an offset, both counted from zero; columns count bytes. -/
def place (m : Manuscript) (offset : Nat) : Nat × Nat :=
  let ends := m.endsBefore offset
  let lineStart := (ends.getLast?.map (·.stop)).getD 0
  let cutEnds := m.lineEnds.filter fun e => e.start < offset && offset < e.stop
  (ends.length, min offset m.size - lineStart - cutEnds.length)

end Manuscript

/-- A line as it is shown. -/
structure ShownLine where
  number : Nat
  /-- The bytes of the line with its line end. -/
  span : Span
  text : List Char

/-- The lines of a text that starts at an offset, behind `number` lines and the characters `begun`
of a line, latest first, that started at `start`. A carriage return alone stays in the line here; as
the very last character it also keeps the line from being counted. -/
def shownLines (number start offset : Nat) (begun : List Char) : List Char → List ShownLine
  | [] =>
    match begun with
    | [] => []
    | last :: _ =>
      [⟨if last = '\r' then number else number + 1, ⟨start, offset⟩, begun.reverse⟩]
  | '\r' :: '\n' :: cs =>
    ⟨number + 1, ⟨start, offset + 2⟩, begun.reverse⟩ ::
      shownLines (number + 1) (offset + 2) (offset + 2) [] cs
  | c :: cs =>
    let next := offset + c.utf8Size
    if c = '\n' then
      ⟨number + 1, ⟨start, next⟩, begun.reverse⟩ :: shownLines (number + 1) next next [] cs
    else shownLines number start next (c :: begun) cs

/-- A text without its first bytes. -/
def dropBytes (bytes : Nat) : List Char → List Char
  | [] => []
  | c :: cs => if bytes = 0 then c :: cs else dropBytes (bytes - c.utf8Size) cs

/-- The first bytes of a text, behind those already taken, latest first. -/
def takeBytes (bytes : Nat) (taken : List Char) : List Char → List Char
  | [] => taken.reverse
  | c :: cs => if bytes = 0 then taken.reverse else takeBytes (bytes - c.utf8Size) (c :: taken) cs

/-- The lines of an excerpt. -/
def Manuscript.lines (m : Manuscript) (x : Excerpt) : List ShownLine :=
  shownLines x.linesAbove x.span.start x.span.start []
    (takeBytes x.span.length [] (dropBytes x.span.start m.text))

end Abacus
