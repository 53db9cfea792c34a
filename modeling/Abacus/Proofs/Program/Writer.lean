import Abacus.Program.Layout

/-!
# What the writer writes

The printers of programs drive a writer: they go in and out by levels and write a line in pieces.
Here their output is given without the writer. Pieces add up (`Writer.write_write`), so that a
statement is written as its source text. Between two nodes of an outline the writer is at the start
of a line and back at the level at which it began, whatever tree lies between them, so that an
outline is written as lines that each know their depth.
-/

namespace Abacus

open Text (IndentedLine Writer renderLines)

namespace Text.Writer

variable {w : Writer}

/-- Once a line has text, nothing but text is added to it. -/
theorem write_of_not_atLineStart (h : w.atLineStart = false) (text : String) :
    w.write text = { w with output := w.output ++ text } := by
  by_cases htext : text = ""
  · simp [write, htext]
  · simp [write, writeIndent, htext, h]

/-- Two pieces are written as one text. -/
theorem write_write (w : Writer) (first second : String) :
    (w.write first).write second = w.write (first ++ second) := by
  by_cases hfirst : first = ""
  · simp [write, hfirst]
  · have hline : (w.write first).atLineStart = false := by
      simp only [write, hfirst, if_false, writeIndent]
      split <;> simp_all
    rw [write_of_not_atLineStart hline]
    simp [write, hfirst, String.append_assoc]

/-- Pieces are written as one text. -/
theorem foldl_write (w : Writer) (pieces : List String) :
    pieces.foldl write w = w.write (String.join pieces) := by
  induction pieces generalizing w with
  | nil => simp [write]
  | cons piece pieces ih => rw [List.foldl_cons, ih, write_write, String.join_cons]

/-- A text on a line of its own stands behind the spaces of the level. -/
theorem writeln_of_atLineStart (h : w.atLineStart = true) {text : String} (htext : text ≠ "") :
    w.writeln text =
      { w with output := w.output ++ IndentedLine.render w.width ⟨w.level, text⟩ } := by
  simp [writeln, write, writeIndent, newline, htext, h, IndentedLine.render, String.append_assoc,
    Nat.mul_comm]

/-- At the outermost level a line is its text alone. -/
theorem output_newline_write (h : w.level = 0) (text : String) :
    ((w.write text).newline).output = w.output ++ (text ++ "\n") := by
  by_cases htext : text = ""
  · simp [newline, write, htext]
  · by_cases hline : w.atLineStart = true
    · simp [newline, write, writeIndent, htext, hline, h, spaces, String.append_assoc]
    · simp [newline, write, writeIndent, htext, hline, String.append_assoc]

@[simp] theorem level_newline_write (w : Writer) (text : String) :
    ((w.write text).newline).level = w.level := by
  simp only [newline, write, writeIndent]
  split
  · rfl
  · split <;> rfl

end Text.Writer

section Source

/-- An expression is written as its source text. -/
theorem Expr.writeSource_eq (e : Expr) (w : Writer) : e.writeSource w = w.write e.source := by
  have hoperand (wrap : Bool) (operand : Expr)
      (ih : ∀ w : Writer, operand.writeSource w = w.write operand.source) (w : Writer) :
      writeOperand wrap operand.writeSource w = w.write (parenthesize wrap operand.source) := by
    cases wrap with
    | false => exact ih w
    | true => simp [writeOperand, parenthesize, ih, Writer.write_write]
  induction e generalizing w with
  | number x | ident name => rfl
  | binary op left right ihl ihr =>
    simp only [writeSource, source, hoperand _ left ihl, hoperand _ right ihr, Writer.write_write,
      String.append_assoc]

/-- Statements are written as their source texts, each on a line of its own. -/
theorem Program.output_writeSource (body : List Expr) {w : Writer} (h : w.level = 0) :
    (Program.writeSource ⟨body⟩ w).output = w.output ++ Program.source ⟨body⟩ := by
  unfold writeSource source
  induction body generalizing w with
  | nil => simp
  | cons e body ih =>
    rw [List.foldl_cons, ih (by rw [e.writeSource_eq, Writer.level_newline_write, h]),
      e.writeSource_eq, Writer.output_newline_write h, List.map_cons, String.join_cons,
      String.append_assoc]

/-- The source layout of a program, whatever the indentation. -/
theorem Program.render_source (p : Program) (indent : Nat) :
    p.render ⟨indent, .source⟩ = p.source := by
  have houtput := Program.output_writeSource p.body (w := .new indent) rfl
  simpa [render, Writer.new] using houtput

end Source

section Outline

/-- The nodes of an expression that stands at a depth, each before its operands. -/
def Expr.outline (depth : Nat) : Expr → List IndentedLine
  | e@(.number _) => [⟨depth, e.headline⟩]
  | e@(.ident _) => [⟨depth, e.headline⟩]
  | e@(.binary _ left right) =>
    ⟨depth, e.headline⟩ :: (left.outline (depth + 1) ++ right.outline (depth + 1))

/-- The nodes of a program: the program itself and below it the statements in order. -/
def Program.outline (p : Program) : List IndentedLine :=
  ⟨0, Program.nodeType⟩ :: p.body.flatMap (Expr.outline 1)

theorem Expr.headline_ne_empty (e : Expr) : e.headline ≠ "" := by
  cases e <;> simp [headline, nodeType]

/-- An expression is written at the level of the writer, which is back at the start of a line and at
that level behind it. -/
theorem Expr.writeOutline_eq (e : Expr) {w : Writer} (h : w.atLineStart = true) :
    e.writeOutline w =
      { w with output := w.output ++ renderLines w.width (e.outline w.level) } := by
  induction e generalizing w with
  | number x | ident name =>
    simp [writeOutline, outline, Writer.writeln_of_atLineStart h (headline_ne_empty _), renderLines]
  | binary op left right ihl ihr =>
    rw [writeOutline, Writer.writeln_of_atLineStart h (headline_ne_empty _)]
    simp only [Writer.indent]
    rw [ihl (by exact h), ihr (by exact h)]
    simp [Writer.dedent, outline, Text.renderLines_cons, Text.renderLines_append,
      String.append_assoc]

/-- Expressions are written one below the other, all at the level of the writer. -/
theorem Expr.foldl_writeOutline (body : List Expr) {w : Writer} (h : w.atLineStart = true) :
    body.foldl (fun w e => e.writeOutline w) w =
      { w with
        output := w.output ++ renderLines w.width (body.flatMap (Expr.outline w.level)) } := by
  induction body generalizing w with
  | nil => simp [renderLines]
  | cons e body ih =>
    rw [List.foldl_cons, e.writeOutline_eq h, ih (by exact h), List.flatMap_cons,
      Text.renderLines_append, String.append_assoc]

/-- The outline of a program is its nodes as lines. -/
theorem Program.render_tree (p : Program) (indent : Nat) :
    p.render ⟨indent, .tree⟩ = renderLines indent p.outline := by
  have hne : Program.nodeType ≠ "" := by decide
  have hfirst := Writer.writeln_of_atLineStart (w := .new indent) rfl hne
  simp only [render, writeOutline, hfirst, Writer.indent]
  rw [Expr.foldl_writeOutline p.body rfl]
  simp [Writer.dedent, Writer.new, outline, Text.renderLines_cons]

end Outline

end Abacus
