import Abacus.Diagnostic.Report
import Abacus.Proofs.Session.Loop
import Mathlib.Data.List.Forall2

/-!
# Sessions line by line

A session treats every line on its own, however errors are drawn. Lines that are closed by a line
feed are cut off the input one by one, whatever follows them; each is answered behind a prompt, and
what is written and counted after it is what would be written and counted without it. So a session
on such lines and more input is the answers to the lines, put in front of the session on the rest.
The line that ends the session keeps all that follows it from being looked at.
-/

namespace Abacus.Session

section Cutting

/-- A line that is closed by a line feed and has no other one. -/
def IsClosed (line : List UInt8) : Prop := ∃ body, line = body ++ [10] ∧ 10 ∉ body

/-- A closed line is cut off whatever follows it. -/
theorem lines_append {line : List UInt8} (h : IsClosed line) (rest : List UInt8) :
    lines (line ++ rest) = line :: lines rest := by
  obtain ⟨body, rfl, hbody⟩ := h
  induction body with
  | nil => exact consByte_feed _
  | cons b body ih =>
    obtain ⟨hb, hbody⟩ := List.ne_and_not_mem_of_not_mem_cons hbody
    rw [List.cons_append, List.cons_append, lines_cons, ih hbody, consByte_of_ne hb.symm]

/-- Closed lines are cut off one by one. -/
theorem lines_flatten_append {closed : List (List UInt8)} (h : ∀ line ∈ closed, IsClosed line)
    (rest : List UInt8) : lines (closed.flatten ++ rest) = closed ++ lines rest := by
  induction closed with
  | nil => rfl
  | cons line closed ih =>
    obtain ⟨hline, hclosed⟩ := List.forall_mem_cons.mp h
    rw [List.flatten_cons, List.append_assoc, lines_append hline, ih hclosed, List.cons_append]

/-- Bytes without a line feed are one line. -/
theorem lines_eq_singleton {line : List UInt8} (h : 10 ∉ line) (hne : line ≠ []) :
    lines line = [line] := by
  induction line with
  | nil => exact absurd rfl hne
  | cons b line ih =>
    obtain ⟨hb, hline⟩ := List.ne_and_not_mem_of_not_mem_cons h
    cases line with
    | nil => rfl
    | cons c line =>
      rw [lines_cons, ih hline (List.cons_ne_nil c line), consByte_of_ne hb.symm]

end Cutting

section Conversing

/-- A transcript with output and a number of programs in front of it. -/
def Transcript.behind (output : String) (parsed : Nat) (t : Transcript) : Transcript :=
  ⟨output ++ t.output, parsed + t.parsed, t.failed⟩

theorem Transcript.behind_behind (output output' : String) (parsed parsed' : Nat) (t : Transcript) :
    (t.behind output' parsed').behind output parsed =
      t.behind (output ++ output') (parsed + parsed') := by
  simp [behind, String.append_assoc, Nat.add_assoc]

variable {handler : ReportHandler} {layout : Layout}

/-- An answered line is left behind with the response to it. -/
theorem converse_cons {line : List UInt8} {text : String}
    (hline : String.fromUTF8? ⟨line.toArray⟩ = some text) (hexit : Text.trim text ≠ "exit")
    (output : String) (parsed : Nat) (rest : List (List UInt8)) :
    converse handler layout output parsed (line :: rest) =
      converse handler layout (output ++ prompt ++ response handler layout (Text.trim text))
        (parsed + (isProgram (Text.trim text)).toNat) rest := by
  simp only [converse, hline, hexit, if_false]

/-- The line `exit` ends a session behind its prompt. -/
theorem converse_exit {line : List UInt8} {text : String}
    (hline : String.fromUTF8? ⟨line.toArray⟩ = some text) (hexit : Text.trim text = "exit")
    (output : String) (parsed : Nat) (rest : List (List UInt8)) :
    converse handler layout output parsed (line :: rest) = ⟨output ++ prompt, parsed, false⟩ := by
  simp only [converse, hline, hexit, if_true]

/-- What is written and counted already stays in front of the rest of a session. -/
theorem converse_eq_behind (output : String) (parsed : Nat) (ls : List (List UInt8)) :
    converse handler layout output parsed ls =
      (converse handler layout "" 0 ls).behind output parsed := by
  induction ls generalizing output parsed with
  | nil => simp [converse, Transcript.behind, String.append_assoc]
  | cons line rest ih =>
    cases hline : String.fromUTF8? ⟨line.toArray⟩ with
    | none => simp [converse, hline, Transcript.behind]
    | some text =>
      by_cases hexit : Text.trim text = "exit"
      · simp [converse_exit hline hexit, Transcript.behind]
      · rw [converse_cons hline hexit, converse_cons hline hexit, ih, ih ("" ++ prompt ++ _),
          Transcript.behind_behind]
        simp [String.append_assoc]

/-- The answers to lines that are given without the blanks around them, each behind a prompt. -/
def answers (handler : ReportHandler) (layout : Layout) (texts : List String) : String :=
  String.join (texts.map fun text => prompt ++ response handler layout text)

theorem answers_cons (text : String) (texts : List String) :
    answers handler layout (text :: texts) =
      prompt ++ response handler layout text ++ answers handler layout texts := by
  rw [answers, List.map_cons, String.join_cons]
  rfl

/-- Lines that spell texts other than `exit` are left behind with the answers to them. -/
theorem converse_append {decoded : List (List UInt8)} {texts : List String}
    (h : List.Forall₂ (fun line text => String.fromUTF8? ⟨line.toArray⟩ = some text) decoded texts)
    (hexit : ∀ text ∈ texts, Text.trim text ≠ "exit") (output : String) (parsed : Nat)
    (rest : List (List UInt8)) :
    converse handler layout output parsed (decoded ++ rest) =
      converse handler layout (output ++ answers handler layout (texts.map Text.trim))
        (parsed + (texts.map Text.trim).countP isProgram) rest := by
  induction h generalizing output parsed with
  | nil => simp [answers]
  | @cons line text decoded texts hline _ ih =>
    obtain ⟨htext, hexit⟩ := List.forall_mem_cons.mp hexit
    have hcount : (isProgram (Text.trim text)).toNat =
        if isProgram (Text.trim text) then 1 else 0 := by
      cases isProgram (Text.trim text) <;> rfl
    rw [List.cons_append, converse_cons hline htext, ih hexit, hcount, List.map_cons,
      answers_cons, List.countP_cons, String.append_assoc, String.append_assoc, String.append_assoc,
      Nat.add_assoc, Nat.add_comm (List.countP _ _)]

end Conversing

/-- The line `exit` is the first line of what starts with it, closed by a line feed or not. -/
theorem exists_lines_of_exit {first more : List UInt8} {text : String}
    (hfirst : IsClosed first ∨ 10 ∉ first ∧ more = [])
    (htext : String.fromUTF8? ⟨first.toArray⟩ = some text) (hexit : Text.trim text = "exit") :
    ∃ rest, lines (first ++ more) = first :: rest := by
  rcases hfirst with hclosed | ⟨hopen, rfl⟩
  · exact ⟨lines more, lines_append hclosed more⟩
  · -- Without a line feed the line is the whole input, which is not empty since it spells `exit`.
    have hne : first ≠ [] := by
      rintro rfl
      obtain rfl : "" = text := Option.some.inj htext
      exact absurd hexit (by decide)
    rw [List.append_nil]
    exact ⟨[], lines_eq_singleton hopen hne⟩

/-- A session on closed lines that spell texts other than `exit` goes on behind the answers to
them. -/
theorem hold_flatten_eq_converse {handler : ReportHandler} {layout : Layout}
    {closed : List (List UInt8)} {texts : List String} (hclosed : ∀ line ∈ closed, IsClosed line)
    (htexts : List.Forall₂ (fun line text => String.fromUTF8? ⟨line.toArray⟩ = some text)
      closed texts)
    (hexit : ∀ text ∈ texts, Text.trim text ≠ "exit") (rest : List UInt8) :
    hold handler layout (closed.flatten ++ rest) =
      converse handler layout (banner ++ answers handler layout (texts.map Text.trim))
        ((texts.map Text.trim).countP isProgram) (lines rest) := by
  rw [hold_eq_converse, lines_flatten_append hclosed, converse_append htexts hexit, Nat.zero_add]

/-- The session treats every line on its own, however errors are drawn. Closed lines that spell
texts, none of which is `exit` without the blanks around it, are answered in order behind a prompt
each, and their programs are counted. Then follows what the session on the rest of the input writes
behind its banner and counts, and it fails when that session does. Where the first line of the rest
is `exit`, it ends the session at its prompt, whatever bytes come behind it. -/
theorem hold_flatten_append (handler : ReportHandler) (layout : Layout)
    (closed : List (List UInt8)) (texts : List String)
    (hclosed : ∀ line ∈ closed, ∃ body, line = body ++ [10] ∧ 10 ∉ body)
    (htexts : List.Forall₂ (fun line text => String.fromUTF8? ⟨line.toArray⟩ = some text)
      closed texts)
    (hexit : ∀ text ∈ texts, Text.trim text ≠ "exit") (rest : List UInt8) :
    let trimmed := texts.map Text.trim
    let answers := String.join (trimmed.map fun text => prompt ++ response handler layout text)
    let programs := trimmed.countP isProgram
    (∃ tail, (hold handler layout rest).output = banner ++ tail ∧
        hold handler layout (closed.flatten ++ rest) =
          ⟨banner ++ answers ++ tail, programs + (hold handler layout rest).parsed,
            (hold handler layout rest).failed⟩) ∧
      ∀ first more text, rest = first ++ more →
        ((∃ body, first = body ++ [10] ∧ 10 ∉ body) ∨ 10 ∉ first ∧ more = []) →
        String.fromUTF8? ⟨first.toArray⟩ = some text → Text.trim text = "exit" →
        hold handler layout (closed.flatten ++ rest) =
          ⟨banner ++ answers ++ prompt, programs, false⟩ := by
  intro trimmed answers programs
  have hhold : hold handler layout (closed.flatten ++ rest) =
      converse handler layout (banner ++ answers) programs (lines rest) :=
    hold_flatten_eq_converse hclosed htexts hexit rest
  constructor
  · refine ⟨(converse handler layout "" 0 (lines rest)).output, ?_, ?_⟩
    · rw [hold_eq_converse, converse_eq_behind, Transcript.behind]
    · rw [hhold, converse_eq_behind, hold_eq_converse, converse_eq_behind banner]
      simp only [Transcript.behind, Nat.zero_add]
  · rintro first more text rfl hfirst htext hlast
    obtain ⟨ls, hls⟩ := exists_lines_of_exit hfirst htext hlast
    rw [hhold, hls, converse_exit htext hlast]

/-- A program with a name of two bytes, a blank line and a group that is never closed, then `exit`
between blanks and a byte that belongs to no text: one program is read, the error is shown with an
excerpt, and the session ends without a failure. -/
theorem hold_flatten_append_exit :
    let closed : List (List UInt8) := [[0xc3, 0xa9, 43, 120, 10], [32, 9, 10], [40, 10]]
    let texts := ["é+x\n", " \t\n", "(\n"]
    let first : List UInt8 := [32, 101, 120, 105, 116, 13, 10]
    let report := "arith::parse::unexpected_token\n\n" ++
      "  × unexpected end of input, expected a number, an identifier, or '('\n" ++
      "   ╭─[<repl>:1:2]\n 1 │ (\n   ╰────\n" ++
      "  help: the expression ends early; add an operand\n"
    ((∀ line ∈ closed, ∃ body, line = body ++ [10] ∧ 10 ∉ body) ∧
        List.Forall₂ (fun line text => String.fromUTF8? ⟨line.toArray⟩ = some text) closed texts ∧
        ∀ text ∈ texts, Text.trim text ≠ "exit") ∧
      hold .graphical ⟨2, .source⟩ (closed.flatten ++ (first ++ [0xff])) =
        ⟨banner ++ String.join [">>> é + x\n", ">>> ", ">>> " ++ report] ++ ">>> ", 1, false⟩ := by
  intro closed texts first report
  have hclosed : ∀ line ∈ closed, ∃ body, line = body ++ [10] ∧ 10 ∉ body := by
    intro line hline
    refine ⟨line.dropLast, ?_⟩
    revert line
    decide
  have htexts : List.Forall₂ (fun line text => String.fromUTF8? ⟨line.toArray⟩ = some text)
      closed texts := .cons rfl (.cons rfl (.cons rfl .nil))
  have hexit : ∀ text ∈ texts, Text.trim text ≠ "exit" := by decide +kernel
  have hfirst : ∃ body, first = body ++ [10] ∧ 10 ∉ body := ⟨first.dropLast, by decide⟩
  have hdecoded : String.fromUTF8? ⟨first.toArray⟩ = some " exit\r\n" := by decide +kernel
  have hhold := (hold_flatten_append .graphical ⟨2, .source⟩ closed texts hclosed htexts hexit
    (first ++ [0xff])).2 first [0xff] " exit\r\n" rfl (.inl hfirst) hdecoded (by decide +kernel)
  have htrimmed : texts.map Text.trim = ["é+x", "", "("] := by decide +kernel
  have hanswers :
      ["é+x", "", "("].map (fun text => prompt ++ response .graphical ⟨2, .source⟩ text) =
      [">>> é + x\n", ">>> ", ">>> " ++ report] := by decide +kernel
  have hcount : ["é+x", "", "("].countP isProgram = 1 := by decide +kernel
  simp only [htrimmed, hanswers, hcount] at hhold
  exact ⟨⟨hclosed, htexts, hexit⟩, hhold⟩

end Abacus.Session
