import Abacus.Command.Task
import Abacus.Diagnostic.Report
import Abacus.Proofs.Program.RoundTrip

/-!
# Formatting files

Formatting a file and checking it read the file in the same way: it has to be no larger than the
limit and to hold a text that means a program. The check succeeds exactly on a file that formatting
leaves alone. Canonical text is left alone, so what formatting writes passes the check, but only as
a file within the limit: the blanks that formatting puts in may take the text beyond it.
-/

namespace Abacus.Command

/-- The bytes of a text are valid, and are those of no other text. -/
theorem fromUTF8?_eq_some_iff {bytes : ByteArray} {text : String} :
    String.fromUTF8? bytes = some text ↔ text.toUTF8 = bytes := by
  constructor
  · intro h
    unfold String.fromUTF8? at h
    split at h
    · cases h
      rfl
    · cases h
  · rintro rfl
    exact dif_pos text.isValidUTF8

section Reading

variable {path source : String} {bytes : ByteArray}

/-- A file is read if it is no larger than the limit and holds a text. -/
theorem readSource_eq_ok_iff :
    readSource path (.file bytes) = .ok source ↔
      bytes.size ≤ maxSourceSize ∧ String.fromUTF8? bytes = some source := by
  simp only [readSource]
  split
  · next hlarge => simp [readSource.tooLarge, Nat.not_le.mpr hlarge]
  · next hsize =>
    cases String.fromUTF8? bytes with
    | none => simp [readSource.unreadable]
    | some text => simp [Nat.not_lt.mp hsize]

/-- A file that is larger than the limit is not read. -/
theorem readSource_of_lt (h : maxSourceSize < bytes.size) :
    readSource path (.file bytes) =
      .error ("Source file '" ++ path ++ "' is too large (" ++ bytes.size.repr ++
        " bytes, max 1048576 bytes)") := by
  have hlimit : " bytes, max " ++ (maxSourceSize.repr ++ " bytes)") =
      " bytes, max 1048576 bytes)" := by decide +kernel
  rw [readSource, if_pos h, readSource.tooLarge, String.append_assoc, String.append_assoc, hlimit]

/-- A text within the limit is read back from a file that holds it. -/
theorem readSource_toUTF8 (h : source.utf8ByteSize ≤ maxSourceSize) :
    readSource path (.file source.toUTF8) = .ok source :=
  readSource_eq_ok_iff.mpr ⟨h, fromUTF8?_eq_some_iff.mpr rfl⟩

end Reading

section Growth

open Grammar

variable {line : String} {e : Expr}

/-- The size of a repeated text. -/
theorem utf8ByteSize_join_replicate (n : Nat) (line : String) :
    (String.join (List.replicate n line)).utf8ByteSize = n * line.utf8ByteSize := by
  induction n with
  | zero => simp
  | succ n ih =>
    rw [List.replicate_succ, String.join_cons, String.utf8ByteSize_append, ih, Nat.succ_mul,
      Nat.add_comm]

/-- A line that is scanned to the contents of an expression, repeated, means it as often. -/
theorem parseSource_join_replicate (he : e.HasValidLeaves) (hheight : e.height ≤ nestingLimit)
    (hline : ∀ rest, Scans line.toList e.contents rest) (n : Nat) :
    parseSource (String.join (List.replicate n line)) = .ok ⟨List.replicate n e⟩ := by
  have hbody (d : Expr) (hd : d ∈ List.replicate n e) : d = e := (List.mem_replicate.mp hd).2
  have hscans : Scans (String.join (List.replicate n line)).toList
      (Program.contents ⟨List.replicate n e⟩) [] := by
    clear hbody
    induction n with
    | zero => exact Scans.nil []
    | succ n ih =>
      have hall := (hline _).append ih
      simpa [List.replicate_succ, Program.contents] using hall
  rcases Program.parseSource_of_scans (fun d hd => hbody d hd ▸ he) hscans with
    ⟨hparse, -⟩ | ⟨⟨d, hd, hhigh⟩, -⟩
  · exact hparse
  · rw [hbody d hd] at hhigh
    exact absurd hheight (Nat.not_le.mpr hhigh)

/-- Repeated sums without blanks have a canonical form half as long again. -/
theorem formatSource_sums (n : Nat) :
    formatSource (String.join (List.replicate n "a+a\n")) =
      .ok (String.join (List.replicate n "a + a\n")) := by
  let e : Expr := .binary .add (.ident "a") (.ident "a")
  have hname : IsName "a" := ⟨⟨'a', [], rfl, by decide, by simp⟩, fun word => by cases word; decide⟩
  have he : e.HasValidLeaves := ⟨hname, hname⟩
  have hword {rest : List Char} (hrest : Separates rest) :
      Scans ['a'] [(.identifier, "a")] rest := by
    simpa [hname.ofWord_eq] using scans_word hname.1 hrest
  have hplus (rest : List Char) : Scans ['+'] [(.operator .plus, "+")] rest :=
    scans_symbol (by decide) rest
  have hline (rest : List Char) : Scans "a+a\n".toList e.contents rest := by
    have hfeed : Scans ['\n'] [] rest := scans_gap (by decide) rest
    have hright := (hword (separates_cons (by decide) _)).append hfeed
    exact (hword (separates_cons (by decide) _)).append ((hplus _).append hright)
  have hsource : e.source ++ "\n" = "a + a\n" := by decide +kernel
  refine formatSource_eq_ok_iff.mpr ⟨_, parseSource_join_replicate he (by decide) hline n, ?_⟩
  rw [Program.source, List.map_replicate, hsource]

end Growth

namespace FileTask

variable {handler : ReportHandler} {path source formatted : String} {access : Access}

/-- A text that has a canonical form is written in it. -/
theorem run_format (hread : readSource path access = .ok source)
    (hformat : formatSource source = .ok formatted) :
    format.run handler path access = .success formatted := by
  simp only [run, hread, perform, hformat]
  rfl

/-- A text that has a canonical form is compared with it. -/
theorem run_check (hread : readSource path access = .ok source)
    (hformat : formatSource source = .ok formatted) :
    check.run handler path access =
      if source = formatted then .success (path ++ " is formatted\n")
      else ⟨1, "Would reformat: " ++ path ++ "\n", ""⟩ := by
  have hperform : check.perform path source =
      .ok (if source = formatted then .success (path ++ " is formatted\n")
        else ⟨1, "Would reformat: " ++ path ++ "\n", ""⟩) := by
    simp only [perform, hformat, bind, Except.bind]
    split <;> rfl
  simp only [run, hread, hperform]

/-- Formatting succeeds on what is read and has a canonical form, and on nothing else. -/
theorem exitCode_format_eq_zero_iff :
    (format.run handler path access).exitCode = 0 ↔
      ∃ source formatted, readSource path access = .ok source ∧
        formatSource source = .ok formatted := by
  constructor
  · intro h
    cases hread : readSource path access with
    | error message => simp [run, hread, Outcome.failure] at h
    | ok source =>
      cases hformat : formatSource source with
      | error e => simp [run, hread, perform, hformat, bind, Except.bind, Outcome.failure] at h
      | ok formatted => exact ⟨source, formatted, rfl, hformat⟩
  · rintro ⟨source, formatted, hread, hformat⟩
    rw [run_format hread hformat]
    rfl

/-- No task is done on a file that is larger than the limit. -/
theorem run_of_lt {bytes : ByteArray} (h : maxSourceSize < bytes.size) (task : FileTask) :
    task.run handler path (.file bytes) =
      .failure ("Source file '" ++ path ++ "' is too large (" ++ bytes.size.repr ++
        " bytes, max 1048576 bytes)") "" := by
  rw [run, readSource_of_lt h]

/-- Repeated sums without blanks that are within the limit, and beyond it in canonical form: the
canonical form is written, and no task is done on a file that holds it. -/
theorem run_sums {n : Nat} (hsource : n * 4 ≤ maxSourceSize) (hformatted : maxSourceSize < n * 6)
    (handler : ReportHandler) (path : String) :
    let t := String.join (List.replicate n "a + a\n")
    format.run handler path (.file (String.join (List.replicate n "a+a\n")).toUTF8) = .success t ∧
      ∀ task : FileTask, (task.run handler path (.file t.toUTF8)).exitCode = 1 := by
  intro t
  have hsize : (String.join (List.replicate n "a+a\n")).utf8ByteSize ≤ maxSourceSize := by
    rwa [utf8ByteSize_join_replicate]
  have hlarge : maxSourceSize < t.utf8ByteSize := by
    rwa [utf8ByteSize_join_replicate]
  refine ⟨run_format (readSource_toUTF8 hsize) (formatSource_sums n), fun task => ?_⟩
  have hrefused : task.run handler path (.file t.toUTF8) = _ := run_of_lt hlarge task
  rw [hrefused, Outcome.failure]

/-- What formatting writes need not be formatted again, nor pass the check: sums without blanks in a
file within the limit grow beyond it. -/
theorem run_format_grown :
    let handler : ReportHandler := .graphical
    let source := String.join (List.replicate 174763 "a+a\n")
    let t := String.join (List.replicate 174763 "a + a\n")
    format.run handler "f" (.file source.toUTF8) = .success t ∧
      (format.run handler "f" (.file t.toUTF8)).exitCode = 1 ∧
      (check.run handler "f" (.file t.toUTF8)).exitCode = 1 := by
  intro handler source t
  obtain ⟨hformat, hrefused⟩ := run_sums (n := 174763) (by decide) (by decide) handler "f"
  exact ⟨hformat, hrefused format, hrefused check⟩

/-- What formatting writes passes the check, as a file within the limit. Formatting succeeds exactly
on files of at most 1048576 bytes that hold a text that means a program, and then writes a text. The
check succeeds on such a file exactly when this text is what the file holds, and otherwise says that
the file would change. A file that holds the text and is itself within the limit is formatted to the
same text and passes the check; one beyond the limit is refused for its size by every task. -/
theorem check_of_format (handler : ReportHandler) (path : String) (bytes : ByteArray) :
    ((format.run handler path (.file bytes)).exitCode = 0 ↔
      bytes.size ≤ 1048576 ∧ ∃ source p, String.fromUTF8? bytes = some source ∧
        parseSource source = .ok p) ∧
      ((format.run handler path (.file bytes)).exitCode = 0 →
        ∃ t, format.run handler path (.file bytes) = .success t ∧
          ((check.run handler path (.file bytes)).exitCode = 0 ↔ t.toUTF8 = bytes) ∧
          (t.toUTF8 ≠ bytes →
            check.run handler path (.file bytes) = ⟨1, "Would reformat: " ++ path ++ "\n", ""⟩) ∧
          ∀ path',
            (t.utf8ByteSize ≤ 1048576 → format.run handler path' (.file t.toUTF8) = .success t ∧
              check.run handler path' (.file t.toUTF8) = .success (path' ++ " is formatted\n")) ∧
            (1048576 < t.utf8ByteSize → ∀ task : FileTask,
              task.run handler path' (.file t.toUTF8) =
                .failure ("Source file '" ++ path' ++ "' is too large (" ++ t.utf8ByteSize.repr ++
                  " bytes, max 1048576 bytes)") "")) := by
  rw [exitCode_format_eq_zero_iff]
  constructor
  · constructor
    · rintro ⟨source, t, hread, hformat⟩
      obtain ⟨hsize, hsource⟩ := readSource_eq_ok_iff.mp hread
      obtain ⟨p, hp⟩ := formatSource_eq_ok_iff.mp hformat
      exact ⟨hsize, source, p, hsource, hp.1⟩
    · rintro ⟨hsize, source, p, hsource, hp⟩
      exact ⟨source, p.source, readSource_eq_ok_iff.mpr ⟨hsize, hsource⟩,
        formatSource_eq_ok_iff.mpr ⟨p, hp, rfl⟩⟩
  · rintro ⟨source, t, hread, hformat⟩
    obtain ⟨hsize, hsource⟩ := readSource_eq_ok_iff.mp hread
    have hsame : source = t ↔ t.toUTF8 = bytes := by
      rw [← fromUTF8?_eq_some_iff, hsource, Option.some_inj]
    refine ⟨t, run_format hread hformat, ?_, ?_, fun path' => ⟨?_, ?_⟩⟩
    · rw [run_check hread hformat, ← hsame]
      split
      · next heq => exact iff_of_true rfl heq
      · next hne => exact iff_of_false Nat.one_ne_zero hne
    · intro hne
      rw [run_check hread hformat, if_neg fun heq => hne (hsame.mp heq)]
    · intro hwithin
      have hagain := (parseSource_of_formatSource hformat).2
      have hreread : readSource path' (.file t.toUTF8) = .ok t := readSource_toUTF8 hwithin
      refine ⟨run_format hreread hagain, ?_⟩
      rw [run_check hreread hagain, if_pos rfl]
    · intro hlarge task
      have hsize : maxSourceSize < t.toUTF8.size := hlarge
      exact run_of_lt hsize task

/-- A statement in needless parentheses: formatting succeeds, the check says that the file would
change, and what formatting wrote is left alone and passes the check. -/
theorem check_of_format_parentheses :
    let handler : ReportHandler := .graphical
    let bytes := "(1+2)+x".toUTF8
    (format.run handler "calc" (.file bytes)).exitCode = 0 ∧
      format.run handler "calc" (.file bytes) = .success "1 + 2 + x\n" ∧
      check.run handler "calc" (.file bytes) = ⟨1, "Would reformat: calc\n", ""⟩ ∧
      check.run handler "calc" (.file "1 + 2 + x\n".toUTF8) = .success "calc is formatted\n" := by
  intro handler bytes
  have hread : readSource "calc" (.file bytes) = .ok "(1+2)+x" := readSource_toUTF8 (by decide)
  have hformat : formatSource "(1+2)+x" = .ok "1 + 2 + x\n" := by decide +kernel
  have hrun : format.run handler "calc" (.file bytes) = _ := run_format hread hformat
  have hzero : (format.run handler "calc" (.file bytes)).exitCode = 0 := by rw [hrun]; rfl
  obtain ⟨t, ht, -, hcheck, hagain⟩ := (check_of_format handler "calc" bytes).2 hzero
  obtain rfl : "1 + 2 + x\n" = t := congrArg Outcome.output (hrun.symm.trans ht)
  have hchanges : "1 + 2 + x\n".toUTF8 ≠ bytes := fun h =>
    absurd (String.toByteArray_inj.mp h) (by decide)
  exact ⟨hzero, hrun, hcheck hchanges, ((hagain "calc").1 (by decide)).2⟩

end FileTask

end Abacus.Command
