import Abacus.Proofs.Program.RoundTrip
import Abacus.Proofs.Session.Lines
import Abacus.Proofs.Token.Spacing

/-!
# Sessions on canonical text

Canonical text is echoed by a session in the source layout. Every statement is written on a line
that starts and ends with no blank, so that the line is the statement's text again once it is cut
off and trimmed; that text alone is parsed to the statement, and the answer is the line itself.
-/

namespace Abacus

open Text (isBlank)

section Blanks

/-- No blank of any script may stand in a word. -/
theorem isBlank_of_isWordPart {c : Char} (h : isWordPart c = true) : isBlank c = false := by
  -- Blanks are few, so each of them is looked up among letters and numbers.
  have hdisjoint : ∀ r ∈ Text.blank, ∀ n ∈ List.range' r.1 (r.2 + 1 - r.1),
      (Text.alphabetic.contains n || Text.numeric.contains n || decide (n = '_'.toNat)) =
        false := by
    decide +kernel
  by_contra hblank
  obtain ⟨r, hr, hlow, hhigh⟩ := Text.Ranges.exists_of_contains (Bool.not_eq_false _ ▸ hblank)
  have hc : c.toNat ∈ List.range' r.1 (r.2 + 1 - r.1) := by
    rw [List.mem_range'_1]
    omega
  have hnone := hdisjoint r hr c.toNat hc
  simp only [isWordPart, Text.isAlphabetic, Text.isNumeric, ← Char.toNat_inj] at h
  rw [hnone] at h
  cases h

theorem isBlank_of_isDigit {c : Char} (h : c.isDigit = true) : isBlank c = false :=
  isBlank_of_isWordPart (isWordPart_of_isDigit h)

/-- A text on one line that starts and ends with no blank. -/
structure IsTight (text : List Char) : Prop where
  head : ∃ c tail, text = c :: tail ∧ isBlank c = false
  last : ∃ start c, text = start ++ [c] ∧ isBlank c = false
  no_feed : '\n' ∉ text

namespace IsTight

variable {x mid y text : List Char}

/-- Characters that are no blanks make up a tight text. -/
theorem of_forall (hne : text ≠ []) (h : ∀ c ∈ text, isBlank c = false) : IsTight text where
  head := by
    obtain ⟨c, tail, rfl⟩ := List.exists_cons_of_ne_nil hne
    exact ⟨c, tail, rfl, h c List.mem_cons_self⟩
  last := by
    obtain ⟨start, c, rfl⟩ := (List.eq_nil_or_concat' text).resolve_left hne
    exact ⟨start, c, rfl, h c (by simp)⟩
  no_feed hfeed := absurd (h '\n' hfeed) (by decide)

theorem singleton {c : Char} (h : isBlank c = false) : IsTight [c] :=
  of_forall (List.cons_ne_nil c []) (by simpa using h)

/-- Tight texts with anything but a line feed between them are a tight text. -/
theorem append (hx : IsTight x) (hmid : '\n' ∉ mid) (hy : IsTight y) :
    IsTight (x ++ (mid ++ y)) where
  head := by
    obtain ⟨c, tail, rfl, hc⟩ := hx.head
    exact ⟨c, tail ++ (mid ++ y), rfl, hc⟩
  last := by
    obtain ⟨start, c, rfl, hc⟩ := hy.last
    exact ⟨x ++ (mid ++ start), c, by simp, hc⟩
  no_feed := by
    simp only [List.mem_append, not_or]
    exact ⟨hx.no_feed, hmid, hy.no_feed⟩

theorem parenthesize {s : String} (h : IsTight s.toList) (wrap : Bool) :
    IsTight (Expr.parenthesize wrap s).toList := by
  cases wrap with
  | false => exact h
  | true =>
    have hopen : IsTight ['('] := singleton (by decide)
    have hclose : IsTight [')'] := singleton (by decide)
    have hnone : '\n' ∉ ([] : List Char) := List.not_mem_nil
    simpa [Expr.parenthesize] using hopen.append hnone (h.append hnone hclose)

/-- Trimming a tight text with a line feed behind it takes the line feed away. -/
theorem trim_append_feed {s : String} (h : IsTight s.toList) : Text.trim (s ++ "\n") = s := by
  obtain ⟨c, tail, hhead, hc⟩ := h.head
  obtain ⟨start, d, hlast, hd⟩ := h.last
  have hfront : (s ++ "\n").toList.dropWhile isBlank = s.toList ++ ['\n'] := by
    simp [hhead, hc]
  have hback : (s.toList ++ ['\n']).reverse.dropWhile isBlank = s.toList.reverse := by
    have hfeed : isBlank '\n' = true := by decide
    simp [hlast, hfeed, hd]
  rw [Text.trim, hfront, Text.trimEnd, String.toList_ofList, hback, List.reverse_reverse,
    String.ofList_toList]

end IsTight

/-- The source text of an expression is tight. -/
theorem Expr.isTight_source {e : Expr} (he : e.HasValidLeaves) : IsTight e.source.toList := by
  induction e with
  | number value =>
    have hplain := Binary64.isPlainNumber_plainText he.1 he.2
    obtain ⟨c, cs, htext, -⟩ := hplain.exists_head
    refine .of_forall (by simp [source, htext]) ?_
    intro d hd
    rcases hplain.isDigit_or_eq d hd with hdigit | rfl
    · exact isBlank_of_isDigit hdigit
    · decide
  | ident name =>
    obtain ⟨c, cs, htext, hc, hcs⟩ := he.1
    refine .of_forall (by simp [source, htext]) ?_
    simp only [source, htext, List.forall_mem_cons]
    exact ⟨isBlank_of_isWordPart (isWordPart_of_isWordStart hc),
      fun d hd => isBlank_of_isWordPart (hcs d hd)⟩
  | binary op left right ihl ihr =>
    have hleft := (ihl he.1).parenthesize (left.needsParens op .left)
    have hright := (ihr he.2).parenthesize (right.needsParens op .right)
    have hoperator : '\n' ∉ (" " ++ op.spelling ++ " ").toList := by cases op <;> decide
    simpa [source] using hleft.append hoperator hright

end Blanks

/-- The source text of an expression within the limit is parsed to it alone. -/
theorem Expr.parseSource_source {e : Expr} (he : e.HasValidLeaves)
    (hheight : e.height ≤ nestingLimit) : parseSource e.source = .ok ⟨[e]⟩ := by
  have hleaves : Program.HasValidLeaves ⟨[e]⟩ := by simpa [Program.HasValidLeaves] using he
  have hscans : Scans e.source.toList (Program.contents ⟨[e]⟩) [] := by
    have hrest : Separates [] := by simp [Separates]
    simpa [Program.contents] using e.scans_source he hrest
  rcases Program.parseSource_of_scans hleaves hscans with ⟨hparse, -⟩ | ⟨⟨d, hd, hhigh⟩, -⟩
  · exact hparse
  · rw [List.mem_singleton.mp hd] at hhigh
    exact absurd hheight (Nat.not_le.mpr hhigh)

namespace Session

section Bytes

/-- The bytes of a text. -/
def bytes (text : String) : List UInt8 := text.toUTF8.data.toList

theorem bytes_append (x y : String) : bytes (x ++ y) = bytes x ++ bytes y := by
  simp [bytes]

theorem bytes_join (texts : List String) :
    bytes (String.join texts) = (texts.map bytes).flatten := by
  induction texts with
  | nil => rfl
  | cons text texts ih =>
    rw [String.join_cons, bytes_append, ih, List.map_cons, List.flatten_cons]

/-- The bytes of a text spell it. -/
theorem fromUTF8?_bytes (text : String) : String.fromUTF8? ⟨(bytes text).toArray⟩ = some text := by
  have hbytes : (⟨(bytes text).toArray⟩ : ByteArray) = text.toUTF8 := by simp [bytes]
  rw [hbytes]
  exact dif_pos text.isValidUTF8

/-- The bytes of a character beyond the first 128 have their highest bit. -/
theorem le_toNat_of_mem_utf8EncodeChar {c : Char} (hc : 127 < c.toNat) {b : UInt8}
    (hb : b ∈ String.utf8EncodeChar c) : 128 ≤ b.toNat := by
  simp only [String.utf8EncodeChar, Char.toNat_val, Nat.not_le.mpr hc, if_false] at hb
  split at hb
  · simp only [List.mem_cons, List.not_mem_nil, or_false] at hb
    rcases hb with rfl | rfl <;> simp only [UInt8.toNat_ofNat'] <;> omega
  · split at hb <;> simp only [List.mem_cons, List.not_mem_nil, or_false] at hb
    · rcases hb with rfl | rfl | rfl <;> simp only [UInt8.toNat_ofNat'] <;> omega
    · rcases hb with rfl | rfl | rfl | rfl <;> simp only [UInt8.toNat_ofNat'] <;> omega

/-- Only a line feed has the byte of a line feed. -/
theorem eq_feed_of_mem_utf8EncodeChar {c : Char} (h : 10 ∈ String.utf8EncodeChar c) : c = '\n' := by
  by_cases hc : c.toNat ≤ 127
  · have hbyte : (10 : UInt8) = UInt8.ofNat c.toNat := by
      simpa [String.utf8EncodeChar, hc] using h
    have hnat := congrArg UInt8.toNat hbyte
    rw [UInt8.toNat_ofNat', Nat.mod_eq_of_lt (by omega)] at hnat
    exact Char.toNat_inj.mp hnat.symm
  · have hhigh := le_toNat_of_mem_utf8EncodeChar (Nat.not_le.mp hc) h
    exact absurd hhigh (by decide)

theorem feed_not_mem_bytes {text : String} (h : '\n' ∉ text.toList) : 10 ∉ bytes text := by
  have hbytes : bytes text = text.toList.flatMap String.utf8EncodeChar := by
    have hencode := String.toByteArray_ofList (l := text.toList)
    rw [String.ofList_toList] at hencode
    simp [bytes, hencode, List.utf8Encode]
  rw [hbytes, List.mem_flatMap]
  rintro ⟨c, hc, hfeed⟩
  exact h (eq_feed_of_mem_utf8EncodeChar hfeed ▸ hc)

/-- The bytes of a text on one line and a line feed are a closed line. -/
theorem isClosed_bytes {text : String} (h : '\n' ∉ text.toList) :
    IsClosed (bytes (text ++ "\n")) := by
  refine ⟨bytes text, ?_, feed_not_mem_bytes h⟩
  rw [bytes_append]
  rfl

end Bytes

section Echo

variable {handler : ReportHandler} {e : Expr} {body : List Expr}

/-- Only the bare name `exit` is written as `exit`. -/
theorem source_ne_exit (he : e.HasValidLeaves) (hheight : e.height ≤ nestingLimit)
    (hne : e ≠ .ident "exit") : e.source ≠ "exit" := by
  intro hsource
  -- The text is parsed to the expression, and `exit` is parsed to the bare name.
  have hparse := Expr.parseSource_source he hheight
  have hexit : parseSource "exit" = .ok ⟨[.ident "exit"]⟩ := by decide +kernel
  rw [hsource, hexit] at hparse
  exact hne (List.cons.inj (Program.mk.inj (Except.ok.inj hparse))).1.symm

/-- The text of an expression is a program, and the response to it is the text and a line feed. -/
theorem response_source (he : e.HasValidLeaves) (hheight : e.height ≤ nestingLimit) (indent : Nat) :
    isProgram e.source = true ∧
      response handler ⟨indent, .source⟩ e.source = e.source ++ "\n" := by
  have hne : e.source ≠ "" := by
    obtain ⟨c, tail, htext, -⟩ := (Expr.isTight_source he).head
    intro hempty
    rw [hempty] at htext
    cases htext
  have hparse := Expr.parseSource_source he hheight
  constructor
  · simp [isProgram, hne, hparse, Except.isOk, Except.toBool]
  · simp [response, hne, hparse, Program.render_source, Program.source]

/-- The lines of statements are closed and spell the texts of the statements and a line feed. -/
theorem lines_of_body (hleaves : ∀ e ∈ body, e.HasValidLeaves) :
    (∀ line ∈ body.map fun e => bytes (e.source ++ "\n"), IsClosed line) ∧
      List.Forall₂ (fun line text => String.fromUTF8? ⟨line.toArray⟩ = some text)
        (body.map fun e => bytes (e.source ++ "\n")) (body.map (·.source ++ "\n")) := by
  constructor
  · intro line hline
    obtain ⟨e, he, rfl⟩ := List.mem_map.mp hline
    exact isClosed_bytes (Expr.isTight_source (hleaves e he)).no_feed
  · rw [List.forall₂_map_left_iff, List.forall₂_map_right_iff, List.forall₂_same]
    exact fun e _ => fromUTF8?_bytes (e.source ++ "\n")

/-- Without the blanks around them, the lines of statements are the texts of the statements. -/
theorem map_trim_source (hleaves : ∀ e ∈ body, e.HasValidLeaves) :
    (body.map (·.source ++ "\n")).map Text.trim = body.map Expr.source := by
  rw [List.map_map]
  apply List.map_congr_left
  intro e he
  exact (Expr.isTight_source (hleaves e he)).trim_append_feed

/-- The answers to the texts of statements are these texts, each on a line of its own. -/
theorem answers_source (hleaves : ∀ e ∈ body, e.HasValidLeaves)
    (hheight : ∀ e ∈ body, e.height ≤ nestingLimit) (indent : Nat) :
    answers handler ⟨indent, .source⟩ (body.map Expr.source) =
        String.join (body.map fun e => prompt ++ (e.source ++ "\n")) ∧
      (body.map Expr.source).countP isProgram = body.length := by
  have hresponse (e : Expr) (he : e ∈ body) :=
    @response_source handler e (hleaves e he) (hheight e he) indent
  constructor
  · rw [answers, List.map_map]
    congr 1
    apply List.map_congr_left
    intro e he
    rw [Function.comp_apply, (hresponse e he).2]
  · rw [List.countP_map, List.countP_eq_length]
    exact fun e he => (hresponse e he).1

/-- A session in the source layout on the canonical text of statements, none of which is the bare
name `exit`, writes and counts them all. -/
theorem hold_source (hleaves : ∀ e ∈ body, e.HasValidLeaves)
    (hheight : ∀ e ∈ body, e.height ≤ nestingLimit) (hexit : .ident "exit" ∉ body) (indent : Nat) :
    hold handler ⟨indent, .source⟩ (bytes (Program.source ⟨body⟩)) =
      ⟨banner ++ String.join (body.map fun e => prompt ++ (e.source ++ "\n")) ++ prompt ++ "\n",
        body.length, false⟩ := by
  obtain ⟨hclosed, htexts⟩ := lines_of_body hleaves
  obtain ⟨hanswers, hcount⟩ := @answers_source handler body hleaves hheight indent
  have htrimmed := map_trim_source hleaves
  have hnone : ∀ text ∈ body.map (·.source ++ "\n"), Text.trim text ≠ "exit" := by
    intro text htext
    have hmem : Text.trim text ∈ body.map Expr.source := htrimmed ▸ List.mem_map_of_mem htext
    obtain ⟨e, he, hsource⟩ := List.mem_map.mp hmem
    rw [← hsource]
    exact source_ne_exit (hleaves e he) (hheight e he) fun heq => hexit (heq ▸ he)
  have hinput : bytes (Program.source ⟨body⟩) =
      (body.map fun e => bytes (e.source ++ "\n")).flatten ++ [] := by
    rw [Program.source, bytes_join, List.map_map, List.append_nil]
    rfl
  rw [hinput, hold_flatten_eq_converse hclosed htexts hnone, htrimmed, hanswers, hcount]
  rfl

end Echo

/-- Canonical source is a fixed point of the session. The canonical text of a program that some text
means, no statement of which is the bare name `exit`, is made up of one line for each statement.
Each of these lines alone means its statement, and a session in the source layout on the text
answers every line with that line, and counts them all; how errors are drawn does not matter. -/
theorem hold_source_echo (handler : ReportHandler) (p : Program)
    (hp : ∃ source, parseSource source = .ok p) (hexit : .ident "exit" ∉ p.body)
    (indent indent' : Nat) :
    let source := p.render ⟨indent', .source⟩
    ∃ texts : List String,
      source = String.join (texts.map (· ++ "\n")) ∧ (∀ text ∈ texts, '\n' ∉ text.toList) ∧
      List.Forall₂ (fun text e => parseSource text = .ok ⟨[e]⟩) texts p.body ∧
      hold handler ⟨indent, .source⟩ source.toUTF8.data.toList =
        ⟨banner ++ String.join (texts.map fun text => ">>> " ++ (text ++ "\n")) ++ ">>> " ++ "\n",
          p.body.length, false⟩ := by
  intro source
  have hsource : source = p.source := p.render_source indent'
  obtain ⟨other, hother⟩ := hp
  obtain ⟨hleaves, hheight⟩ := hasValidLeaves_of_parseSource hother
  refine ⟨p.body.map Expr.source, ?_, ?_, ?_, ?_⟩
  · rw [hsource, List.map_map]
    rfl
  · intro text htext
    obtain ⟨e, he, rfl⟩ := List.mem_map.mp htext
    exact (Expr.isTight_source (hleaves e he)).no_feed
  · rw [List.forall₂_map_left_iff, List.forall₂_same]
    exact fun e he => Expr.parseSource_source (hleaves e he) (hheight e he)
  · rw [hsource, List.map_map]
    exact hold_source hleaves hheight hexit indent

/-- The name `exit` inside a difference, and a number in needless parentheses: the program is read
from a text, and its canonical text is echoed. -/
theorem hold_source_echo_difference :
    let handler : ReportHandler := .graphical
    let p : Program :=
      ⟨[.binary .sub (.ident "exit")
          (.binary .sub (.ident "π") (.number (.ofBits 0x3ff0000000000000))),
        .number (.ofBits 0x4000000000000000)]⟩
    let source := "exit - (π - 1)\n2\n"
    ((∃ other, parseSource other = .ok p) ∧ .ident "exit" ∉ p.body) ∧
      p.render ⟨0, .source⟩ = source ∧
      ∃ texts : List String, source = String.join (texts.map (· ++ "\n")) ∧
        hold handler ⟨2, .source⟩ source.toUTF8.data.toList =
          ⟨banner ++ String.join (texts.map fun text => ">>> " ++ (text ++ "\n")) ++ ">>> " ++ "\n",
            2, false⟩ := by
  intro handler p source
  have hp : ∃ other, parseSource other = .ok p := ⟨"exit-(π-1)(2)", by decide +kernel⟩
  have hexit : .ident "exit" ∉ p.body := by decide
  have hsource : p.render ⟨0, .source⟩ = source := by decide +kernel
  obtain ⟨texts, hlines, -, -, hhold⟩ := hold_source_echo handler p hp hexit 2 0
  rw [hsource] at hlines hhold
  exact ⟨⟨hp, hexit⟩, hsource, texts, hlines, hhold⟩

end Session

end Abacus
