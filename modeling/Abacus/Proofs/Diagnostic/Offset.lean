import Abacus.Proofs.Diagnostic.Location
import Mathlib.Order.Bounds.Defs

/-!
# Positions and the text in front of them

The position of an offset is that of the first place between characters which is not in front of the
offset, or of the end of the text. It says how much text stands in front of that place: going on by
a character always leads to a later position, so that different places have different positions, and
the lines of the text up to the position, the last of them cut off at the column, are the text in
front of it.
-/

namespace Abacus

open String (utf8Len utf8Len_append utf8Len_cons utf8Len_toList)

namespace Position

/-- A position stands before another one: on an earlier line, or on the same line in an earlier
column. -/
def Precedes (p q : Position) : Prop := p.line < q.line ∨ p.line = q.line ∧ p.column < q.column

section Order

variable {p q r : Position}

theorem Precedes.trans (hpq : p.Precedes q) (hqr : q.Precedes r) : p.Precedes r := by
  unfold Precedes at *
  omega

theorem Precedes.ne (h : p.Precedes q) : p ≠ q := by
  rintro rfl
  unfold Precedes at h
  omega

/-- Every character leads to a later position. -/
theorem precedes_advance (p : Position) (c : Char) : p.Precedes (p.advance c) := by
  unfold Precedes advance
  split
  · exact .inl (Nat.lt_succ_self _)
  · exact .inr ⟨rfl, Nat.lt_succ_self _⟩

/-- A text that is not empty leads to a later position. -/
theorem precedes_foldl {text : List Char} (h : text ≠ []) (p : Position) :
    p.Precedes (text.foldl advance p) := by
  induction text generalizing p with
  | nil => exact absurd rfl h
  | cons c text ih =>
    rw [List.foldl_cons]
    by_cases htext : text = []
    · rw [htext]
      exact precedes_advance p c
    · exact (precedes_advance p c).trans (ih htext _)

/-- More text in front of a place makes its position a later one. -/
theorem precedes_behind {more : List Char} (h : more ≠ []) (text : List Char) :
    (behind text).Precedes (behind (text ++ more)) := by
  rw [← foldl_advance_start, ← foldl_advance_start, List.foldl_append]
  exact precedes_foldl h _

end Order

section Places

variable {source : String} {b b' : Nat}

/-- The places between characters are those behind the starts of a text. -/
theorem isValid_iff_exists_split :
    String.Pos.Raw.IsValid source ⟨b⟩ ↔
      ∃ before after, source.toList = before ++ after ∧ utf8Len before = b := by
  constructor
  · intro h
    obtain ⟨before, after, hsource, hb⟩ := String.Pos.Raw.isValid_iff_exists_append.mp h
    refine ⟨before.toList, after.toList, by rw [hsource, String.toList_append], ?_⟩
    rw [utf8Len_toList]
    exact (congrArg String.Pos.Raw.byteIdx hb).symm
  · rintro ⟨before, after, hsource, rfl⟩
    exact Span.isValid_of_append hsource

/-- Of two places the later one has more text in front of it. -/
theorem exists_append_of_lt {text before after before' after' : List Char}
    (h : text = before ++ after) (h' : text = before' ++ after')
    (hlt : utf8Len before < utf8Len before') : ∃ more, more ≠ [] ∧ before' = before ++ more := by
  rcases List.append_eq_append_iff.mp (h.symm.trans h') with ⟨more, hmore, -⟩ | ⟨more, hmore, -⟩
  · refine ⟨more, ?_, hmore⟩
    rintro rfl
    rw [hmore, List.append_nil] at hlt
    exact absurd hlt (Nat.lt_irrefl _)
  · rw [hmore, utf8Len_append] at hlt
    omega

/-- Of two places the later one has the later position. -/
theorem precedes_of_lt {text before after before' after' : List Char}
    (h : text = before ++ after) (h' : text = before' ++ after')
    (hlt : utf8Len before < utf8Len before') : (behind before).Precedes (behind before') := by
  obtain ⟨more, hmore, rfl⟩ := exists_append_of_lt h h' hlt
  exact precedes_behind hmore before

/-- An offset is reached behind the least start of a text that has as many bytes, or behind the
whole text. -/
theorem exists_after_eq (text : List Char) (offset : Nat) (p : Position) :
    ∃ before rest, text = before ++ rest ∧ p.after offset text = before.foldl advance p ∧
      min offset (utf8Len text) ≤ utf8Len before ∧
      ∀ start, start <+: text → min offset (utf8Len text) ≤ utf8Len start → before <+: start := by
  induction text generalizing offset p with
  | nil => exact ⟨[], [], rfl, rfl, by simp, fun start _ _ => List.nil_prefix⟩
  | cons c text ih =>
    by_cases hzero : offset = 0
    · subst hzero
      exact ⟨[], c :: text, rfl, rfl, by simp, fun start _ _ => List.nil_prefix⟩
    · obtain ⟨before, rest, htext, hafter, hle, hleast⟩ := ih (offset - c.utf8Size) (p.advance c)
      have hsize := c.utf8Size_pos
      refine ⟨c :: before, rest, by rw [htext, List.cons_append], ?_, ?_, ?_⟩
      · rw [after, if_neg hzero, hafter, List.foldl_cons]
      · rw [utf8Len_cons, utf8Len_cons]
        omega
      · intro start hstart hbytes
        rcases List.prefix_cons_iff.mp hstart with rfl | ⟨tail, rfl, htail⟩
        · rw [utf8Len_cons, String.utf8Len_nil] at hbytes
          omega
        · rw [utf8Len_cons, utf8Len_cons] at hbytes
          exact List.cons_prefix_cons.mpr ⟨rfl, hleast tail htail (by omega)⟩

end Places

section Lines

/-- A text is cut into as many closed lines as it has line feeds, and the characters behind the last
of them, with which the first line of what follows goes on. -/
theorem exists_splitOn_append (before : List Char) :
    ∃ (closed : List (List Char)) (tail : List Char), closed.length = before.count '\n' ∧
      tail.length = (before.reverse.takeWhile (· ≠ '\n')).length ∧
      ∀ after first rest, List.splitOn '\n' after = first :: rest →
        (before ++ after).splitOn '\n' = closed ++ (tail ++ first) :: rest := by
  induction before using List.reverseRecOn with
  | nil => exact ⟨[], [], rfl, rfl, fun after first rest h => h⟩
  | append_singleton before c ih =>
    obtain ⟨closed, tail, hclosed, htail, hsplit⟩ := ih
    by_cases hc : c = '\n'
    · subst hc
      refine ⟨closed ++ [tail], [], by simp [hclosed], by simp, fun after first rest h => ?_⟩
      have hnext : List.splitOn '\n' ('\n' :: after) = [] :: first :: rest := by
        rw [List.splitOn_cons_eq_if_modifyHead, h]
        rfl
      rw [List.append_assoc, List.singleton_append, hsplit _ _ _ hnext]
      simp
    · refine ⟨closed, tail ++ [c], by simp [hclosed, hc], by simp [htail, hc],
        fun after first rest h => ?_⟩
      have hnext : List.splitOn '\n' (c :: after) = (c :: first) :: rest := by
        rw [List.splitOn_cons_eq_if_modifyHead, h]
        simp [hc]
      rw [List.append_assoc, List.singleton_append, hsplit _ _ _ hnext]
      simp

/-- The lines of a text up to a position, the last of them cut off at the column, are the text in
front of the position. -/
theorem exists_line_behind (before after : List Char) :
    let lines := (before ++ after).splitOn '\n'
    ∃ line, lines[(behind before).line - 1]? = some line ∧
      ['\n'].intercalate
        (lines.take ((behind before).line - 1) ++ [line.take ((behind before).column - 1)]) =
        before := by
  intro lines
  obtain ⟨closed, tail, hclosed, htail, hsplit⟩ := exists_splitOn_append before
  obtain ⟨first, rest, hafter⟩ := List.exists_cons_of_ne_nil (List.splitOn_ne_nil '\n' after)
  have hlines : lines = closed ++ (tail ++ first) :: rest := hsplit _ _ _ hafter
  have hbefore : before.splitOn '\n' = closed ++ [tail] := by
    have hnil := hsplit [] [] [] (List.splitOn_nil '\n')
    simpa using hnil
  have hbehind : behind before = ⟨closed.length + 1, tail.length + 1⟩ := by
    rw [behind, hclosed, htail]
  refine ⟨tail ++ first, by simp [hlines, hbehind], ?_⟩
  calc ['\n'].intercalate
        (lines.take ((behind before).line - 1) ++ [(tail ++ first).take ((behind before).column - 1)])
      = ['\n'].intercalate (closed ++ [tail]) := by simp [hlines, hbehind]
    _ = before := by rw [← hbefore, List.intercalate_splitOn]

end Lines

/-- Positions say how much text stands in front of them. The position of an offset is that of the
least place between characters which is not in front of it, or of the end of the text: its line
counts the line feeds in front of the place, its column the characters behind the last of them, and
the lines up to it, cut off at the column, are the text in front of the place. A later place has a
later position, so that different places have different positions. -/
theorem ofOffset_inverts (source : String) :
    (∀ offset, ∃ b, IsLeast {b | String.Pos.Raw.IsValid source ⟨b⟩ ∧
        min offset source.utf8ByteSize ≤ b} b ∧
      let before := (Span.slice ⟨0, b⟩ source).toList
      let lines := source.toList.splitOn '\n'
      let position := ofOffset source offset
      position = ⟨1 + before.count '\n', 1 + (before.reverse.takeWhile (· ≠ '\n')).length⟩ ∧
        ∃ line, lines[position.line - 1]? = some line ∧
          ['\n'].intercalate (lines.take (position.line - 1) ++
            [line.take (position.column - 1)]) = before) ∧
      ∀ b b', String.Pos.Raw.IsValid source ⟨b⟩ → String.Pos.Raw.IsValid source ⟨b'⟩ →
        (b < b' → (ofOffset source b).Precedes (ofOffset source b')) ∧
          (ofOffset source b = ofOffset source b' → b = b') := by
  constructor
  · intro offset
    obtain ⟨before, rest, hsource, hafter, hle, hleast⟩ :=
      exists_after_eq source.toList offset start
    have hposition : ofOffset source offset = behind before := by
      rw [ofOffset, hafter, foldl_advance_start]
    rw [utf8Len_toList] at hle hleast
    refine ⟨utf8Len before, ⟨⟨Span.isValid_of_append hsource, hle⟩, ?_⟩, ?_⟩
    · rintro b ⟨hvalid, hb⟩
      obtain ⟨start, after, hstart, rfl⟩ := isValid_iff_exists_split.mp hvalid
      obtain ⟨more, rfl⟩ := hleast start ⟨after, hstart.symm⟩ hb
      rw [utf8Len_append]
      exact Nat.le_add_right _ _
    · rw [Span.slice_front hsource, String.toList_ofList, hposition, hsource]
      refine ⟨?_, exists_line_behind before rest⟩
      rw [behind, Nat.add_comm 1, Nat.add_comm 1]
  · intro b b' hb hb'
    obtain ⟨before, after, hsource, rfl⟩ := isValid_iff_exists_split.mp hb
    obtain ⟨before', after', hsource', rfl⟩ := isValid_iff_exists_split.mp hb'
    rw [ofOffset_eq hsource, ofOffset_eq hsource']
    refine ⟨precedes_of_lt hsource hsource', fun heq => ?_⟩
    rcases Nat.lt_trichotomy (utf8Len before) (utf8Len before') with hlt | hsame | hlt
    · exact absurd heq (precedes_of_lt hsource hsource' hlt).ne
    · exact hsame
    · exact absurd heq.symm (precedes_of_lt hsource' hsource hlt).ne

/-- Offsets in a text with a name of two bytes in front of a line feed: an offset inside the name
has the position behind it, and the place behind the line feed has a later position. -/
theorem ofOffset_inverts_accented :
    let source := "é\nab"
    (∃ b, IsLeast {b | String.Pos.Raw.IsValid source ⟨b⟩ ∧ min 1 source.utf8ByteSize ≤ b} b ∧
        ofOffset source 1 = behind (Span.slice ⟨0, b⟩ source).toList) ∧
      String.Pos.Raw.IsValid source ⟨2⟩ ∧ String.Pos.Raw.IsValid source ⟨3⟩ ∧
      (ofOffset source 2).Precedes (ofOffset source 3) := by
  intro source
  obtain ⟨hinverts, hlater⟩ := ofOffset_inverts source
  have hname : String.Pos.Raw.IsValid source ⟨2⟩ :=
    Span.isValid_of_append (show source.toList = ['é'] ++ ['\n', 'a', 'b'] by decide +kernel)
  have hfeed : String.Pos.Raw.IsValid source ⟨3⟩ :=
    Span.isValid_of_append (show source.toList = ['é', '\n'] ++ ['a', 'b'] by decide +kernel)
  refine ⟨?_, hname, hfeed, (hlater 2 3 hname hfeed).1 (by decide)⟩
  obtain ⟨b, hleast, hposition, -⟩ := hinverts 1
  refine ⟨b, hleast, hposition.trans ?_⟩
  rw [behind, Nat.add_comm 1, Nat.add_comm 1]

end Position

end Abacus
