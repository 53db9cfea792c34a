import Abacus.Proofs.Token.Spacing
import Mathlib.Logic.Function.Iterate

/-!
# Reading with a cursor

A text can be read by a cursor that takes one character at a time. It has two views of the text: the
characters still to come, each with the byte it starts at, and the byte behind the last character
taken. It looks one character ahead in the first view and two ahead in the second, and the text of a
token is sliced out of the source between two bytes; a slice whose ends do not lie between
characters leaves it stuck.

Both views stay in step. The byte is the length of the characters taken, so that every slice lies
between characters and no cursor gets stuck. Every lexeme takes a character, so that the cursor
comes to an end, and there it has the tokens of the text or its error.
-/

namespace Abacus

open String (utf8Len utf8Len_append utf8Len_cons utf8Len_toList utf8ByteSize_ofList)

/-- The characters between the ends of a span, if the ends are in order and lie between
characters. -/
def Span.slice? (span : Span) (source : String) : Option String :=
  if span.start ≤ span.stop ∧ String.Pos.Raw.IsValid source ⟨span.start⟩ ∧
      String.Pos.Raw.IsValid source ⟨span.stop⟩ then some (span.slice source)
  else none

theorem Span.Locates.slice?_eq {span : Span} {source : String} {text : List Char}
    (h : span.Locates 0 source.toList text) : span.slice? source = some (String.ofList text) := by
  have hfits := h.fitsIn
  rw [slice?, if_pos ⟨hfits.start_le_stop, hfits.isValid_start, hfits.isValid_stop⟩, h.slice_eq]

namespace Cursor

/-- How much of a lexeme is taken. -/
inductive Scan
  /-- The first character, which decides the class. -/
  | first (c : Char)
  /-- Digits of a number. -/
  | digits
  /-- A number with its point. -/
  | fraction
  /-- Characters of a word. -/
  | word
  deriving DecidableEq

/-- What the cursor is at. -/
inductive Phase
  /-- No lexeme is begun. -/
  | ready
  /-- A lexeme that starts at a byte is partly taken. -/
  | scanning (start : Nat) (scan : Scan)
  /-- The text is read or refused. -/
  | done (result : Except Error (List Token))
  /-- A slice was asked for that the source does not have. -/
  | stuck
  deriving DecidableEq

end Cursor

/-- A cursor: the characters to come with their bytes, the byte reached, and the tokens read, latest
first. -/
structure Cursor where
  chars : List (Nat × Char)
  position : Nat
  read : List Token
  phase : Cursor.Phase

namespace Cursor

/-- The characters of a text that starts at an offset, each with its byte. -/
def indexed (offset : Nat) : List Char → List (Nat × Char)
  | [] => []
  | c :: cs => (offset, c) :: indexed (offset + c.utf8Size) cs

theorem map_snd_indexed (offset : Nat) (text : List Char) :
    (indexed offset text).map Prod.snd = text := by
  induction text generalizing offset with
  | nil => rfl
  | cons c cs ih => rw [indexed, List.map_cons, ih]

/-- The cursor in front of a text. -/
def start (source : String) : Cursor := ⟨indexed 0 source.toList, 0, [], .ready⟩

/-- The next character. -/
def peek? (s : Cursor) : Option Char := s.chars.head?.map Prod.snd

/-- The character behind the next one, found from the byte reached. -/
def peekNext? (source : String) (s : Cursor) : Option (Option Char) :=
  (Span.slice? ⟨s.position, source.utf8ByteSize⟩ source).map fun rest => rest.toList[1]?

/-- Takes the next character and goes on with a phase. -/
def advance (s : Cursor) (phase : Phase) : Cursor :=
  match s.chars with
  | [] => { s with phase }
  | (index, c) :: chars => { s with chars, position := index + c.utf8Size, phase }

/-- Ends a lexeme with a token whose text is sliced from the source. -/
def emit (source : String) (start : Nat) (kind : String → Kind) (s : Cursor) : Cursor :=
  match Span.slice? ⟨start, s.position⟩ source with
  | some text =>
    { s with read := ⟨kind text, text, ⟨start, s.position⟩⟩ :: s.read, phase := .ready }
  | none => { s with phase := .stuck }

/-- What follows from the first character of a lexeme. -/
def dispatch (source : String) (start : Nat) (c : Char) (s : Cursor) : Cursor :=
  if isGap c then { s with phase := .ready }
  else match Kind.ofSymbol? c with
    | some kind => s.emit source start fun _ => kind
    | none =>
      if c.isDigit then { s with phase := .scanning start .digits }
      else if isWordStart c then { s with phase := .scanning start .word }
      else { s with phase := .done (.error ⟨.unexpectedCharacter c, ⟨start, s.position⟩⟩) }

/-- Behind the digits of a number: a point is taken if a digit stands behind it. -/
def endDigits (source : String) (start : Nat) (s : Cursor) : Cursor :=
  if s.peek? = some '.' then
    match s.peekNext? source with
    | none => { s with phase := .stuck }
    | some next =>
      if next.any Char.isDigit then s.advance (.scanning start .fraction)
      else s.emit source start fun _ => .number
  else s.emit source start fun _ => .number

/-- One operation of the cursor. A cursor that is done or stuck stays as it is. -/
def step (source : String) (s : Cursor) : Cursor :=
  match s.phase with
  | .done _ | .stuck => s
  | .ready =>
    match s.peek? with
    | none => { s with phase := .done (.ok (Token.endOfInput s.position :: s.read).reverse) }
    | some c => s.advance (.scanning s.position (.first c))
  | .scanning start (.first c) => s.dispatch source start c
  | .scanning start .digits =>
    if s.peek?.any Char.isDigit then s.advance s.phase else s.endDigits source start
  | .scanning start .fraction =>
    if s.peek?.any Char.isDigit then s.advance s.phase else s.emit source start fun _ => .number
  | .scanning start .word =>
    if s.peek?.any isWordPart then s.advance s.phase else s.emit source start .ofWord

section Progress

variable {source : String} {s t : Cursor} {phase : Phase}

/-- How much may still happen before a character is taken. -/
def Phase.rank : Phase → Nat
  | .done _ | .stuck => 0
  | .ready => 1
  | .scanning _ (.first _) => 3
  | .scanning _ _ => 2

section

variable {start : Nat} {result : Except Error (List Token)}

@[simp] theorem Phase.rank_done : (Phase.done result).rank = 0 := rfl
@[simp] theorem Phase.rank_stuck : Phase.stuck.rank = 0 := rfl
@[simp] theorem Phase.rank_ready : Phase.ready.rank = 1 := rfl
@[simp] theorem Phase.rank_first {c : Char} : (Phase.scanning start (.first c)).rank = 3 := rfl
@[simp] theorem Phase.rank_digits : (Phase.scanning start .digits).rank = 2 := rfl
@[simp] theorem Phase.rank_fraction : (Phase.scanning start .fraction).rank = 2 := rfl
@[simp] theorem Phase.rank_word : (Phase.scanning start .word).rank = 2 := rfl

end

/-- What an operation does to the characters to come: nothing at all in the end, or it leaves them
and lowers the rank, or it takes the first of them. -/
inductive Moves (s : Cursor) : Cursor → Prop
  | halt : s.phase.rank = 0 → Moves s s
  | stay {t : Cursor} : t.chars = s.chars → t.phase.rank < s.phase.rank →
    (s.phase = .ready → s.chars = []) → Moves s t
  | take {t : Cursor} {p : Nat × Char} : s.chars = p :: t.chars →
    t.phase.rank ≤ s.phase.rank + 2 → Moves s t

/-- With a character to come, an advance takes it. -/
theorem moves_advance {c : Char} (hpeek : s.peek? = some c)
    (hrank : phase.rank ≤ s.phase.rank + 2) : Moves s (s.advance phase) := by
  obtain ⟨p, hp, -⟩ := Option.map_eq_some_iff.mp hpeek
  obtain ⟨chars, hchars⟩ := List.head?_eq_some_iff.mp hp
  exact .take (p := p) (by simp [advance, hchars]) (by simpa [advance, hchars] using hrank)

theorem moves_emit (start : Nat) (kind : String → Kind) (h : 2 ≤ s.phase.rank) :
    Moves s (s.emit source start kind) := by
  have hready : s.phase = .ready → s.chars = [] := by
    intro heq
    simp [heq] at h
  unfold emit
  split
  · exact .stay rfl h hready
  · exact .stay rfl (Nat.lt_of_lt_of_le Nat.zero_lt_two h) hready

theorem moves_dispatch {start : Nat} {c : Char} (h : s.phase = .scanning start (.first c)) :
    Moves s (s.dispatch source start c) := by
  unfold dispatch
  split
  · exact .stay rfl (by simp [h]) (by simp [h])
  · split
    · exact moves_emit start _ (by simp [h])
    · split
      · exact .stay rfl (by simp [h]) (by simp [h])
      · split
        · exact .stay rfl (by simp [h]) (by simp [h])
        · exact .stay rfl (by simp [h]) (by simp [h])

theorem moves_endDigits {start : Nat} (h : s.phase = .scanning start .digits) :
    Moves s (s.endDigits source start) := by
  unfold endDigits
  split
  · next hpeek =>
    split
    · exact .stay rfl (by simp [h]) (by simp [h])
    · split
      · exact moves_advance hpeek (by simp)
      · exact moves_emit start _ (by simp [h])
  · exact moves_emit start _ (by simp [h])

/-- Inside a lexeme a character that belongs to it is taken. -/
theorem moves_of_any {p : Char → Bool} (h : s.peek?.any p = true) :
    Moves s (s.advance s.phase) := by
  obtain ⟨c, hc, -⟩ := (Option.any_eq_true _ _).mp h
  exact moves_advance hc (Nat.le_add_right _ _)

/-- Every operation moves the cursor or finds it at the end. -/
theorem moves_step (source : String) (s : Cursor) : Moves s (step source s) := by
  unfold step
  split
  · next h => exact .halt (by simp [h])
  · next h => exact .halt (by simp [h])
  · next h =>
    split
    · next hpeek => exact .stay rfl (by simp [h]) fun _ => by simpa [peek?] using hpeek
    · next hpeek => exact moves_advance hpeek (by simp [h])
  · next h => exact moves_dispatch h
  · next h =>
    split
    · next hdigit => exact moves_of_any hdigit
    · exact moves_endDigits h
  · next h =>
    split
    · next hdigit => exact moves_of_any hdigit
    · exact moves_emit _ _ (by simp [h])
  · next h =>
    split
    · next hpart => exact moves_of_any hpart
    · exact moves_emit _ _ (by simp [h])

/-- An operation only ever takes characters. -/
theorem Moves.length_le (h : Moves s t) : t.chars.length ≤ s.chars.length := by
  cases h with
  | halt _ => exact Nat.le_refl _
  | stay hchars _ _ => rw [hchars]
  | take hchars _ => simp [hchars]

/-- An operation that begins a lexeme takes a character. -/
theorem Moves.length_lt (h : Moves s t) (hready : s.phase = .ready) (hne : s.chars ≠ []) :
    t.chars.length < s.chars.length := by
  cases h with
  | halt hrank =>
    rw [hready] at hrank
    cases hrank
  | stay _ _ hnil => exact absurd (hnil hready) hne
  | take hchars _ => simp [hchars]

/-- A bound on the operations to come. -/
def weight (s : Cursor) : Nat := 3 * s.chars.length + s.phase.rank

/-- Every operation of a cursor that has not stopped lowers the bound. -/
theorem Moves.weight_lt (h : Moves s t) (hrank : s.phase.rank ≠ 0) : t.weight < s.weight := by
  cases h with
  | halt hzero => exact absurd hzero hrank
  | stay hchars hlt _ =>
    rw [weight, weight, hchars]
    omega
  | take hchars hle =>
    rw [weight, weight, hchars, List.length_cons]
    omega

/-- A cursor that has stopped stays as it is. -/
theorem step_eq_self (h : s.phase.rank = 0) : step source s = s := by
  unfold step
  split
  · rfl
  · rfl
  all_goals
    next hphase =>
      rw [hphase] at h
      cases h

theorem weight_start (source : String) : (start source).weight = 3 * source.length + 1 := by
  rw [weight, start, ← List.length_map Prod.snd, map_snd_indexed, String.length_toList,
    Phase.rank_ready]

/-- The characters to come get no more. -/
theorem length_iterate_le (source : String) (s : Cursor) (n : Nat) :
    ((step source)^[n] s).chars.length ≤ s.chars.length := by
  induction n with
  | zero => exact Nat.le_refl _
  | succ n ih =>
    rw [Function.iterate_succ_apply']
    exact (moves_step source _).length_le.trans ih

/-- After as many operations as its weight a cursor has stopped. -/
theorem rank_iterate_eq_zero (source : String) {s : Cursor} {n : Nat} (h : s.weight ≤ n) :
    ((step source)^[n] s).phase.rank = 0 := by
  induction n generalizing s with
  | zero =>
    rw [weight] at h
    exact Nat.eq_zero_of_add_eq_zero_left (Nat.le_zero.mp h)
  | succ n ih =>
    rw [Function.iterate_succ_apply]
    by_cases hrank : s.phase.rank = 0
    · rw [step_eq_self hrank, Function.iterate_fixed (step_eq_self hrank), hrank]
    · have hlt := (moves_step source s).weight_lt hrank
      exact ih (by omega)

end Progress

section Agreement

variable {source : String} {s : Cursor} {consumed rest : List Char}

/-- The characters taken of a lexeme, in front of those to come. -/
inductive Scan.Takes : Scan → List Char → List Char → Prop
  | first {c : Char} {rest : List Char} : Takes (.first c) [c] rest
  | digits {text rest : List Char} : IsDigitRun text → Takes .digits text rest
  | fraction {digits places rest : List Char} : IsDigitRun digits →
    (∀ c ∈ places, c.isDigit = true) → (places = [] → rest.head?.any Char.isDigit = true) →
    Takes .fraction (digits ++ '.' :: places) rest
  | word {text rest : List Char} : IsWord text → Takes .word text rest

/-- A phase with the tokens read, the characters taken and those to come: reading on from it gives
what the whole source gives. -/
inductive Phase.Leads (source : String) (read : List Token) :
    Phase → List Char → List Char → Prop
  | ready {consumed rest : List Char} :
    tokenizeFrom (utf8Len consumed) read rest = tokenize source →
    Leads source read .ready consumed rest
  | scanning {before text rest : List Char} {scan : Scan} : scan.Takes text rest →
    tokenizeFrom (utf8Len before) read (text ++ rest) = tokenize source →
    Leads source read (.scanning (utf8Len before) scan) (before ++ text) rest
  | done {consumed rest : List Char} : Leads source read (.done (tokenize source)) consumed rest

/-- A cursor whose two views agree: the source is split into the characters taken and those to
come, and the byte reached is the length of the former. -/
structure Agrees (source : String) (s : Cursor) (consumed rest : List Char) : Prop where
  split : source.toList = consumed ++ rest
  chars_eq : s.chars = indexed (utf8Len consumed) rest
  position_eq : s.position = utf8Len consumed
  leads : s.phase.Leads source s.read consumed rest

namespace Agrees

theorem map_snd_chars (h : Agrees source s consumed rest) : s.chars.map Prod.snd = rest := by
  rw [h.chars_eq, map_snd_indexed]

theorem peek?_eq (h : Agrees source s consumed rest) : s.peek? = rest.head? := by
  rw [peek?, ← List.head?_map, h.map_snd_chars]

/-- The next character is the one at the byte reached. -/
theorem get?_eq (h : Agrees source s consumed rest) :
    String.Pos.Raw.get? source ⟨s.position⟩ = s.peek? := by
  rw [h.peek?_eq, h.position_eq, ← String.ofList_toList (s := source), h.split]
  exact String.get?_of_valid consumed rest

/-- The byte reached is that of the next character, or the end of the source. -/
theorem position_eq_head (h : Agrees source s consumed rest) :
    s.position = (s.chars.head?.map Prod.fst).getD source.utf8ByteSize := by
  rw [h.chars_eq, h.position_eq]
  cases rest with
  | nil => simp [indexed, ← utf8Len_toList, h.split]
  | cons c cs => rfl

/-- The text from the byte reached on is that of the characters to come. -/
theorem locates_rest (h : Agrees source s consumed rest) :
    Span.Locates ⟨s.position, source.utf8ByteSize⟩ 0 source.toList rest := by
  refine ⟨consumed, [], by simp [h.split], by simp [h.position_eq], ?_⟩
  rw [← utf8Len_toList, h.split, utf8Len_append, h.position_eq]

theorem peekNext?_eq (h : Agrees source s consumed rest) :
    s.peekNext? source = some rest[1]? := by
  rw [peekNext?, h.locates_rest.slice?_eq, Option.map_some, String.toList_ofList]

/-- The characters taken of a lexeme stand between its start and the byte reached. -/
theorem locates_taken {before text : List Char} (h : Agrees source s (before ++ text) rest) :
    Span.Locates ⟨utf8Len before, s.position⟩ 0 source.toList text := by
  refine ⟨before, rest, by rw [h.split, List.append_assoc], by simp, ?_⟩
  rw [h.position_eq, utf8Len_append]

/-- Taking a character keeps the views in step. -/
theorem advance {c : Char} {phase : Phase} (h : Agrees source s consumed (c :: rest))
    (hleads : phase.Leads source s.read (consumed ++ [c]) rest) :
    Agrees source (s.advance phase) (consumed ++ [c]) rest := by
  have hlen : utf8Len (consumed ++ [c]) = utf8Len consumed + c.utf8Size := by
    simp [utf8Len_append]
  have hchars : s.chars = (utf8Len consumed, c) :: indexed (utf8Len (consumed ++ [c])) rest := by
    rw [h.chars_eq, hlen]
    rfl
  have hadvance : s.advance phase = { s with
      chars := indexed (utf8Len (consumed ++ [c])) rest
      position := utf8Len (consumed ++ [c])
      phase } := by
    rw [Cursor.advance, hchars, hlen]
  rw [hadvance]
  exact ⟨by rw [h.split, List.append_assoc]; rfl, rfl, rfl, hleads⟩

/-- A change of phase alone keeps the views in step. -/
theorem withPhase {phase : Phase} (h : Agrees source s consumed rest)
    (hleads : phase.Leads source s.read consumed rest) :
    Agrees source { s with phase } consumed rest :=
  ⟨h.split, h.chars_eq, h.position_eq, hleads⟩

/-- A lexeme that is taken whole is emitted as its token. -/
theorem emit {before tail : List Char} {c : Char} {kind : String → Kind}
    (h : Agrees source s (before ++ c :: tail) rest)
    (hcut : Lexeme.cut? c (tail ++ rest) =
      some ⟨some (kind (String.ofList (c :: tail))), c :: tail, rest⟩)
    (hread : tokenizeFrom (utf8Len before) s.read (c :: tail ++ rest) = tokenize source) :
    Agrees source (s.emit source (utf8Len before) kind) (before ++ c :: tail) rest := by
  have hslice := h.locates_taken.slice?_eq
  unfold Cursor.emit
  rw [hslice]
  refine ⟨h.split, h.chars_eq, h.position_eq, .ready ?_⟩
  rw [List.cons_append, tokenizeFrom_of_some hcut] at hread
  simp only [Lexeme.tokens, utf8ByteSize_ofList, List.singleton_append] at hread
  rw [h.position_eq, utf8Len_append]
  exact hread

/-- The first character of a lexeme decides how it goes on. -/
theorem dispatch {before : List Char} {c : Char} (h : Agrees source s (before ++ [c]) rest)
    (hread : tokenizeFrom (utf8Len before) s.read (c :: rest) = tokenize source) :
    Agrees source (s.dispatch source (utf8Len before) c) (before ++ [c]) rest := by
  have hposition : s.position = utf8Len before + c.utf8Size := by
    rw [h.position_eq, utf8Len_append]
    simp
  unfold Cursor.dispatch
  split
  · next hgap =>
    have hcut : Lexeme.cut? c rest = some ⟨none, [c], rest⟩ := by simp [Lexeme.cut?, hgap]
    refine h.withPhase (.ready ?_)
    rw [← hread, tokenizeFrom_of_some hcut, utf8ByteSize_ofList, utf8Len_append]
    rfl
  · next hgap =>
    split
    · next kind hsymbol => exact h.emit (by simp [Lexeme.cut?, hgap, hsymbol]) hread
    · next hsymbol =>
      split
      · next hdigit =>
        exact h.withPhase (.scanning (.digits ⟨by simp, by simpa using hdigit⟩) hread)
      · next hdigit =>
        split
        · next hword =>
          exact h.withPhase (.scanning (.word ⟨c, [], rfl, hword, by simp⟩) hread)
        · next hword =>
          have hcut : Lexeme.cut? c rest = none := by
            simp [Lexeme.cut?, hgap, hsymbol, hdigit, hword]
          rw [tokenizeFrom_of_none hcut, ← hposition] at hread
          rw [hread]
          exact h.withPhase .done

/-- A number that is taken whole is emitted. -/
theorem emit_number {before text : List Char} (h : Agrees source s (before ++ text) rest)
    (hnumber : IsPlainNumber text) (hcut : cutNumber (text ++ rest) = (text, rest))
    (hread : tokenizeFrom (utf8Len before) s.read (text ++ rest) = tokenize source) :
    Agrees source (s.emit source (utf8Len before) fun _ => .number) (before ++ text) rest := by
  obtain ⟨c, tail, rfl, hc⟩ := hnumber.exists_head
  exact h.emit (Lexeme.cut?_of_cutNumber hc hcut) hread

/-- Digits go on with a point that has a digit behind it, and end in front of anything else. -/
theorem endDigits {before text : List Char} (h : Agrees source s (before ++ text) rest)
    (hd : IsDigitRun text) (hrest : ∀ c ∈ rest.head?, c.isDigit = false)
    (hread : tokenizeFrom (utf8Len before) s.read (text ++ rest) = tokenize source) :
    ∃ consumed' rest', Agrees source (s.endDigits source (utf8Len before)) consumed' rest' := by
  have hwhole (hpoint : ∀ d more, rest = '.' :: d :: more → d.isDigit = false) :=
    h.emit_number (.whole hd) (cutNumber_of_whole hd hrest hpoint) hread
  unfold Cursor.endDigits
  rw [h.peek?_eq, h.peekNext?_eq]
  split
  · next hpoint =>
    obtain ⟨more, rfl⟩ := List.head?_eq_some_iff.mp hpoint
    dsimp only
    split
    · next hdigit =>
      have hmore : more.head?.any Char.isDigit = true := by
        rwa [List.head?_eq_getElem?]
      refine ⟨_, _, h.advance ?_⟩
      rw [List.append_assoc]
      refine .scanning (.fraction hd (by simp) fun _ => hmore) ?_
      rwa [List.append_assoc]
    · next hdigit =>
      refine ⟨_, _, hwhole ?_⟩
      intro d more' heq
      simpa [(List.cons.inj heq).2] using hdigit
  · next hpoint =>
    refine ⟨_, _, hwhole ?_⟩
    rintro d more rfl
    exact absurd rfl hpoint

/-- A character that belongs to a lexeme is taken with it. -/
theorem extend {before text : List Char} {scan : Scan} {p : Char → Bool}
    (h : Agrees source s (before ++ text) rest) (hp : rest.head?.any p = true)
    (htakes : ∀ c more, p c = true → scan.Takes (text ++ [c]) more)
    (hread : tokenizeFrom (utf8Len before) s.read (text ++ rest) = tokenize source) :
    ∃ consumed' rest',
      Agrees source (s.advance (.scanning (utf8Len before) scan)) consumed' rest' := by
  obtain ⟨c, hc, hpc⟩ := (Option.any_eq_true _ _).mp hp
  obtain ⟨more, rfl⟩ := List.head?_eq_some_iff.mp hc
  refine ⟨_, _, h.advance ?_⟩
  rw [List.append_assoc]
  refine .scanning (htakes c more hpc) ?_
  rwa [List.append_assoc]

/-- Every operation inside a lexeme keeps the views in step. -/
theorem step_scanning {before text : List Char} {scan : Scan}
    (h : Agrees source s (before ++ text) rest) (hphase : s.phase = .scanning (utf8Len before) scan)
    (htakes : scan.Takes text rest)
    (hread : tokenizeFrom (utf8Len before) s.read (text ++ rest) = tokenize source) :
    ∃ consumed' rest', Agrees source (step source s) consumed' rest' := by
  have hstop {p : Char → Bool} (hp : ¬ rest.head?.any p = true) :
      ∀ c ∈ rest.head?, p c = false := by
    intro c hc
    simpa [Option.mem_def.mp hc] using hp
  cases htakes with
  | first =>
    simp only [Cursor.step, hphase]
    exact ⟨_, _, h.dispatch hread⟩
  | digits hd =>
    simp only [Cursor.step, hphase, h.peek?_eq]
    split
    · next hdigit =>
      exact h.extend hdigit (fun c _ hc => .digits (IsDigitRun.concat hd hc)) hread
    · next hdigit => exact h.endDigits hd (hstop hdigit) hread
  | @fraction digits places _ hd hp hfirst =>
    simp only [Cursor.step, hphase, h.peek?_eq]
    split
    · next hdigit =>
      refine h.extend hdigit (fun c more hc => ?_) hread
      rw [List.append_assoc, List.cons_append]
      exact .fraction hd (List.forall_mem_append.mpr ⟨hp, by simpa using hc⟩) (by simp)
    · next hdigit =>
      have hplaces : IsDigitRun places := ⟨fun hnil => hdigit (hfirst hnil), hp⟩
      exact ⟨_, _, h.emit_number (.fraction hd hplaces)
        (cutNumber_of_fraction hd hplaces (hstop hdigit)) hread⟩
  | word hw =>
    obtain ⟨d, tail, rfl, hd, htail⟩ := hw
    simp only [Cursor.step, hphase, h.peek?_eq]
    split
    · next hpart =>
      refine h.extend hpart (fun c more hc => .word ⟨d, tail ++ [c], rfl, hd, ?_⟩) hread
      exact List.forall_mem_append.mpr ⟨htail, by simpa using hc⟩
    · next hpart =>
      exact ⟨_, _, h.emit (Lexeme.cut?_of_isWordStart hd htail (hstop hpart)) hread⟩

/-- Every operation keeps the views in step. -/
theorem step (h : Agrees source s consumed rest) :
    ∃ consumed' rest', Agrees source (step source s) consumed' rest' := by
  have hleads := h.leads
  generalize hphase : s.phase = phase at hleads
  cases hleads with
  | done =>
    simp only [Cursor.step, hphase]
    exact ⟨_, _, h⟩
  | scanning htakes hread => exact h.step_scanning hphase htakes hread
  | ready hread =>
    simp only [Cursor.step, hphase, h.peek?_eq]
    cases rest with
    | nil =>
      rw [tokenizeFrom_nil, ← h.position_eq] at hread
      rw [hread]
      exact ⟨_, _, h.withPhase .done⟩
    | cons c cs =>
      rw [h.position_eq]
      exact ⟨_, _, h.advance (.scanning .first hread)⟩

/-- What is taken of a lexeme lies between characters. -/
theorem fitsIn (h : Agrees source s consumed rest) {start : Nat} {scan : Scan}
    (hphase : s.phase = .scanning start scan) :
    Span.FitsIn ⟨start, s.position⟩ source ∧
      Span.slice? ⟨start, s.position⟩ source = some (Span.slice ⟨start, s.position⟩ source) := by
  have hleads := h.leads
  rw [hphase] at hleads
  cases hleads with
  | scanning _ _ =>
    have hplace := h.locates_taken
    exact ⟨hplace.fitsIn, by rw [hplace.slice?_eq, hplace.slice_eq]⟩

theorem phase_ne_stuck (h : Agrees source s consumed rest) : s.phase ≠ .stuck := by
  intro hphase
  have hleads := h.leads
  rw [hphase] at hleads
  cases hleads

/-- A cursor that has stopped has read the source. -/
theorem phase_eq_done (h : Agrees source s consumed rest) (hrank : s.phase.rank = 0) :
    s.phase = .done (tokenize source) := by
  have hleads := h.leads
  generalize s.phase = phase at hleads hrank
  cases hleads with
  | done => rfl
  | ready _ => cases hrank
  | scanning htakes _ => cases htakes <;> cases hrank

end Agrees

/-- The views of every cursor that is reached agree. -/
theorem exists_agrees (source : String) (n : Nat) :
    ∃ consumed rest, Agrees source ((step source)^[n] (start source)) consumed rest := by
  induction n with
  | zero => exact ⟨[], source.toList, rfl, rfl, rfl, .ready rfl⟩
  | succ n ih =>
    obtain ⟨consumed, rest, h⟩ := ih
    rw [Function.iterate_succ_apply']
    exact h.step

end Agreement

/-- The two views of a cursor agree after any number of operations. The byte reached is the length
of the characters taken, lies between characters, and is the byte of the next character or the
length of the source; looking ahead finds the first and the second character to come; and every
slice for a lexeme lies between characters, so that the cursor is never stuck. A lexeme that is
begun takes a character at once, so that the cursor comes to an end, with the tokens of the source
or its error. -/
theorem iterate_step_agrees (source : String) (n : Nat) :
    let s := (step source)^[n] (start source)
    (∃ consumed rest, source.toList = consumed ++ rest ∧ s.chars.map Prod.snd = rest ∧
      s.position = utf8Len consumed ∧ String.Pos.Raw.IsValid source ⟨s.position⟩ ∧
      s.position = (s.chars.head?.map Prod.fst).getD source.utf8ByteSize ∧
      String.Pos.Raw.get? source ⟨s.position⟩ = s.peek? ∧
      s.peek? = rest.head? ∧ s.peekNext? source = some rest[1]?) ∧
    (∀ start scan, s.phase = .scanning start scan →
      Span.FitsIn ⟨start, s.position⟩ source ∧
        Span.slice? ⟨start, s.position⟩ source = some (Span.slice ⟨start, s.position⟩ source)) ∧
    s.phase ≠ .stuck ∧
    (s.phase = .ready → s.chars ≠ [] → ∀ m,
      ((step source)^[m + 1] s).chars.length < s.chars.length) ∧
    (3 * source.length < n → s.phase = .done (tokenize source)) := by
  intro s
  obtain ⟨consumed, rest, h⟩ := exists_agrees source n
  refine ⟨⟨consumed, rest, h.split, h.map_snd_chars, h.position_eq, ?_, h.position_eq_head,
    h.get?_eq, h.peek?_eq, h.peekNext?_eq⟩, fun _ _ hphase => h.fitsIn hphase, h.phase_ne_stuck,
    ?_, ?_⟩
  · rw [h.position_eq]
    exact Span.isValid_of_append h.split
  · intro hready hne m
    rw [Function.iterate_succ_apply]
    exact (length_iterate_le source _ m).trans_lt ((moves_step source s).length_lt hready hne)
  · intro hlong
    apply h.phase_eq_done
    apply rank_iterate_eq_zero
    rw [weight_start]
    exact hlong

/-- A name of two bytes and a number in front of a point: the cursor looks past the point from the
byte reached, can slice the number, and is refused at the point. -/
theorem iterate_step_agrees_point :
    let source := "é 2.x"
    let s := (step source)^[7] (start source)
    (s.phase = .scanning 3 .digits ∧ s.position = 4 ∧ s.peekNext? source = some (some 'x') ∧
        Span.FitsIn ⟨3, s.position⟩ source) ∧
      3 * source.length < 16 ∧ ((step source)^[16] (start source)).phase =
        .done (.error ⟨.unexpectedCharacter '.', ⟨4, 5⟩⟩) := by
  intro source s
  have hphase : s.phase = .scanning 3 .digits := by decide +kernel
  have hlength : 3 * source.length < 16 := by decide
  have htokens : tokenize source = .error ⟨.unexpectedCharacter '.', ⟨4, 5⟩⟩ := by decide +kernel
  obtain ⟨-, hfits, -⟩ := iterate_step_agrees source 7
  obtain ⟨-, -, -, -, hdone⟩ := iterate_step_agrees source 16
  refine ⟨⟨hphase, by decide +kernel, by decide +kernel, (hfits 3 .digits hphase).1⟩, hlength, ?_⟩
  rw [← htokens]
  exact hdone hlength

end Cursor
end Abacus
