import Abacus.Proofs.Grammar.Correspondence
import Abacus.Proofs.Program.RoundTrip
import Abacus.Proofs.Token.Spacing

/-!
# Texts side by side

A text behind another one and a blank is read as it is alone, only later: its tokens and its errors
move by the bytes in front of it. Where the first text means a program and the second starts with no
operator, the statements of the first are complete at the blank, and the second is parsed as it is
alone, behind these statements.
-/

namespace Abacus

open Grammar Abacus.Parser
open String (utf8Len utf8Len_append utf8Len_cons utf8Len_toList utf8ByteSize_ofList)

/-- The span a number of bytes further on. -/
def Span.shift (n : Nat) (s : Span) : Span := ⟨s.start + n, s.stop + n⟩

/-- The token a number of bytes further on. -/
def Token.shift (n : Nat) (t : Token) : Token := { t with span := t.span.shift n }

/-- The cause with the spans in it a number of bytes further on. -/
def Cause.shift (n : Nat) : Cause → Cause
  | unclosedParenthesis found openedAt => unclosedParenthesis found (openedAt.shift n)
  | cause => cause

/-- The error a number of bytes further on. -/
def Error.shift (n : Nat) (e : Error) : Error := ⟨e.cause.shift n, e.span.shift n⟩

/-- What reading gives a number of bytes further on. -/
def shiftRead (n : Nat) : Except Error (List Token) → Except Error (List Token)
  | .ok tokens => .ok (tokens.map (Token.shift n))
  | .error e => .error (e.shift n)

section Reading

/-- A longest match stays one when a character that continues nothing and more text is put behind
the source. -/
theorem IsLongest.append_cons {source text rest : List Char} {kind : Option Kind}
    (h : IsLongest source kind text rest) {c : Char} (hc : ∀ left : Kind, left.continues c = false)
    (more : List Char) :
    IsLongest (source ++ c :: more) kind text (rest ++ c :: more) where
  split := by rw [h.split, List.append_assoc]
  ne_nil := h.ne_nil
  matches_text := h.matches_text
  longest other start hs hm := by
    rcases prefix_append_cases hs with hs | ⟨beyond, rfl, hbeyond⟩
    · exact h.longest other start hs hm
    · cases beyond with
      | nil =>
        rw [List.append_nil] at hm ⊢
        exact h.longest other source List.prefix_rfl hm
      | cons d beyond =>
        -- A text of a class that reaches the character would go on with it.
        obtain ⟨rfl, -⟩ := List.cons_prefix_cons.mp hbeyond
        obtain ⟨s, tail, hsource⟩ : ∃ s tail, source = s :: tail :=
          List.exists_cons_of_ne_nil (by simp [h.split, h.ne_nil])
        rw [hsource] at hm
        obtain ⟨kind', -, hcontinues⟩ := hm.exists_continues (d := d) (by simp)
        rw [hc] at hcontinues
        cases hcontinues

/-- Reading from a later offset moves the tokens, or the error. -/
theorem Munches.shift {offset : Nat} {text : List Char} {result : Except Error (List Token)}
    (h : Munches offset text result) (n : Nat) :
    Munches (offset + n) text (shiftRead n result) := by
  induction h with
  | finish offset => exact .finish (offset + n)
  | @stuck offset c cs hstuck =>
    have hspan : Span.shift n ⟨offset, offset + c.utf8Size⟩ =
        ⟨offset + n, offset + n + c.utf8Size⟩ := by
      rw [Span.shift, Nat.add_right_comm]
    rw [shiftRead, Error.shift, hspan]
    exact .stuck hstuck
  | gap hl _ ih =>
    rw [Nat.add_right_comm] at ih
    exact .gap hl ih
  | @token offset source text rest kind result hl _ ih =>
    rw [Nat.add_right_comm] at ih
    have hm := Munches.token hl ih
    cases result with
    | error e => exact hm
    | ok tokens =>
      rw [shiftRead, Except.map, Nat.add_right_comm] at hm
      exact hm

/-- A text behind one that is read to its end is read behind its tokens, if it starts with a
character that continues nothing. -/
theorem Munches.append_cons {offset last : Nat} {text rest : List Char} {ts : List Token}
    {result : Except Error (List Token)} (h : Munches offset text (.ok (ts ++ [.endOfInput last])))
    {c : Char} (hc : ∀ left : Kind, left.continues c = false)
    (hrest : Munches (offset + utf8Len text) (c :: rest) result) :
    Munches offset (text ++ c :: rest) (result.map (ts ++ ·)) := by
  generalize hread : Except.ok (ts ++ [.endOfInput last]) = read at h
  induction h generalizing ts with
  | finish offset =>
    cases ts with
    | nil => cases result <;> exact hrest
    | cons t ts => simp at hread
  | stuck _ => cases hread
  | @gap offset source text rest' read hl _ ih =>
    refine .gap (hl.append_cons hc rest) (ih ?_ hread)
    rwa [utf8ByteSize_ofList, Nat.add_assoc, ← utf8Len_append, ← hl.split]
  | @token offset source text rest' kind read hl _ ih =>
    cases read with
    | error e => cases hread
    | ok tail =>
      cases ts with
      | nil =>
        obtain ⟨rfl, -⟩ := Token.mk.inj (List.cons.inj (Except.ok.inj hread)).1
        cases hl.matches_text
      | cons t ts =>
        obtain ⟨rfl, htail⟩ := List.cons.inj (Except.ok.inj hread)
        have hm := Munches.token (hl.append_cons hc rest) (ih ?_ (congrArg Except.ok htail))
        · cases result <;> exact hm
        · rwa [utf8ByteSize_ofList, Nat.add_assoc, ← utf8Len_append, ← hl.split]

theorem utf8Size_of_isGap {c : Char} (hc : isGap c = true) : c.utf8Size = 1 := by
  simp only [isGap, Bool.or_eq_true, decide_eq_true_eq] at hc
  rcases hc with ((rfl | rfl) | rfl) | rfl <;> rfl

/-- A text behind one that is read to its end and a blank is read as it is alone, further on. -/
theorem tokenize_append_gap {first : String} {ts : List Token} {last : Nat}
    (h : tokenize first = .ok (ts ++ [.endOfInput last])) {c : Char} (hc : isGap c = true)
    (second : String) :
    tokenize (first ++ String.singleton c ++ second) =
      (shiftRead (first.utf8ByteSize + 1) (tokenize second)).map (ts ++ ·) := by
  apply Munches.tokenize_eq
  have hfirst := munches_tokenize first
  rw [h] at hfirst
  have hgap : ∀ d ∈ [c], isGap d = true := by simpa using hc
  have hsecond : Munches (0 + utf8Len first.toList) ([c] ++ second.toList)
      (shiftRead (first.utf8ByteSize + 1) (tokenize second)) := by
    rw [munches_gap_iff hgap, utf8Len_toList, utf8Len_cons, utf8Size_of_isGap hc, Nat.add_assoc]
    exact (munches_tokenize second).shift _
  have hjoined := hfirst.append_cons (continues_of_isGap hc) hsecond
  simpa using hjoined

end Reading

section Parsing

/-- Where the end of input ends the last statement, a token that is no operator is taken as between
statements. -/
theorem exists_between_of_end {state state' : State} {closing : Token}
    (hclosing : closing.kind = .endOfInput) (h : step state closing = .ok state') :
    ∃ body, state' = .between body ∧ ∀ t : Token, t.kind.multiplicative? = none →
      t.kind.additive? = none → step state t = step (.between body) t := by
  obtain ⟨body, rfl, rfl⟩ | ⟨body, sum, v, total, rfl, htotal, rfl⟩ := step_end_cases hclosing h
  · exact ⟨body, rfl, fun _ _ _ => rfl⟩
  · refine ⟨total.expr :: body, rfl, ?_⟩
    intro t hm ha
    rw [step_afterSum _ _ _ _ hm ha, htotal]
    rfl

/-- Behind tokens that are parsed to a program, a token that is no operator starts afresh. -/
theorem run_append_of_parse {ts : List Token} {offset : Nat} {p : Program}
    (hts : ∀ t ∈ ts, t.kind ≠ .endOfInput) (h : parse (ts ++ [.endOfInput offset]) = .ok p)
    {t : Token} (hm : t.kind.multiplicative? = none) (ha : t.kind.additive? = none)
    (us : List Token) :
    run (.between []) (ts ++ t :: us) = run (.between p.body.reverse) (t :: us) := by
  rw [parse_concat hts, run_append] at h
  rw [run_append]
  cases hrun : run (.between []) ts with
  | error e => rw [hrun] at h; cases h
  | ok state =>
    rw [hrun, Except.bind, run_singleton] at h
    cases hstep : step state (.endOfInput offset) with
    | error e => rw [hstep] at h; cases h
    | ok state' =>
      rw [hstep] at h
      obtain ⟨body, rfl, hbetween⟩ := exists_between_of_end rfl hstep
      obtain rfl : ⟨body.reverse⟩ = p := Except.ok.inj h
      rw [Except.bind, run_cons, run_cons, hbetween t hm ha, List.reverse_reverse]

theorem keepsReading_shift (n : Nat) : KeepsReading fun t u => u = t.shift n where
  kind_eq := by rintro t _ rfl; rfl
  text_eq := by rintro t _ rfl _; rfl

/-- Errors of one cause at shifted tokens are shifted errors. -/
theorem Grammar.SameError.eq_shift {n : Nat} {e e' : Error}
    (h : SameError (fun t u => u = t.shift n) e e') : e' = e.shift n := by
  cases h with
  | unexpectedToken h | invalidNumber h | invalidStatement h => rw [h]; rfl
  | unclosedParenthesis h hopen =>
    obtain ⟨opening, _, rfl, rfl, rfl⟩ := hopen
    rw [h]
    rfl
  | nestingTooDeep hspan =>
    obtain ⟨t, _, rfl, rfl, rfl⟩ := hspan
    rfl

/-- Tokens that start with no operator are parsed behind those of a program as they are alone. -/
theorem parse_append_shift {ts us : List Token} {last last' : Nat} {p : Program}
    (hts : ∀ t ∈ ts, t.kind ≠ .endOfInput) (hus : ∀ u ∈ us, u.kind ≠ .endOfInput)
    (h : parse (ts ++ [Token.endOfInput last]) = .ok p)
    (hnext : ∀ t ∈ (us ++ [Token.endOfInput last']).head?,
      t.kind.multiplicative? = none ∧ t.kind.additive? = none) (n : Nat) :
    SameResult (fun t u => u = t.shift n) (fun q r => r = ⟨p.body ++ q.body⟩)
      (parse (us ++ [Token.endOfInput last']))
      (parse (ts ++ (us ++ [Token.endOfInput last']).map (Token.shift n))) := by
  have hclosed : ts ++ (us ++ [Token.endOfInput last']).map (Token.shift n) =
      ts ++ us.map (Token.shift n) ++ [Token.endOfInput (last' + n)] := by
    rw [List.map_append, List.append_assoc]
    rfl
  have hend : ∀ t ∈ ts ++ us.map (Token.shift n), t.kind ≠ .endOfInput := by
    intro t ht
    rcases List.mem_append.mp ht with ht | ht
    · exact hts t ht
    · obtain ⟨u, hu, rfl⟩ := List.mem_map.mp ht
      exact hus u hu
  rw [hclosed, parse_concat hend, parse_concat hus, ← hclosed]
  obtain ⟨t, rest, hstream⟩ : ∃ t rest, us ++ [Token.endOfInput last'] = t :: rest :=
    List.exists_cons_of_ne_nil (by simp)
  rw [hstream] at hnext ⊢
  obtain ⟨hm, ha⟩ := hnext t rfl
  have hm' : (t.shift n).kind.multiplicative? = none := hm
  rw [List.map_cons, run_append_of_parse hts h hm' ha, ← List.map_cons]
  have hsame : List.Forall₂ (fun t u => u = t.shift n) (t :: rest)
      ((t :: rest).map (Token.shift n)) := by
    rw [List.forall₂_map_right_iff, List.forall₂_same]
    exact fun _ _ => rfl
  have hstart : SameState (fun t u => u = t.shift n) p.body.reverse (.between [])
      (.between p.body.reverse) := .between []
  refine (sameResult_run (keepsReading_shift n) hstart hsame).map ?_
  intro state state' hstate
  have hbody := hstate.body_eq
  rw [List.reverse_reverse] at hbody
  exact congrArg Program.mk hbody

end Parsing

/-- A kind that is no operation's operator goes on with no expression. -/
theorem operator?_of_ne {kind : Kind} (h : ∀ op : BinaryOp, kind ≠ .operator op.operator) :
    kind.multiplicative? = none ∧ kind.additive? = none := by
  constructor
  · by_contra hsome
    obtain ⟨op, hop⟩ := Option.ne_none_iff_exists'.mp hsome
    exact h op (multiplicative?_eq_some hop).1
  · by_contra hsome
    obtain ⟨op, hop⟩ := Option.ne_none_iff_exists'.mp hsome
    exact h op (additive?_eq_some hop).1

/-- The first token of a text whose first character that is no blank is no operation's operator goes
on with no expression. -/
theorem operator?_of_head {source : String} {tokens : List Token} (h : tokenize source = .ok tokens)
    (hsource : ∀ c, source.toList.find? (!isGap ·) = some c → c ∉ ['+', '-', '*', '/', '%']) :
    ∀ t ∈ tokens.head?, t.kind.multiplicative? = none ∧ t.kind.additive? = none := by
  intro t ht
  obtain ⟨pieces, htiles, rfl, hwritten⟩ := exists_tiles_of_tokenize h
  cases htiles with
  | finish _ =>
    obtain rfl : Token.endOfInput _ = t := by simpa using ht
    exact ⟨rfl, rfl⟩
  | @token _ gap u pieces hgap hmatch _ _ _ =>
    obtain rfl : u = t := by simpa using ht
    apply operator?_of_ne
    intro op hop
    have htext : u.text.toList = [op.operator.symbol] := by
      rw [hop] at hmatch
      generalize u.text.toList = text at hmatch
      cases hmatch
      simp [Operator.spelling]
    have hfind : source.toList.find? (!isGap ·) = some op.operator.symbol := by
      have hnone : gap.find? (!isGap ·) = none := by simpa using hgap
      have hsome : (!isGap op.operator.symbol) = true := by cases op <;> decide
      rw [← hwritten, written_cons, htext, List.find?_append, hnone, Option.none_or]
      exact List.find?_cons_of_pos hsome
    exact hsource _ hfind (by cases op <;> decide)

/-- Programs compose by juxtaposition. Behind a text that means a program and a blank, a text whose
first character that is no blank is not one of `+ - * / %` adds its statements if it means a
program, and is refused with the same error otherwise, as many bytes further on as stand in front of
it. -/
theorem parseSource_append_gap (first : String) (p : Program) (hfirst : parseSource first = .ok p)
    (gap : Char) (hgap : gap ∈ [' ', '\t', '\r', '\n']) (second : String)
    (hsecond : ∀ c, second.toList.find? (· ∉ [' ', '\t', '\r', '\n']) = some c →
      c ∉ ['+', '-', '*', '/', '%']) :
    let joined := first ++ String.singleton gap ++ second
    (∀ q, parseSource second = .ok q → parseSource joined = .ok ⟨p.body ++ q.body⟩) ∧
      ∀ e, parseSource second = .error e →
        parseSource joined = .error (e.shift (first.utf8ByteSize + 1)) := by
  intro joined
  have hblank (c : Char) : decide (c ∉ [' ', '\t', '\r', '\n']) = !isGap c := by
    rw [Bool.eq_iff_iff, decide_eq_true_iff, ← isGap_iff]
    simp
  simp only [hblank] at hsecond
  obtain ⟨tokens, htokens, hp⟩ := parseSource_eq_ok_iff.mp hfirst
  obtain ⟨ts, last, rfl, hts⟩ := exists_tokens_of_tokenize htokens
  have hjoined := tokenize_append_gap htokens (isGap_iff.mpr hgap) second
  cases hread : tokenize second with
  | error e =>
    -- The second text is refused before any grammar, and so are both together.
    rw [hread] at hjoined
    rw [parseSource_of_error hread, parseSource_of_error hjoined]
    constructor
    · intro q hq
      cases hq
    · intro e' he'
      rw [Except.error.inj he']
  | ok tokens' =>
    obtain ⟨us, last', rfl, hus⟩ := exists_tokens_of_tokenize hread
    rw [hread] at hjoined
    have hsame := parse_append_shift (fun t ht => (hts t ht).1) (fun u hu => (hus u hu).1) hp
      (operator?_of_head hread hsecond) (first.utf8ByteSize + 1)
    rw [← parseSource_of_ok hread, ← parseSource_of_ok hjoined] at hsame
    constructor
    · intro q hq
      obtain ⟨r, hr, rfl⟩ := hsame.exists_of_eq_ok hq
      exact hr
    · intro e he
      obtain ⟨e', he', hshift⟩ := hsame.exists_of_eq_error he
      rw [he', hshift.eq_shift]

/-- A group that is never closed, behind a statement: alone and behind the other text it is refused
for the same cause, four bytes further on. -/
theorem parseSource_append_gap_unclosed :
    let first := "x-1"
    let second := "\t(y"
    let p : Program :=
      ⟨[.binary .sub (.ident "x") (.number (.ofBits 0x3ff0000000000000))]⟩
    let alone : Error := ⟨.unclosedParenthesis .endOfInput ⟨1, 2⟩, ⟨3, 3⟩⟩
    let behind : Error := ⟨.unclosedParenthesis .endOfInput ⟨5, 6⟩, ⟨7, 7⟩⟩
    parseSource first = .ok p ∧ parseSource second = .error alone ∧
      parseSource (first ++ String.singleton '\n' ++ second) = .error behind := by
  intro first second p alone behind
  have hfirst : parseSource first = .ok p := by decide +kernel
  have halone : parseSource second = .error alone := by decide +kernel
  have hnext : ∀ c, second.toList.find? (· ∉ [' ', '\t', '\r', '\n']) = some c →
      c ∉ ['+', '-', '*', '/', '%'] := by
    intro c hc
    have hopen : second.toList.find? (· ∉ [' ', '\t', '\r', '\n']) = some '(' := by decide +kernel
    rw [hopen] at hc
    cases hc
    decide
  have hjoined := parseSource_append_gap first p hfirst '\n' (by decide) second hnext
  exact ⟨hfirst, halone, hjoined.2 alone halone⟩

end Abacus
