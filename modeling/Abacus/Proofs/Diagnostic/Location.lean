import Abacus.Diagnostic.Position
import Abacus.Proofs.Grammar.Correspondence
import Abacus.Proofs.Grammar.Refusal
import Abacus.Proofs.Program.RoundTrip

/-!
# Where errors lie

An error of a text lies at a place of the text: at a character that starts no token, or at one of
the tokens, whose kind and text it names. The parser hands spans on through its states, so this is
read off a run that is compared with itself: every span in its error is that of a token. The
position that is shown for an error counts the line feeds in front of the place, and the characters
behind the last of them.
-/

namespace Abacus

open Grammar
open String (utf8Len utf8Len_append utf8Len_cons utf8Len_toList)

namespace Position

/-- The position behind a text: a line for every line feed, and a column for every character behind
the last of them. -/
def behind (text : List Char) : Position :=
  ⟨text.count '\n' + 1, (text.reverse.takeWhile (· ≠ '\n')).length + 1⟩

theorem behind_concat (text : List Char) (c : Char) :
    behind (text ++ [c]) = (behind text).advance c := by
  by_cases hc : c = '\n' <;> simp [behind, advance, hc]

/-- Going on character by character leads behind a text. -/
theorem foldl_advance_start (text : List Char) : text.foldl advance start = behind text := by
  induction text using List.reverseRecOn with
  | nil => rfl
  | append_singleton text c ih => rw [List.foldl_append, ih, behind_concat]; rfl

/-- An offset between two characters is reached behind all characters in front of it. -/
theorem after_append (p : Position) (before rest : List Char) :
    p.after (utf8Len before) (before ++ rest) = before.foldl advance p := by
  induction before generalizing p with
  | nil => cases rest <;> rfl
  | cons c before ih =>
    have hpos : utf8Len (c :: before) ≠ 0 := by
      have := c.utf8Size_pos
      rw [utf8Len_cons]
      omega
    rw [List.cons_append, after, if_neg hpos, utf8Len_cons, Nat.add_sub_cancel, ih]
    rfl

/-- The position of an offset between two characters is that behind the text in front of it. -/
theorem ofOffset_eq {source : String} {before after : List Char}
    (h : source.toList = before ++ after) :
    ofOffset source (utf8Len before) = behind before := by
  rw [ofOffset, h, after_append, foldl_advance_start]

end Position

section Places

variable {source : String} {tokens : List Token} {t : Token}

/-- The text in front of an offset between two characters. -/
theorem Span.slice_front {before after : List Char} (h : source.toList = before ++ after) :
    Span.slice ⟨0, utf8Len before⟩ source = String.ofList before := by
  have hfront : Span.Locates ⟨0, utf8Len before⟩ 0 source.toList before :=
    ⟨[], after, h, rfl, by simp⟩
  exact hfront.slice_eq

/-- The position of a place is that behind the text in front of it. -/
theorem Span.Locates.ofOffset_eq {span : Span} {text : List Char}
    (h : span.Locates 0 source.toList text) :
    Position.ofOffset source span.start =
      Position.behind (Span.slice ⟨0, span.start⟩ source).toList := by
  obtain ⟨before, after, hsource, hstart, -⟩ := h
  rw [Nat.zero_add] at hstart
  rw [hstart, Position.ofOffset_eq hsource, Span.slice_front hsource, String.toList_ofList]

/-- Every token stands where its span says. -/
theorem locates_of_mem_tokenize (h : tokenize source = .ok tokens) (ht : t ∈ tokens) :
    t.span.Locates 0 source.toList t.text.toList := by
  obtain ⟨pieces, htiles, rfl, hwritten⟩ := exists_tiles_of_tokenize h
  rw [← hwritten]
  exact htiles.locates ht

/-- In front of the end of input stands the whole text, and every other token has a character. -/
theorem front_of_mem_tokenize (h : tokenize source = .ok tokens) (ht : t ∈ tokens) :
    (t.kind = .endOfInput → Span.slice ⟨0, t.span.start⟩ source = source) ∧
      (t.kind ≠ .endOfInput → t.text ≠ "") := by
  obtain ⟨pieces, htiles, rfl, hwritten⟩ := exists_tiles_of_tokenize h
  obtain ⟨ts, htokens, hmatches⟩ := htiles.exists_tokens
  rw [htokens, hwritten, Nat.zero_add] at ht
  rcases List.mem_append.mp ht with ht | ht
  · obtain ⟨hkind, htext⟩ := (hmatches t ht).ne_of_some
    exact ⟨fun hend => absurd hend hkind, fun _ => htext⟩
  · obtain rfl := List.mem_singleton.mp ht
    refine ⟨fun _ => ?_, fun hne => absurd rfl hne⟩
    have hwhole : source.toList = source.toList ++ [] := (List.append_nil _).symm
    exact (Span.slice_front hwhole).trans String.ofList_toList

end Places

section Tokens

/-- The errors that lie at a token: their span is that of the token, and so are the kind and the
text that they name. -/
inductive LiesAt (t : Token) : Error → Prop
  | unexpectedToken : LiesAt t ⟨.unexpectedToken t.kind t.text, t.span⟩
  | invalidNumber : LiesAt t ⟨.invalidNumber t.text, t.span⟩
  | unclosedParenthesis (openedAt : Span) :
    LiesAt t ⟨.unclosedParenthesis t.kind openedAt, t.span⟩
  | invalidStatement : LiesAt t ⟨.invalidStatement t.kind, t.span⟩
  | nestingTooDeep : LiesAt t ⟨.nestingTooDeep nestingLimit, t.span⟩

variable {tokens : List Token} {t : Token} {e : Error}

theorem LiesAt.span_eq (h : LiesAt t e) : e.span = t.span := by
  cases h <;> rfl

theorem LiesAt.cause_ne (h : LiesAt t e) (reason : String) : e.cause ≠ .malformedStream reason := by
  cases h <;> simp

/-- An error that corresponds to another one token by token lies at one of the tokens. -/
theorem Grammar.SameError.exists_liesAt {P : Token → Prop} {e' : Error}
    (h : SameError (fun t u => u = t ∧ P t) e e') : ∃ t, P t ∧ LiesAt t e := by
  cases h with
  | unexpectedToken h => exact ⟨_, h.2, .unexpectedToken⟩
  | invalidNumber h => exact ⟨_, h.2, .invalidNumber⟩
  | unclosedParenthesis h _ => exact ⟨_, h.2, .unclosedParenthesis _⟩
  | invalidStatement h => exact ⟨_, h.2, .invalidStatement⟩
  | nestingTooDeep h =>
    obtain ⟨t, _, ht, rfl, -⟩ := h
    exact ⟨t, ht.2, .nestingTooDeep⟩

/-- A token that is refused behind tokens already taken is refused at itself or at one of them. -/
theorem exists_liesAt_of_step_eq_error {before : List Token} {reached : Parser.State}
    (hrun : Parser.run (.between []) before = .ok reached)
    (hstep : Parser.step reached t = .error e) : ∃ u ∈ before ++ [t], LiesAt u e := by
  have herror : Parser.run (.between []) (before ++ [t]) = .error e := by
    rw [Parser.run_append, hrun, Except.bind, run_singleton, hstep]
  -- Compared with itself, a run gives the token of every span in its error.
  let R : Token → Token → Prop := fun u v => v = u ∧ u ∈ before ++ [t]
  have hR : KeepsReading R := ⟨fun h => congrArg Token.kind h.1, fun h _ => congrArg Token.text h.1⟩
  have hself : List.Forall₂ R (before ++ [t]) (before ++ [t]) :=
    List.forall₂_same.mpr fun u hu => ⟨rfl, hu⟩
  have hsame : SameResult R (SameState R []) _ _ := sameResult_run hR (.between []) hself
  obtain ⟨e', -, hlies⟩ := hsame.exists_of_eq_error herror
  exact hlies.exists_liesAt

/-- A stream that closes with the end of input is refused at one of its tokens. -/
theorem exists_liesAt_of_parse_eq_error
    (hlast : tokens.getLast?.map Token.kind = some .endOfInput) (h : parse tokens = .error e) :
    ∃ t ∈ tokens, LiesAt t e := by
  obtain ⟨before, t, after, reached, hsplit, -, hrun, -, hstep⟩ :=
    exists_step_of_parse_eq_error hlast h
  obtain ⟨u, hu, hlies⟩ := exists_liesAt_of_step_eq_error hrun hstep
  have hprefix : before ++ [t] <+: tokens := ⟨after, by rw [hsplit, List.append_assoc]; rfl⟩
  exact ⟨u, hprefix.subset hu, hlies⟩

end Tokens

/-- Error locations point at the offending text. An error of a text lies at a place between
characters of the text and is never that of a malformed stream. What stands there is the character
that the error reports, or the text of one of the tokens, at which the error lies. The line and the
column that are shown count the line feeds in front of the place and the characters behind the last
of them; in front of the end of input that is the whole text, and every other token has a first
character at the position shown. -/
theorem parseSource_error_located (source name : String) (e : Error)
    (h : parseSource source = .error e) :
    let before := Span.slice ⟨0, e.span.start⟩ source
    let line := before.toList.count '\n' + 1
    let column := (before.toList.reverse.takeWhile (· ≠ '\n')).length + 1
    (∀ reason, e.cause ≠ .malformedStream reason) ∧ e.span.FitsIn source ∧
      ((∃ c, e.cause = .unexpectedCharacter c ∧ e.span.slice source = String.singleton c) ∨
        ∃ tokens t, tokenize source = .ok tokens ∧ t ∈ tokens ∧ LiesAt t e ∧
          e.span.slice source = t.text ∧
          (t.kind = .endOfInput → before = source) ∧ (t.kind ≠ .endOfInput → t.text ≠ "")) ∧
      e.summary name source =
        name ++ ":" ++ line.repr ++ ":" ++ column.repr ++ ": " ++ e.message := by
  intro before line column
  have hshown {text : List Char} (hplace : e.span.Locates 0 source.toList text) :
      e.summary name source =
        name ++ ":" ++ line.repr ++ ":" ++ column.repr ++ ": " ++ e.message := by
    rw [Error.summary, hplace.ofOffset_eq]
    rfl
  cases htokens : tokenize source with
  | error e' =>
    obtain rfl : e' = e := Except.error.inj ((parseSource_of_error htokens).symm.trans h)
    obtain ⟨c, -, hcause, hplace, -⟩ := exists_refused_of_tokenize htokens
    refine ⟨by simp [hcause], hplace.fitsIn, .inl ⟨c, hcause, hplace.slice_eq⟩, hshown hplace⟩
  | ok tokens =>
    rw [parseSource_of_ok htokens] at h
    obtain ⟨ts, last, hclosed, -⟩ := exists_tokens_of_tokenize htokens
    have hlast : tokens.getLast?.map Token.kind = some .endOfInput := by
      rw [hclosed, kind_getLast?_concat]
    obtain ⟨t, ht, hlies⟩ := exists_liesAt_of_parse_eq_error hlast h
    have hplace := locates_of_mem_tokenize htokens ht
    have hfront := front_of_mem_tokenize htokens ht
    rw [← hlies.span_eq] at hplace hfront
    refine ⟨hlies.cause_ne, hplace.fitsIn, .inr ⟨tokens, t, rfl, ht, hlies, ?_, hfront⟩,
      hshown hplace⟩
    rw [hplace.slice_eq, String.ofList_toList]

/-- A name of two bytes and an operator on a line of their own: an operand is missing at the end of
input, on the next line. -/
theorem parseSource_error_located_line :
    let source := "é +\n"
    let e : Error := ⟨.unexpectedToken .endOfInput "", ⟨5, 5⟩⟩
    parseSource source = .error e ∧ Span.slice ⟨0, 5⟩ source = source ∧
      e.summary "calc" source = "calc:2:1: " ++ e.message := by
  intro source e
  have herror : parseSource source = .error e := by decide +kernel
  have hfront : Span.slice ⟨0, 5⟩ source = source := by decide +kernel
  obtain ⟨-, -, -, hshown⟩ := parseSource_error_located source "calc" e herror
  refine ⟨herror, hfront, hshown.trans ?_⟩
  rw [show e.span.start = 5 from rfl, hfront]
  decide +kernel

end Abacus
