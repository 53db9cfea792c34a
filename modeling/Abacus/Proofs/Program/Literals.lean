import Abacus.Proofs.Binary64.Overflow
import Abacus.Proofs.Grammar.Correspondence
import Abacus.Proofs.Grammar.Refusal
import Abacus.Proofs.Program.RoundTrip

/-!
# Numbers written in a text

The number tokens of a text are plain numbers, which are read unless they are too large. So where
the parser reaches one as an operand, its exact value alone decides: below the bound it becomes a
leaf, and from the bound on the text is refused at this token. No text is refused for a number in
any other way.
-/

namespace Abacus

namespace Grammar

open Abacus.Parser

section Operands

variable {state : State} {body : List Expr} {groups : List Group} {sum product : Option Pending}
  {t : Token}

/-- The states in which the next token may be a whole operand, with what waits for it. -/
inductive Awaits : State → List Expr → List Group → Option Pending → Option Pending → Prop
  /-- A statement begins. -/
  | between (body : List Expr) : Awaits (.between body) body [] none none
  /-- An operation or a group has begun. -/
  | operand (body : List Expr) (groups : List Group) (sum product : Option Pending) :
    Awaits (.operand body groups sum product) body groups sum product
  /-- A statement is complete, and another one begins. -/
  | operator (body : List Expr) {sum : Option Pending} {v total : Value} :
    complete sum v = .ok total → Awaits (.operator body [] sum v) (total.expr :: body) [] none none

/-- A number in such a state is taken as the operand. -/
theorem Awaits.step_eq (h : Awaits state body groups sum product) (hk : t.kind = .number) :
    step state t = step (.operand body groups sum product) t := by
  cases h with
  | between => simp [step, stepBetween, hk]
  | operand => rfl
  | operator _ htotal =>
    rw [step_afterSum _ _ _ _ (by rw [hk]; rfl) (by rw [hk]; rfl), htotal]
    simp [Except.bind, stepAfterSum, stepBetween, step, hk]

/-- In any other state a number is refused before its text is looked at. -/
theorem exists_awaits_of_step {text : String} {span : Span} (hk : t.kind = .number)
    (h : step state t = .error ⟨.invalidNumber text, span⟩) :
    ∃ body groups sum product, Awaits state body groups sum product := by
  cases state with
  | between body => exact ⟨_, _, _, _, .between body⟩
  | operand body groups sum product => exact ⟨_, _, _, _, .operand body groups sum product⟩
  | operator body groups sum v =>
    rw [step_afterSum _ _ _ _ (by rw [hk]; rfl) (by rw [hk]; rfl)] at h
    cases htotal : complete sum v with
    | error e =>
      obtain ⟨_, rfl⟩ := exists_tooDeep_of_complete htotal
      rw [htotal] at h
      cases h
    | ok total =>
      cases groups with
      | nil => exact ⟨_, _, _, _, .operator body htotal⟩
      | cons group outer => simp [htotal, Except.bind, stepAfterSum, hk] at h

/-- Behind tokens that the parser takes, it looks for an operand. -/
def Reaches (before : List Token) (body : List Expr) (groups : List Group)
    (sum product : Option Pending) : Prop :=
  ∃ state, run (.between []) before = .ok state ∧ Awaits state body groups sum product

/-- What the parser makes of a number behind tokens that lead it to an operand. -/
theorem Reaches.run_concat {before : List Token} (h : Reaches before body groups sum product)
    (hk : t.kind = .number) :
    run (.between []) (before ++ [t]) = step (.operand body groups sum product) t := by
  obtain ⟨state, hrun, hawaits⟩ := h
  rw [run_append, hrun, ← hawaits.step_eq hk]
  exact run_singleton state t

/-- A stream refused for a number is refused at a token that is no readable operand. -/
theorem exists_reaches_of_parse {tokens : List Token} {text : String} {span : Span}
    (hlast : tokens.getLast?.map Token.kind = some .endOfInput)
    (h : parse tokens = .error ⟨.invalidNumber text, span⟩) :
    ∃ before t after body groups sum product, tokens = before ++ t :: after ∧
      Reaches before body groups sum product ∧ ¬ IsReadable t ∧ t.text = text ∧ t.span = span := by
  obtain ⟨before, t, after, state, htokens, -, hrun, hreads, hstep⟩ :=
    exists_step_of_parse_eq_error hlast h
  cases refusal_step hreads hstep with
  | grammar hblames => cases hblames
  | number hr _ =>
    obtain ⟨body, groups, sum, product, hawaits⟩ :=
      exists_awaits_of_step ((not_isReadable_iff t).mp hr).1 hstep
    exact ⟨before, t, after, body, groups, sum, product, htokens, ⟨state, hrun, hawaits⟩, hr, rfl,
      rfl⟩

end Operands

end Grammar

open Grammar Abacus.Parser

/-- Every number token of a text is a plain number. -/
theorem isPlainNumber_of_mem_tokenize {source : String} {tokens : List Token}
    (h : tokenize source = .ok tokens) {t : Token} (ht : t ∈ tokens) (hk : t.kind = .number) :
    IsPlainNumber t.text.toList := by
  have hmatch := matches_of_mem_tokenize h ht (by simp [hk])
  rw [hk] at hmatch
  cases hmatch with
  | number hplain => exact hplain

/-- A plain number is readable below the bound. -/
theorem Grammar.not_isReadable_iff_le {t : Token} (hk : t.kind = .number)
    (h : IsPlainNumber t.text.toList) :
    ¬ IsReadable t ↔ 2 ^ 1024 - 2 ^ 970 ≤ plainValue t.text.toList := by
  rw [not_isReadable_iff, Binary64.ofText?_eq_none_iff h, and_iff_right hk]

/-- A text whose tokens cannot all be taken is refused with the error of taking them. -/
theorem parseSource_of_run {source : String} {tokens before after : List Token} {error : Error}
    (h : tokenize source = .ok tokens) (hsplit : tokens = before ++ after)
    (hrun : run (.between []) before = .error error) : parseSource source = .error error := by
  obtain ⟨ts, last, rfl, hts⟩ := exists_tokens_of_tokenize h
  rw [parseSource_of_ok h, parse_concat fun t ht => (hts t ht).1, hsplit, run_append, hrun]
  rfl

/-- A number in a text is refused for overflow only. Every number token is a plain number. Where the
parser reaches it as an operand, it becomes the leaf of a finite number when its exact value is
below the middle between the largest finite number and the next power of two; otherwise the text is
refused for exactly this token. And a text that is refused for a number has such a token. -/
theorem parseSource_number_overflow (source : String) :
    (∀ tokens before t after, tokenize source = .ok tokens → tokens = before ++ t :: after →
      t.kind = .number →
      IsPlainNumber t.text.toList ∧
        ∀ body groups sum product, Reaches before body groups sum product →
          (plainValue t.text.toList < 2 ^ 1024 - 2 ^ 970 →
            ∃ x, Binary64.ofText? t.text = some x ∧ x.IsFinite ∧
              run (.between []) (before ++ [t]) =
                supply body groups sum product ⟨.number x, 1⟩) ∧
          (2 ^ 1024 - 2 ^ 970 ≤ plainValue t.text.toList →
            parseSource source = .error ⟨.invalidNumber t.text, t.span⟩)) ∧
      ∀ text span, parseSource source = .error ⟨.invalidNumber text, span⟩ →
        ∃ tokens before t after body groups sum product, tokenize source = .ok tokens ∧
          tokens = before ++ t :: after ∧ t.kind = .number ∧ t.text = text ∧ t.span = span ∧
          Reaches before body groups sum product ∧
          2 ^ 1024 - 2 ^ 970 ≤ plainValue text.toList := by
  constructor
  · intro tokens before t after htokens hsplit hk
    have hplain := isPlainNumber_of_mem_tokenize htokens (by simp [hsplit]) hk
    refine ⟨hplain, fun body groups sum product hreaches => ⟨fun hlt => ?_, fun hle => ?_⟩⟩
    · have hr : IsReadable t := by
        by_contra hr
        exact absurd ((not_isReadable_iff_le hk hplain).mp hr) (not_le.mpr hlt)
      have hread := (isReadable_iff t).mp hr hk
      refine ⟨numberOf t, hread, (Binary64.isFinite_of_ofText? hread).1, ?_⟩
      rw [hreaches.run_concat hk, step_number body groups sum product hk hr]
    · have hr := (not_isReadable_iff_le hk hplain).mpr hle
      have hfront : tokens = before ++ [t] ++ after := by simp [hsplit]
      apply parseSource_of_run htokens hfront
      rw [hreaches.run_concat hk, step_unreadable body groups sum product hr]
  · intro text span herror
    cases htokens : tokenize source with
    | error e =>
      obtain ⟨c, _, hcause, -⟩ := exists_refused_of_tokenize htokens
      rw [parseSource_of_error htokens] at herror
      cases herror
      cases hcause
    | ok tokens =>
      rw [parseSource_of_ok htokens] at herror
      obtain ⟨ts, last, hts, -⟩ := exists_tokens_of_tokenize htokens
      obtain ⟨before, t, after, body, groups, sum, product, hsplit, hreaches, hr, rfl, rfl⟩ :=
        exists_reaches_of_parse (hts ▸ kind_getLast?_concat ts last) herror
      have hk := ((not_isReadable_iff t).mp hr).1
      have hplain := isPlainNumber_of_mem_tokenize htokens (by simp [hsplit]) hk
      exact ⟨tokens, before, t, after, body, groups, sum, product, rfl, hsplit, hk, rfl, rfl,
        hreaches, (not_isReadable_iff_le hk hplain).mp hr⟩

/-- A plain number alone is one token. -/
theorem tokenize_of_isPlainNumber {text : String} (h : IsPlainNumber text.toList) :
    tokenize text =
      .ok [⟨.number, text, ⟨0, text.utf8ByteSize⟩⟩, .endOfInput text.utf8ByteSize] := by
  obtain ⟨c, cs, hc, -⟩ := h.exists_head
  have hlongest : IsLongest text.toList (some .number) text.toList [] :=
    ⟨(List.append_nil _).symm, by simp [hc], .number h, fun _ _ hstart _ => hstart.length_le⟩
  apply Munches.tokenize_eq
  have hmunches := Munches.token hlongest (.finish (0 + _))
  rwa [String.ofList_toList, Nat.zero_add] at hmunches

/-- The least whole number that is too large, written alone, is refused as the number that it is,
and the greatest one that is not too large becomes a statement. -/
theorem parseSource_number_overflow_bound :
    let bound := String.ofList (Nat.toDigits 10 (2 ^ 1024 - 2 ^ 970))
    let below := String.ofList (Nat.toDigits 10 (2 ^ 1024 - 2 ^ 970 - 1))
    parseSource bound = .error ⟨.invalidNumber bound, ⟨0, bound.utf8ByteSize⟩⟩ ∧
      ∃ x, Binary64.ofText? below = some x ∧ x.IsFinite ∧
        run (.between []) [⟨.number, below, ⟨0, below.utf8ByteSize⟩⟩] =
          .ok (.operator [] [] none ⟨.number x, 1⟩) := by
  have hreaches : Reaches [] [] [] none none := ⟨_, rfl, .between []⟩
  have hplain (n : Nat) : IsPlainNumber (String.ofList (Nat.toDigits 10 n)).toList := by
    rw [String.toList_ofList]
    exact .whole (isDigitRun_toDigits n)
  have hvalue (n : Nat) : plainValue (String.ofList (Nat.toDigits 10 n)).toList = n := by
    rw [String.toList_ofList, (isDigitRun_toDigits n).plainValue_eq,
      Nat.ofDigitChars_ten_toDigits]
  have hresult (n : Nat) :=
    ((parseSource_number_overflow _).1 _ [] _ _ (tokenize_of_isPlainNumber (hplain n))
      rfl rfl).2 _ _ _ _ hreaches
  have hlt {j k : Nat} (h : j < k) : 2 ^ j < 2 ^ k := Nat.pow_lt_pow_right (by decide) h
  have hcast {j k : Nat} (h : j < k) : ((2 ^ k - 2 ^ j : Nat) : ℚ) = 2 ^ k - 2 ^ j := by
    rw [Nat.cast_sub (hlt h).le]
    push_cast
    rfl
  have hbound : ((2 ^ 1024 - 2 ^ 970 : Nat) : ℚ) = 2 ^ 1024 - 2 ^ 970 := hcast (by decide)
  refine ⟨(hresult _).2 ?_, (hresult _).1 ?_⟩
  · rw [hvalue, hbound]
  · rw [hvalue, ← hbound, Nat.cast_lt]
    exact Nat.sub_lt (Nat.sub_pos_of_lt (hlt (by decide))) Nat.one_pos

end Abacus
