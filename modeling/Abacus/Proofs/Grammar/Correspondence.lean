import Abacus.Proofs.Grammar.Acceptance
import Mathlib.Data.List.Forall2

/-!
# Runs on corresponding tokens

The parser looks at the kinds of tokens and at the texts of numbers and names. Spans and other texts
it only hands on to errors, and the statements that are already complete it only adds to. So two
runs on tokens that correspond in kind and in these texts go through corresponding states and end
alike: with the same new statements, or with errors of one cause at corresponding tokens. What the
parser makes of a stream therefore depends on nothing else, and on nothing behind the first end of
input.
-/

namespace Abacus.Grammar

open Abacus.Parser

/-- A correspondence of tokens that keeps kinds, and the texts of numbers and names. -/
structure KeepsReading (R : Token → Token → Prop) : Prop where
  kind_eq {t u : Token} : R t u → u.kind = t.kind
  text_eq {t u : Token} : R t u → t.kind = .number ∨ t.kind = .identifier → u.text = t.text

/-- Spans of corresponding tokens. -/
def SameSpan (R : Token → Token → Prop) (s s' : Span) : Prop :=
  ∃ t u, R t u ∧ t.span = s ∧ u.span = s'

/-- Errors of one cause at corresponding tokens. -/
inductive SameError (R : Token → Token → Prop) : Error → Error → Prop
  | unexpectedToken {t u : Token} : R t u →
    SameError R ⟨.unexpectedToken t.kind t.text, t.span⟩ ⟨.unexpectedToken t.kind u.text, u.span⟩
  | invalidNumber {t u : Token} : R t u →
    SameError R ⟨.invalidNumber t.text, t.span⟩ ⟨.invalidNumber t.text, u.span⟩
  | unclosedParenthesis {t u : Token} {openedAt openedAt' : Span} : R t u →
    SameSpan R openedAt openedAt' →
    SameError R ⟨.unclosedParenthesis t.kind openedAt, t.span⟩
      ⟨.unclosedParenthesis t.kind openedAt', u.span⟩
  | invalidStatement {t u : Token} : R t u →
    SameError R ⟨.invalidStatement t.kind, t.span⟩ ⟨.invalidStatement t.kind, u.span⟩
  | nestingTooDeep {s s' : Span} : SameSpan R s s' → SameError R (tooDeep s) (tooDeep s')

/-- Related values, or errors of one cause at corresponding tokens. -/
inductive SameResult {α β : Type} (R : Token → Token → Prop) (P : α → β → Prop) :
    Except Error α → Except Error β → Prop
  | ok {a : α} {b : β} : P a b → SameResult R P (.ok a) (.ok b)
  | error {e e' : Error} : SameError R e e' → SameResult R P (.error e) (.error e')

namespace SameResult

variable {α β γ δ : Type} {R : Token → Token → Prop} {P : α → β → Prop} {Q : γ → δ → Prop}
  {x : Except Error α} {y : Except Error β}

theorem bind {f : α → Except Error γ} {g : β → Except Error δ} (h : SameResult R P x y)
    (hf : ∀ a b, P a b → SameResult R Q (f a) (g b)) : SameResult R Q (x.bind f) (y.bind g) := by
  cases h with
  | ok hab => exact hf _ _ hab
  | error he => exact .error he

theorem map {f : α → γ} {g : β → δ} (h : SameResult R P x y) (hf : ∀ a b, P a b → Q (f a) (g b)) :
    SameResult R Q (x.map f) (y.map g) := by
  cases h with
  | ok hab => exact .ok (hf _ _ hab)
  | error he => exact .error he

theorem exists_of_eq_ok (h : SameResult R P x y) {a : α} (hx : x = .ok a) :
    ∃ b, y = .ok b ∧ P a b := by
  cases h with
  | ok hab =>
    cases hx
    exact ⟨_, rfl, hab⟩
  | error _ => cases hx

theorem exists_of_eq_error (h : SameResult R P x y) {e : Error} (hx : x = .error e) :
    ∃ e', y = .error e' ∧ SameError R e e' := by
  cases h with
  | ok _ => cases hx
  | error he =>
    cases hx
    exact ⟨_, rfl, he⟩

end SameResult

/-- The same operation waiting, its operators at corresponding tokens. -/
structure SamePending (R : Token → Token → Prop) (p q : Pending) : Prop where
  left_eq : q.left = p.left
  op_eq : q.op = p.op
  span : SameSpan R p.span q.span

/-- Groups opened at corresponding tokens, with the same operations waiting. -/
structure SameGroup (R : Token → Token → Prop) (g h : Group) : Prop where
  openedAt : SameSpan R g.openedAt h.openedAt
  sum : Option.Rel (SamePending R) g.sum h.sum
  product : Option.Rel (SamePending R) g.product h.product

/-- States that differ in the places of tokens only, and in statements that were complete before. -/
inductive SameState (R : Token → Token → Prop) (earlier : List Expr) : State → State → Prop
  | between (body : List Expr) : SameState R earlier (.between body) (.between (body ++ earlier))
  | operand {body : List Expr} {groups groups' : List Group}
    {sum sum' product product' : Option Pending} :
    List.Forall₂ (SameGroup R) groups groups' → Option.Rel (SamePending R) sum sum' →
    Option.Rel (SamePending R) product product' →
    SameState R earlier (.operand body groups sum product)
      (.operand (body ++ earlier) groups' sum' product')
  | operator {body : List Expr} {groups groups' : List Group} {sum sum' : Option Pending}
    {v : Value} :
    List.Forall₂ (SameGroup R) groups groups' → Option.Rel (SamePending R) sum sum' →
    SameState R earlier (.operator body groups sum v) (.operator (body ++ earlier) groups' sum' v)

section Steps

variable {R : Token → Token → Prop} {earlier body : List Expr} {groups groups' : List Group}
  {sum sum' product product' : Option Pending} {t u : Token}

theorem sameResult_complete (h : Option.Rel (SamePending R) sum sum') (v : Value) :
    SameResult R Eq (complete sum v) (complete sum' v) := by
  cases h with
  | none => exact .ok rfl
  | @some p q hpq =>
    simp only [complete, hpq.left_eq, hpq.op_eq]
    split
    · exact .error (.nestingTooDeep hpq.span)
    · exact .ok rfl

theorem sameResult_supply (hg : List.Forall₂ (SameGroup R) groups groups')
    (hs : Option.Rel (SamePending R) sum sum') (hp : Option.Rel (SamePending R) product product')
    (v : Value) :
    SameResult R (SameState R earlier) (supply body groups sum product v)
      (supply (body ++ earlier) groups' sum' product' v) := by
  refine (sameResult_complete hp v).map ?_
  rintro total _ rfl
  exact .operator hg hs

theorem sameResult_stepOperand (hR : KeepsReading R)
    (hg : List.Forall₂ (SameGroup R) groups groups') (hs : Option.Rel (SamePending R) sum sum')
    (hp : Option.Rel (SamePending R) product product') (h : R t u) :
    SameResult R (SameState R earlier) (stepOperand body groups sum product t)
      (stepOperand (body ++ earlier) groups' sum' product' u) := by
  unfold stepOperand
  rw [hR.kind_eq h]
  split
  · next hk =>
    simp only [hR.text_eq h (.inl hk)]
    split
    · exact sameResult_supply hg hs hp _
    · exact .error (.invalidNumber h)
  · next hk =>
    rw [hR.text_eq h (.inr hk)]
    exact sameResult_supply hg hs hp _
  · rw [← hg.length_eq]
    split
    · exact .ok (.operand (.cons ⟨⟨t, u, h, rfl, rfl⟩, hs, hp⟩ hg) .none .none)
    · exact .error (.nestingTooDeep ⟨t, u, h, rfl, rfl⟩)
  · exact .error (.unexpectedToken h)

theorem sameResult_stepBetween (hR : KeepsReading R) (h : R t u) :
    SameResult R (SameState R earlier) (stepBetween body t) (stepBetween (body ++ earlier) u) := by
  unfold stepBetween
  rw [hR.kind_eq h]
  split
  · exact .error (.invalidStatement h)
  · exact .error (.invalidStatement h)
  · exact .ok (.between body)
  · exact sameResult_stepOperand hR .nil .none .none h

theorem sameResult_stepAfterSum (hR : KeepsReading R)
    (hg : List.Forall₂ (SameGroup R) groups groups') (v : Value) (h : R t u) :
    SameResult R (SameState R earlier) (stepAfterSum body groups v t)
      (stepAfterSum (body ++ earlier) groups' v u) := by
  cases hg with
  | nil => exact sameResult_stepBetween hR h
  | cons hgroup hg =>
    simp only [stepAfterSum, hR.kind_eq h]
    split
    · exact sameResult_supply hg hgroup.sum hgroup.product v
    · exact .error (.unclosedParenthesis h hgroup.openedAt)

/-- Corresponding tokens lead from corresponding states to corresponding ones, or to errors of one
cause. -/
theorem sameResult_step (hR : KeepsReading R) {state state' : State}
    (hstate : SameState R earlier state state') (h : R t u) :
    SameResult R (SameState R earlier) (step state t) (step state' u) := by
  cases hstate with
  | between body => exact sameResult_stepBetween hR h
  | operand hg hs hp => exact sameResult_stepOperand hR hg hs hp h
  | @operator body groups groups' sum sum' v hg hs =>
    simp only [step, stepOperator, hR.kind_eq h]
    split
    · exact .ok (.operand hg hs (.some ⟨rfl, rfl, t, u, h, rfl, rfl⟩))
    · refine (sameResult_complete hs v).bind ?_
      rintro total _ rfl
      split
      · exact .ok (.operand hg (.some ⟨rfl, rfl, t, u, h, rfl, rfl⟩) .none)
      · exact sameResult_stepAfterSum hR hg total h

end Steps

/-- Runs on corresponding tokens from corresponding states end alike. -/
theorem sameResult_run {R : Token → Token → Prop} (hR : KeepsReading R) {earlier : List Expr}
    {state state' : State} (hstate : SameState R earlier state state') {ts us : List Token}
    (h : List.Forall₂ R ts us) :
    SameResult R (SameState R earlier) (run state ts) (run state' us) := by
  induction h generalizing state state' with
  | nil => exact .ok hstate
  | cons htu _ ih =>
    rw [run_cons, run_cons]
    exact (sameResult_step hR hstate htu).bind fun _ _ hnext => ih hnext

/-- Corresponding states have the same statements, behind those that were complete before. -/
theorem SameState.body_eq {R : Token → Token → Prop} {earlier : List Expr} {state state' : State}
    (h : SameState R earlier state state') :
    state'.program.body = earlier.reverse ++ state.program.body := by
  cases h <;> simp [State.program]

/-- A stream with its only end of input at its end is parsed by a run over all of it. -/
theorem parse_concat {ts : List Token} (h : ∀ t ∈ ts, t.kind ≠ .endOfInput) (offset : Nat) :
    parse (ts ++ [.endOfInput offset]) =
      (run (.between []) (ts ++ [.endOfInput offset])).map State.program := by
  obtain ⟨closing, rest, -, hsplit, hparse⟩ := parse_eq_run (kind_getLast?_concat ts offset)
  rw [sentence_concat h] at hsplit hparse
  obtain ⟨rfl, -⟩ := List.cons.inj (List.append_cancel_left hsplit)
  exact hparse

/-- Runs on corresponding tokens from the start end with one program or with errors of one cause. -/
theorem sameResult_program {R : Token → Token → Prop} (hR : KeepsReading R) {ts us : List Token}
    (h : List.Forall₂ R ts us) :
    SameResult R Eq ((run (.between []) ts).map State.program)
      ((run (.between []) us).map State.program) := by
  refine (sameResult_run hR (.between []) h : SameResult R (SameState R []) _ _).map ?_
  intro state state' hstate
  exact congrArg Program.mk hstate.body_eq.symm

/-- Corresponding streams with their only ends of input at their ends are parsed alike. -/
theorem sameResult_parse {R : Token → Token → Prop} (hR : KeepsReading R) {ts us : List Token}
    (hts : ∀ t ∈ ts, t.kind ≠ .endOfInput) (hus : ∀ u ∈ us, u.kind ≠ .endOfInput)
    {offset offset' : Nat}
    (h : List.Forall₂ R (ts ++ [.endOfInput offset]) (us ++ [.endOfInput offset'])) :
    SameResult R Eq (parse (ts ++ [.endOfInput offset])) (parse (us ++ [.endOfInput offset'])) := by
  rw [parse_concat hts, parse_concat hus]
  exact sameResult_program hR h

section Dependence

/-- Tokens that the parser does not tell apart: of one kind, and with one text where the kind is
that of numbers or of names. -/
structure ReadsAlike (t u : Token) : Prop where
  kind_eq : u.kind = t.kind
  text_eq : t.kind = .number ∨ t.kind = .identifier → u.text = t.text

/-- Tokens that read alike, at one index of two streams and no later than the first end of input. -/
def AlikeAt (xs ys : List Token) (t u : Token) : Prop :=
  ReadsAlike t u ∧ ∃ k ≤ (xs.takeWhile (·.kind ≠ .endOfInput)).length,
    xs[k]? = some t ∧ ys[k]? = some u

theorem keepsReading_alikeAt (xs ys : List Token) : KeepsReading (AlikeAt xs ys) where
  kind_eq h := h.1.kind_eq
  text_eq h := h.1.text_eq

/-- Corresponding members of two lists stand at one index of them, and of all lists that start with
these. -/
theorem forall₂_and_getElem? {α β : Type} {P : α → β → Prop} {xs xs' : List α} {ys ys' : List β}
    (h : List.Forall₂ P xs ys) (hx : xs <+: xs') (hy : ys <+: ys') :
    List.Forall₂ (fun a b => P a b ∧ ∃ k < xs.length, xs'[k]? = some a ∧ ys'[k]? = some b)
      xs ys := by
  rw [List.forall₂_iff_get]
  refine ⟨h.length_eq, ?_⟩
  intro k hk hk'
  exact ⟨h.get hk hk', k, hk, List.prefix_iff_getElem?.mp hx k hk,
    List.prefix_iff_getElem?.mp hy k hk'⟩

/-- Sentences that read alike stand at the same indices, each with its end of input behind it. -/
theorem forall₂_alikeAt {xs ys rest rest' : List Token} {closing closing' : Token}
    (hx : xs = sentence xs ++ closing :: rest) (hclosing : closing.kind = .endOfInput)
    (hy : ys = sentence ys ++ closing' :: rest') (hclosing' : closing'.kind = .endOfInput)
    (h : List.Forall₂ ReadsAlike (sentence xs) (sentence ys)) :
    List.Forall₂ (AlikeAt xs ys) (sentence xs ++ [closing]) (sentence ys ++ [closing']) := by
  have hend : ReadsAlike closing closing' := by
    refine ⟨hclosing'.trans hclosing.symm, ?_⟩
    rintro (hk | hk) <;> rw [hclosing] at hk <;> cases hk
  have hall : List.Forall₂ ReadsAlike (sentence xs ++ [closing]) (sentence ys ++ [closing']) :=
    List.rel_append h (.cons hend .nil)
  have hstart : sentence xs ++ [closing] <+: xs := ⟨rest, by simpa using hx.symm⟩
  have hstart' : sentence ys ++ [closing'] <+: ys := ⟨rest', by simpa using hy.symm⟩
  refine (forall₂_and_getElem? hall hstart hstart').imp ?_
  rintro t u ⟨halike, k, hk, ht, hu⟩
  rw [List.length_append, List.length_singleton, Nat.lt_succ_iff] at hk
  exact ⟨halike, k, hk, ht, hu⟩

/-- Parsing depends only on what it should. Two streams close with the end of input, and the tokens
before their first ends of input are equally many, of the same kinds, and have the same texts where
they are numbers or names. Then they are parsed to the same program; or both are refused, for one
cause, with the same kinds and the same text of a number, and every span in the one error is that of
the token at the index where the token of the span in the other one stands. Spans, other texts, and
what follows the first end of input make no difference. -/
theorem parse_congr_of_readsAlike (xs ys : List Token)
    (hx : xs.getLast?.map Token.kind = some .endOfInput)
    (hy : ys.getLast?.map Token.kind = some .endOfInput)
    (h : List.Forall₂ ReadsAlike (xs.takeWhile (·.kind ≠ .endOfInput))
      (ys.takeWhile (·.kind ≠ .endOfInput))) :
    (∀ p, parse xs = .ok p ↔ parse ys = .ok p) ∧
      ∀ e, parse xs = .error e → ∃ e', parse ys = .error e' ∧ SameError (AlikeAt xs ys) e e' := by
  obtain ⟨closing, rest, hclosing, hsplit, hparse⟩ := parse_eq_run hx
  obtain ⟨closing', rest', hclosing', hsplit', hparse'⟩ := parse_eq_run hy
  have hsame := sameResult_program (keepsReading_alikeAt xs ys)
    (forall₂_alikeAt hsplit hclosing hsplit' hclosing' h)
  rw [← hparse, ← hparse'] at hsame
  refine ⟨fun p => ⟨fun hp => ?_, fun hp => ?_⟩, fun e he => hsame.exists_of_eq_error he⟩
  · obtain ⟨q, hq, rfl⟩ := hsame.exists_of_eq_ok hp
    exact hq
  · cases hresult : parse xs with
    | ok q =>
      obtain ⟨r, hr, rfl⟩ := hsame.exists_of_eq_ok hresult
      rw [← hr, hp]
    | error e =>
      obtain ⟨e', he', -⟩ := hsame.exists_of_eq_error hresult
      rw [hp] at he'
      cases he'

/-- A group that is never closed, once as it is read from a text and once made by hand, with other
texts, with spans that end before they start, and with more tokens behind the first end of input:
the two read alike and are refused alike. -/
theorem parse_congr_of_readsAlike_unclosed :
    let xs : List Token :=
      [⟨.punctuation .openParen, "(", ⟨0, 1⟩⟩, ⟨.number, "1", ⟨1, 2⟩⟩,
        ⟨.punctuation .equals, "=", ⟨2, 3⟩⟩, .endOfInput 3]
    let ys : List Token :=
      [⟨.punctuation .openParen, "", ⟨9, 4⟩⟩, ⟨.number, "1", ⟨5, 5⟩⟩,
        ⟨.punctuation .equals, "let", ⟨8, 2⟩⟩, ⟨.endOfInput, "end", ⟨7, 1⟩⟩,
        ⟨.operator .caret, "^", ⟨0, 0⟩⟩, .endOfInput 0]
    let e : Error := ⟨.unclosedParenthesis (.punctuation .equals) ⟨0, 1⟩, ⟨2, 3⟩⟩
    (xs.getLast?.map Token.kind = some .endOfInput ∧
        ys.getLast?.map Token.kind = some .endOfInput ∧
        List.Forall₂ ReadsAlike (xs.takeWhile (·.kind ≠ .endOfInput))
          (ys.takeWhile (·.kind ≠ .endOfInput))) ∧
      parse xs = .error e ∧ ∃ e', parse ys = .error e' ∧ SameError (AlikeAt xs ys) e e' := by
  intro xs ys e
  have hx : xs.getLast?.map Token.kind = some .endOfInput := rfl
  have hy : ys.getLast?.map Token.kind = some .endOfInput := rfl
  have halike : List.Forall₂ ReadsAlike (xs.takeWhile (·.kind ≠ .endOfInput))
      (ys.takeWhile (·.kind ≠ .endOfInput)) := by
    refine .cons ⟨rfl, ?_⟩ (.cons ⟨rfl, fun _ => rfl⟩ (.cons ⟨rfl, ?_⟩ .nil)) <;> simp
  have herror : parse xs = .error e := by decide +kernel
  exact ⟨⟨hx, hy, halike⟩, herror, (parse_congr_of_readsAlike xs ys hx hy halike).2 e herror⟩

end Dependence

end Abacus.Grammar
