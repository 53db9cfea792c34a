import Abacus.Proofs.Diagnostic.Location

/-!
# Reserved words and marks

The vocabulary marks a keyword, an operator and a punctuation mark as reserved; the grammar is
written without a look at these marks. Both say the same: no derivation has a token of a reserved
kind, so that the parser takes none, and refuses a stream with one at that token or before it. Every
other kind occurs in a stream that is accepted.
-/

namespace Abacus.Grammar

open Abacus.Parser

/-- The reserved kinds: operators that the vocabulary reserves, the keyword and the equals sign. -/
theorem isReserved_iff (kind : Kind) :
    kind.isReserved = true ↔
      (∃ op : Operator, kind = .operator op ∧ op.stability = .reserved) ∨
        kind = .keyword .binding ∨ kind = .punctuation .equals := by
  cases kind with
  | number | identifier | endOfInput => simp [Kind.isReserved]
  | keyword word => cases word; simp [Kind.isReserved, Keyword.stability, Stability.isSupported]
  | operator op =>
    cases op <;> simp [Kind.isReserved, Operator.stability, Stability.isSupported]
  | punctuation mark =>
    cases mark <;> simp [Kind.isReserved, Punctuation.stability, Stability.isSupported]

/-- No operation is written with a reserved operator. -/
theorem isReserved_operator (op : BinaryOp) : (Kind.operator op.operator).isReserved = false := by
  cases op <;> rfl

section Derivation

variable {ts : List Token}

/-- No derivation has a reserved token. -/
theorem Derives.isReserved_eq_false {level : Level} {e : Expr} (h : Derives level ts e) :
    ∀ t ∈ ts, t.kind.isReserved = false := by
  induction h with
  | number ht | ident ht => simp [ht, Kind.isReserved]
  | @group opening closing ts e hopen hclose _ ih =>
    have hopening : opening.kind.isReserved = false := by rw [hopen]; rfl
    have hclosing : closing.kind.isReserved = false := by rw [hclose]; rfl
    simpa [or_imp, forall_and, hopening, hclosing] using ih
  | ofOperand _ ih | ofProduct _ ih => exact ih
  | @multiply left right t op l r _ ht _ _ ihl ihr | @add left right t op l r _ ht _ _ ihl ihr =>
    have hoperator : t.kind.isReserved = false := by rw [ht]; exact isReserved_operator op
    simpa [or_imp, forall_and, hoperator] using And.intro ihl ihr

/-- No statements have a reserved token. -/
theorem DerivesBody.isReserved_eq_false {body : List Expr} (h : DerivesBody ts body) :
    ∀ t ∈ ts, t.kind.isReserved = false := by
  induction h with
  | nil => simp
  | cons hd _ ih =>
    simpa [or_imp, forall_and] using And.intro hd.isReserved_eq_false ih

/-- No start of a sentence has a reserved token. -/
theorem IsViable.isReserved_eq_false (h : IsViable ts) : ∀ t ∈ ts, t.kind.isReserved = false := by
  obtain ⟨more, sentence, closing, p, hsplit, hclosing, hd⟩ := h
  intro t ht
  have hmem : t ∈ sentence ++ [closing] := hsplit ▸ List.mem_append_left more ht
  rcases List.mem_append.mp hmem with hmem | hmem
  · exact DerivesBody.isReserved_eq_false hd t hmem
  · rw [List.mem_singleton.mp hmem, hclosing]
    rfl

end Derivation

/-- A stream with a reserved token before its first end of input is refused at that token or at one
in front of it. -/
theorem exists_error_of_isReserved {tokens : List Token}
    (h : tokens.getLast?.map Token.kind = some .endOfInput) {k : Nat} {t : Token}
    (hk : k < (sentence tokens).length) (ht : tokens[k]? = some t)
    (hreserved : t.kind.isReserved = true) :
    ∃ e, parse tokens = .error e ∧
      ∃ j u, j ≤ k ∧ tokens[j]? = some u ∧ e.span = u.span := by
  have hmem : t ∈ sentence tokens := by
    have hstart : sentence tokens <+: tokens := List.takeWhile_prefix _
    have hget := List.prefix_iff_getElem?.mp hstart k hk
    rw [ht] at hget
    exact Option.some.inj hget ▸ List.getElem_mem hk
  cases hresult : parse tokens with
  | ok p =>
    have hfree := DerivesBody.isReserved_eq_false (derives_of_parse_eq_ok h hresult).1 t hmem
    rw [hreserved] at hfree
    cases hfree
  | error e =>
    obtain ⟨before, u, after, reached, hsplit, -, hrun, hreads, hstep⟩ :=
      exists_step_of_parse_eq_error h hresult
    -- The parser takes no reserved token, so it stops no later than at the one given.
    have hle : before.length ≤ k := by
      by_contra hlt
      have htaken : before[k]? = some t := by
        rw [← ht, hsplit, List.getElem?_append_left (Nat.not_le.mp hlt)]
      have hfree := hreads.isViable.isReserved_eq_false t (List.mem_of_getElem? htaken)
      rw [hreserved] at hfree
      cases hfree
    obtain ⟨v, hv, hlies⟩ := exists_liesAt_of_step_eq_error hrun hstep
    obtain ⟨j, hj, hget⟩ := List.getElem_of_mem hv
    rw [List.length_append, List.length_singleton] at hj
    have hprefix : before ++ [u] <+: tokens := ⟨after, by rw [hsplit, List.append_assoc]; rfl⟩
    refine ⟨e, rfl, j, v, by omega, ?_, hlies.span_eq⟩
    rw [List.prefix_iff_getElem?.mp hprefix j (by simpa using hj), hget]

/-- A stream with every kind of token that the grammar takes: `(x + 1 - x * x / x % x)`. -/
def everyKind : List Token :=
  let name : Token := ⟨.identifier, "x", .origin⟩
  let operator (op : Operator) : Token := ⟨.operator op, op.spelling, .origin⟩
  [⟨.punctuation .openParen, "(", .origin⟩, name, operator .plus, ⟨.number, "1", .origin⟩,
    operator .minus, name, operator .star, name, operator .slash, name, operator .percent, name,
    ⟨.punctuation .closeParen, ")", .origin⟩, .endOfInput 0]

/-- Every kind that is not reserved occurs before the end of input. -/
theorem exists_mem_everyKind {kind : Kind} (hend : kind ≠ .endOfInput)
    (h : kind.isReserved = false) : ∃ t ∈ sentence everyKind, t.kind = kind := by
  have hall : ∀ k ∈ [Kind.number, .identifier, .operator .plus, .operator .minus, .operator .star,
      .operator .slash, .operator .percent, .punctuation .openParen, .punctuation .closeParen],
      ∃ t ∈ sentence everyKind, t.kind = k := by decide +kernel
  apply hall
  cases kind with
  | number | identifier => simp
  | endOfInput => exact absurd rfl hend
  | keyword word => cases word; cases h
  | operator op =>
    cases op with
    | plus | minus | star | slash | percent => simp
    | caret => cases h
  | punctuation mark =>
    cases mark with
    | openParen | closeParen => simp
    | equals => cases h

/-- The vocabulary and the grammar agree on what is reserved. A stream that closes with the end of
input and has a reserved token before its first end of input (an operator that the vocabulary
reserves, the keyword or the equals sign) is refused, with the span of a token that stands no later
than any such token. Every other kind but the end of input occurs in a stream that is accepted. -/
theorem parse_refuses_reserved :
    (∀ kind : Kind, kind.isReserved = true ↔
      (∃ op : Operator, kind = .operator op ∧ op.stability = .reserved) ∨
        kind = .keyword .binding ∨ kind = .punctuation .equals) ∧
      (∀ tokens : List Token, tokens.getLast?.map Token.kind = some .endOfInput →
        ∀ k t, k < (tokens.takeWhile (·.kind ≠ .endOfInput)).length → tokens[k]? = some t →
          t.kind.isReserved = true →
          ∃ e, parse tokens = .error e ∧
            ∃ j u, j ≤ k ∧ tokens[j]? = some u ∧ e.span = u.span) ∧
      ∀ kind : Kind, kind ≠ .endOfInput → kind.isReserved = false →
        ∃ tokens p, parse tokens = .ok p ∧
          ∃ t ∈ tokens.takeWhile (·.kind ≠ .endOfInput), t.kind = kind := by
  refine ⟨isReserved_iff, fun tokens h k t hk ht => exists_error_of_isReserved h hk ht, ?_⟩
  intro kind hend h
  have haccepted : (parse everyKind).toOption.isSome = true := by decide +kernel
  cases hparse : parse everyKind with
  | error e => rw [hparse] at haccepted; cases haccepted
  | ok p => exact ⟨everyKind, p, hparse, exists_mem_everyKind hend h⟩

/-- A group with a reserved operator, and an equals sign behind it: the stream is refused at a token
no later than the operator, and the operators that are not reserved are all accepted. -/
theorem parse_refuses_reserved_caret :
    let tokens : List Token :=
      [⟨.punctuation .openParen, "(", ⟨0, 1⟩⟩, ⟨.identifier, "a", ⟨1, 2⟩⟩,
        ⟨.operator .caret, "^", ⟨2, 3⟩⟩, ⟨.punctuation .equals, "=", ⟨3, 4⟩⟩, .endOfInput 4]
    (tokens.getLast?.map Token.kind = some .endOfInput ∧
        2 < (tokens.takeWhile (·.kind ≠ .endOfInput)).length ∧
        tokens[2]?.map (·.kind.isReserved) = some true ∧
        (Kind.operator .percent).isReserved = false) ∧
      (∃ e, parse tokens = .error e ∧ ∃ j u, j ≤ 2 ∧ tokens[j]? = some u ∧ e.span = u.span) ∧
      ∃ accepted p, parse accepted = .ok p ∧
        ∃ t ∈ accepted.takeWhile (·.kind ≠ .endOfInput), t.kind = .operator .percent := by
  intro tokens
  have hlast : tokens.getLast?.map Token.kind = some .endOfInput := rfl
  obtain ⟨-, hrefuses, haccepts⟩ := parse_refuses_reserved
  have hindex : 2 < (tokens.takeWhile (·.kind ≠ .endOfInput)).length := by decide
  exact ⟨⟨hlast, hindex, rfl, rfl⟩, hrefuses tokens hlast 2 _ hindex rfl rfl,
    haccepts (.operator .percent) (by decide) rfl⟩

end Abacus.Grammar
