import Abacus.Proofs.Grammar.Refusal

/-!
# The parenthesis that is not closed

An opening parenthesis is closed by the closing one behind it up to which the tokens are balanced.
The parser keeps the spans of the parentheses that are open, innermost first. Where a group has a
complete sum and goes on with another token, the error names the innermost of them: the tokens
behind it derive an expression, so that each parenthesis among them is closed and it alone is not.
-/

namespace Abacus.Grammar

open Abacus.Parser

/-- As many parentheses are closed as are opened, none before it is opened. -/
structure IsBalanced (ts : List Token) : Prop where
  opens_eq : opens ts = closes ts
  closes_le_opens {start : List Token} : start <+: ts → closes start ≤ opens start

/-- Derived tokens are balanced. -/
theorem Derives.isBalanced {level : Level} {ts : List Token} {e : Expr} (h : Derives level ts e) :
    IsBalanced ts where
  opens_eq := h.balanced
  closes_le_opens := h.closes_le_opens

/-- The tokens strictly between two indices. -/
def between (ts : List Token) (i k : Nat) : List Token := (ts.take k).drop (i + 1)

/-- An opening and a closing parenthesis that belong together. -/
structure IsPair (ts : List Token) (i c : Nat) : Prop where
  lt : i < c
  kind_opening : ts[i]?.map Token.kind = some (.punctuation .openParen)
  kind_closing : ts[c]?.map Token.kind = some (.punctuation .closeParen)
  isBalanced : IsBalanced (between ts i c)

section Between

variable {ts front inner after : List Token} {t opening : Token} {i j k : Nat}

/-- The ends of a stretch of tokens, and what stands between them. -/
theorem between_append (hsplit : ts = front ++ opening :: (inner ++ t :: after)) :
    ts[front.length]? = some opening ∧ ts[front.length + 1 + inner.length]? = some t ∧
      between ts front.length (front.length + 1 + inner.length) = inner := by
  have hfront : ts = front ++ [opening] ++ (inner ++ t :: after) := by simp [hsplit]
  have hlength : (front ++ [opening]).length = front.length + 1 := by simp
  refine ⟨by simp [hsplit], ?_, ?_⟩
  · rw [hfront, ← hlength, List.getElem?_append_right (by omega)]
    simp
  · rw [between, hfront, List.drop_take, List.drop_left' hlength]
    exact List.take_left' (by omega)

/-- A token in front of an index parts the tokens in front of that index. -/
theorem take_eq_append_between (hjk : j < k) (ht : ts[j]? = some t) :
    ts.take k = ts.take j ++ t :: between ts j k := by
  have hget : (ts.take k)[j]? = some t := by rw [List.getElem?_take_of_lt hjk, ht]
  obtain ⟨hlt, hj⟩ := List.getElem?_eq_some_iff.mp hget
  calc ts.take k = (ts.take k).take j ++ (ts.take k).drop j := (List.take_append_drop j _).symm
    _ = ts.take j ++ t :: between ts j k := by
      rw [List.take_take, Nat.min_eq_left hjk.le, List.drop_eq_getElem_cons hlt, hj, between]

/-- A token between two indices parts the tokens between them. -/
theorem between_eq_append (hij : i < j) (hjk : j < k) (ht : ts[j]? = some t) :
    between ts i k = between ts i j ++ t :: between ts j k := by
  have hlength : i + 1 ≤ (ts.take j).length := by
    have := (List.getElem?_eq_some_iff.mp ht).1
    rw [List.length_take]
    omega
  rw [between, take_eq_append_between hjk ht, List.drop_append_of_le_length hlength]
  rfl

end Between

section Pairs

variable {ts : List Token} {i j k c : Nat}

/-- Tokens start with balanced ones and a closing parenthesis, or close none before it is opened. -/
theorem exists_closing_or_closes_le (ts : List Token) :
    (∃ inner closing rest, ts = inner ++ closing :: rest ∧
      closing.kind = .punctuation .closeParen ∧ IsBalanced inner) ∨
      ∀ start, start <+: ts → closes start ≤ opens start := by
  induction ts using List.reverseRecOn with
  | nil => exact .inr fun start hs => by simp [List.prefix_nil.mp hs]
  | append_singleton ts t ih =>
    rcases ih with ⟨inner, closing, rest, rfl, hk, hb⟩ | hle
    · exact .inl ⟨inner, closing, rest ++ [t], by simp, hk, hb⟩
    · have hts := hle ts (List.prefix_refl ts)
      by_cases hnext : closes (ts ++ [t]) ≤ opens (ts ++ [t])
      · refine .inr fun start hs => ?_
        rcases List.prefix_concat_iff.mp hs with rfl | hs
        · exact hnext
        · exact hle start hs
      · -- One token changes the count by one, so the tokens before it are balanced.
        simp only [opens_append, closes_append, opens_cons, closes_cons, opens_nil, closes_nil]
          at hnext
        have hk : t.kind = .punctuation .closeParen := by
          by_contra hk
          rw [if_neg hk] at hnext
          omega
        simp only [hk, if_true] at hnext
        exact .inl ⟨ts, t, [], rfl, hk, by simp at hnext; omega, fun hs => hle _ hs⟩

/-- In front of balanced tokens an opening parenthesis is closed by none of them. -/
theorem IsBalanced.not_isPair (h : IsBalanced (between ts i k)) (hc : c < k) :
    ¬ IsPair ts i c := by
  intro hpair
  obtain ⟨closing, hclosing, hk⟩ := Option.map_eq_some_iff.mp hpair.kind_closing
  have hprefix : between ts i c ++ [closing] <+: between ts i k :=
    ⟨between ts c k, by rw [between_eq_append hpair.lt hc hclosing, List.append_assoc]; rfl⟩
  have hle := h.closes_le_opens hprefix
  have heq := hpair.isBalanced.opens_eq
  simp [opens_cons, closes_cons, hk] at hle
  omega

/-- An opening parenthesis among balanced tokens is closed by one of them. -/
theorem IsBalanced.exists_isPair (h : IsBalanced (between ts i k)) (hij : i < j) (hjk : j < k)
    (hj : ts[j]?.map Token.kind = some (.punctuation .openParen)) : ∃ c, c < k ∧ IsPair ts j c := by
  obtain ⟨opening, hopening, hk⟩ := Option.map_eq_some_iff.mp hj
  have hparts := between_eq_append hij hjk hopening
  have hexcess : opens (between ts j k) < closes (between ts j k) := by
    have hle := h.closes_le_opens ⟨opening :: between ts j k, hparts.symm⟩
    have heq := h.opens_eq
    rw [hparts] at heq
    simp [opens_cons, closes_cons, hk] at heq
    omega
  rcases exists_closing_or_closes_le (between ts j k) with
    ⟨inner, closing, rest, hinner, hclose, hb⟩ | hle
  · have htake := take_eq_append_between hjk hopening
    rw [hinner] at htake
    have hsplit : ts = ts.take j ++ opening :: (inner ++ closing :: (rest ++ ts.drop k)) := by
      conv_lhs => rw [← List.take_append_drop k ts, htake]
      simp
    have hlength : (ts.take j).length = j := by
      have := (List.getElem?_eq_some_iff.mp hopening).1
      rw [List.length_take]
      omega
    obtain ⟨-, hclosing, hbetween⟩ := between_append hsplit
    rw [hlength] at hclosing hbetween
    have hlt : j + 1 + inner.length < k := by
      have hle := congrArg List.length htake
      simp only [List.length_append, List.length_cons, hlength] at hle
      have := List.length_take_le k ts
      omega
    refine ⟨_, hlt, by omega, hj, by rw [hclosing, Option.map_some, hclose], ?_⟩
    rwa [hbetween]
  · exact absurd (hle _ (List.prefix_refl _)) (by omega)

end Pairs

section Steps

variable {body : List Expr} {groups : List Group} {sum product : Option Pending} {v : Value}
  {state : State} {t : Token} {found : Kind} {openedAt span : Span}

/-- No parenthesis is missed where an operand is due. -/
theorem stepOperand_ne_unclosed :
    stepOperand body groups sum product t ≠
      .error ⟨.unclosedParenthesis found openedAt, span⟩ := by
  intro h
  unfold stepOperand at h
  split at h
  · split at h
    · obtain ⟨_, htoo⟩ := exists_tooDeep_of_supply h
      cases htoo
    · cases h
  · obtain ⟨_, htoo⟩ := exists_tooDeep_of_supply h
    cases htoo
  · split at h <;> cases h
  · cases h

/-- No parenthesis is missed between statements. -/
theorem stepBetween_ne_unclosed :
    stepBetween body t ≠ .error ⟨.unclosedParenthesis found openedAt, span⟩ := by
  intro h
  unfold stepBetween at h
  split at h
  · cases h
  · cases h
  · cases h
  · exact stepOperand_ne_unclosed h

/-- A sum inside a group is followed by a closing parenthesis, or that of the group is missed. -/
theorem stepAfterSum_eq_unclosed
    (h : stepAfterSum body groups v t = .error ⟨.unclosedParenthesis found openedAt, span⟩) :
    ∃ group outer, groups = group :: outer ∧ group.openedAt = openedAt ∧ t.kind = found ∧
      t.span = span ∧ t.kind ≠ .punctuation .closeParen := by
  cases groups with
  | nil => exact absurd h stepBetween_ne_unclosed
  | cons group outer =>
    simp only [stepAfterSum] at h
    split at h
    · obtain ⟨_, htoo⟩ := exists_tooDeep_of_supply h
      cases htoo
    · next hclose =>
      cases h
      exact ⟨group, outer, rfl, rfl, rfl, rfl, hclose⟩

/-- A parenthesis is missed where a sum inside its group is complete, at a token that neither closes
the group nor goes on with the sum. -/
theorem step_eq_unclosed
    (h : step state t = .error ⟨.unclosedParenthesis found openedAt, span⟩) :
    ∃ body group outer sum v total, state = .operator body (group :: outer) sum v ∧
      complete sum v = .ok total ∧ group.openedAt = openedAt ∧ t.kind = found ∧ t.span = span ∧
      t.kind ≠ .punctuation .closeParen ∧ t.kind.multiplicative? = none ∧
      t.kind.additive? = none := by
  cases state with
  | between body => exact absurd h stepBetween_ne_unclosed
  | operand body groups sum product => exact absurd h stepOperand_ne_unclosed
  | operator body groups sum v =>
    simp only [step, stepOperator] at h
    split at h
    · cases h
    · next hm =>
      cases htotal : complete sum v with
      | error e =>
        rw [htotal] at h
        cases h
        obtain ⟨_, htoo⟩ := exists_tooDeep_of_complete htotal
        cases htoo
      | ok total =>
        simp only [htotal, bind, Except.bind] at h
        split at h
        · cases h
        · next ha =>
          obtain ⟨group, outer, rfl, hopened, hfound, hspan, hclose⟩ := stepAfterSum_eq_unclosed h
          exact ⟨body, group, outer, sum, v, total, rfl, htotal, hopened, hfound, hspan, hclose,
            hm, ha⟩

end Steps

/-- An unclosed parenthesis is reported as the right one. Where a stream that closes with the end of
input is refused for a parenthesis that is not closed, the reported token goes on with no sum and
closes no group, and the reported parenthesis stands in front of it. The tokens between the two are
balanced and derive an expression; so the parenthesis is not closed before the token, and each one
opened between them is. -/
theorem parse_unclosed_innermost (tokens : List Token)
    (h : tokens.getLast?.map Token.kind = some .endOfInput) (found : Kind) (openedAt span : Span)
    (herror : parse tokens = .error ⟨.unclosedParenthesis found openedAt, span⟩) :
    ∃ i k opening t, i < k ∧ k ≤ (tokens.takeWhile (·.kind ≠ .endOfInput)).length ∧
      tokens[i]? = some opening ∧ tokens[k]? = some t ∧
      (opening.kind = .punctuation .openParen ∧ opening.span = openedAt) ∧
      (t.kind = found ∧ t.span = span ∧ found ≠ .punctuation .closeParen ∧
        ∀ op : BinaryOp, found ≠ .operator op.operator) ∧
      (between tokens i k ≠ [] ∧ IsBalanced (between tokens i k) ∧
        ∃ e, Derives .sum (between tokens i k) e) ∧
      (∀ c, c < k → ¬ IsPair tokens i c) ∧
      ∀ j, i < j → j < k → tokens[j]?.map Token.kind = some (.punctuation .openParen) →
        ∃ c, c < k ∧ IsPair tokens j c := by
  obtain ⟨before, t, after, reached, htokens, hstart, -, hreads, hstep⟩ :=
    exists_step_of_parse_eq_error h herror
  obtain ⟨body, group, groups, sum, v, total, rfl, htotal, rfl, rfl, rfl, hclose, hm, ha⟩ :=
    step_eq_unclosed hstep
  cases hreads with
  | @operator _ _ _ _ bs os ss vs hb ho hs hv =>
    cases ho with
    | @cons _ _ outer ss' ps opening houter _ hs' hp hopen hspan =>
      have hsum := hv.joinSum hs htotal
      have hsplit : tokens =
          bs ++ (outer ++ (ss' ++ ps)) ++ opening :: (ss ++ vs ++ t :: after) := by
        simp [htokens]
      obtain ⟨hi, hk, hbetween⟩ := between_append hsplit
      have hbalanced := hsum.derives.isBalanced
      rw [← hbetween] at hbalanced
      have hle := hstart.length_le
      simp only [List.length_append, List.length_cons, List.length_nil] at hle
      refine ⟨_, _, opening, t, by omega, ?_, hi, hk, ⟨hopen, hspan⟩, ⟨rfl, rfl, hclose, ?_⟩,
        ⟨?_, hbalanced, total.expr, ?_⟩, fun c hc => hbalanced.not_isPair hc,
        fun j hij hjk hj => hbalanced.exists_isPair hij hjk hj⟩
      · simp only [List.length_append]
        exact Nat.le_trans (by omega) hle
      · rintro op hop
        rw [hop] at hm ha
        cases op <;> simp [BinaryOp.operator, Kind.multiplicative?, Kind.additive?] at hm ha
      · rw [hbetween]
        exact hsum.derives.ne_nil
      · rw [hbetween]
        exact hsum.derives

/-- A group with a complete group in it, inside an open one: the stream closes with the end of
input, and the number behind the inner group is reported with the parenthesis of the group it stands
in. -/
theorem parse_unclosed_innermost_nested :
    let tokens : List Token :=
      [⟨.punctuation .openParen, "(", ⟨0, 1⟩⟩, ⟨.identifier, "a", ⟨1, 2⟩⟩,
        ⟨.operator .star, "*", ⟨2, 3⟩⟩, ⟨.punctuation .openParen, "(", ⟨3, 4⟩⟩,
        ⟨.punctuation .openParen, "(", ⟨4, 5⟩⟩, ⟨.identifier, "b", ⟨5, 6⟩⟩,
        ⟨.punctuation .closeParen, ")", ⟨6, 7⟩⟩, ⟨.number, "1", ⟨8, 9⟩⟩, .endOfInput 9]
    tokens.getLast?.map Token.kind = some .endOfInput ∧
      parse tokens = .error ⟨.unclosedParenthesis .number ⟨3, 4⟩, ⟨8, 9⟩⟩ ∧
      ∃ i k, i < k ∧ tokens[i]?.map Token.span = some ⟨3, 4⟩ ∧
        tokens[k]?.map Token.span = some ⟨8, 9⟩ ∧ (∃ e, Derives .sum (between tokens i k) e) ∧
        ∀ c, c < k → ¬ IsPair tokens i c := by
  intro tokens
  have hlast : tokens.getLast?.map Token.kind = some .endOfInput := rfl
  have herror : parse tokens = .error ⟨.unclosedParenthesis .number ⟨3, 4⟩, ⟨8, 9⟩⟩ := by
    decide +kernel
  obtain ⟨i, k, opening, t, hik, -, hi, hk, ⟨-, hopened⟩, ⟨-, hspan, -⟩, ⟨-, -, hd⟩, hpair, -⟩ :=
    parse_unclosed_innermost tokens hlast _ _ _ herror
  refine ⟨hlast, herror, i, k, hik, ?_, ?_, hd, hpair⟩
  · rw [hi, Option.map_some, hopened]
  · rw [hk, Option.map_some, hspan]

end Abacus.Grammar
