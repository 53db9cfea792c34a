import Abacus.Proofs.Grammar.Limits

/-!
# Derived tokens in the parser

Tokens that the grammar derives lead the parser to the derived expression, or to the error of one of
their faults, and to nothing else. The induction follows the derivation: an operand is supplied to
whatever waits for it, a product is complete when its last operand is, and a sum is complete once
the next token shows that it goes no further.
-/

namespace Abacus.Grammar

open Abacus.Parser

section Steps

variable {t : Token} {op : BinaryOp} (body : List Expr) (groups : List Group)
  (sum product : Option Pending) (v : Value)

theorem step_number (hk : t.kind = .number) (hr : IsReadable t) :
    step (.operand body groups sum product) t =
      supply body groups sum product ⟨.number (numberOf t), 1⟩ := by
  simp [step, stepOperand, hk, (isReadable_iff t).mp hr hk]

theorem step_unreadable (hr : ¬ IsReadable t) :
    step (.operand body groups sum product) t = .error ⟨.invalidNumber t.text, t.span⟩ := by
  obtain ⟨hk, hnone⟩ := (not_isReadable_iff t).mp hr
  simp [step, stepOperand, hk, hnone]

theorem step_ident (hk : t.kind = .identifier) :
    step (.operand body groups sum product) t =
      supply body groups sum product ⟨.ident t.text, 1⟩ := by
  simp [step, stepOperand, hk]

theorem step_open (hk : t.kind = .punctuation .openParen) :
    step (.operand body groups sum product) t =
      if groups.length < nestingLimit then
        .ok (.operand body (⟨t.span, sum, product⟩ :: groups) none none)
      else .error (tooDeep t.span) := by
  simp [step, stepOperand, hk]

theorem step_multiply (hop : op ∈ [BinaryOp.mul, .div, .mod])
    (hk : t.kind = .operator op.operator) :
    step (.operator body groups sum v) t =
      .ok (.operand body groups sum (some ⟨v, op, t.span⟩)) := by
  have hm : t.kind.multiplicative? = some op := by
    rw [hk]
    cases op <;> simp_all [BinaryOp.operator, Kind.multiplicative?]
  simp [step, stepOperator, hm]

theorem step_add (hop : op ∈ [BinaryOp.add, .sub]) (hk : t.kind = .operator op.operator) :
    step (.operator body groups sum v) t = (complete sum v).map fun total =>
      .operand body groups (some ⟨total, op, t.span⟩) none := by
  have hm : t.kind.multiplicative? = none := by
    rw [hk]
    cases op <;> simp_all [BinaryOp.operator, Kind.multiplicative?]
  have ha : t.kind.additive? = some op := by
    rw [hk]
    cases op <;> simp_all [BinaryOp.operator, Kind.additive?]
  simp only [step, stepOperator, hm, ha]
  cases complete sum v <;> rfl

/-- A token that is no operator ends the sum before it. -/
theorem step_afterSum (hm : t.kind.multiplicative? = none) (ha : t.kind.additive? = none) :
    step (.operator body groups sum v) t =
      (complete sum v).bind fun total => stepAfterSum body groups total t := by
  simp only [step, stepOperator, hm, ha]
  rfl

theorem step_close (group : Group) (hk : t.kind = .punctuation .closeParen) :
    step (.operator body (group :: groups) sum v) t =
      (complete sum v).bind (supply body groups group.sum group.product) := by
  rw [step_afterSum _ _ _ _ (by rw [hk]; rfl) (by rw [hk]; rfl)]
  simp [stepAfterSum, hk]

end Steps

theorem run_singleton (state : State) (t : Token) : run state [t] = step state t := by
  rw [run_cons]
  cases step state t <;> rfl

/-- How the parser takes tokens derived at a level, whatever waits for them in groups within the
limit: it completes the derived expression unless the tokens have a fault. -/
def Takes : Level → List Token → Expr → Prop
  | .operand, ts, e => ∀ body groups sum product, groups.length ≤ nestingLimit →
    (e.height ≤ nestingLimit ∧
      run (.operand body groups sum product) ts = supply body groups sum product ⟨e, e.height⟩) ∨
      Refuses groups.length ts e.operations (run (.operand body groups sum product) ts)
  | .product, ts, e => ∀ body groups sum, groups.length ≤ nestingLimit →
    (e.height ≤ nestingLimit ∧
      run (.operand body groups sum none) ts = .ok (.operator body groups sum ⟨e, e.height⟩)) ∨
      Refuses groups.length ts e.operations (run (.operand body groups sum none) ts)
  | .sum, ts, e => ∀ body groups, groups.length ≤ nestingLimit →
    (∃ sum v, run (.operand body groups none none) ts = .ok (.operator body groups sum v) ∧
      ((e.height ≤ nestingLimit ∧ complete sum v = .ok ⟨e, e.height⟩) ∨
        Refuses groups.length ts e.operations (complete sum v))) ∨
      Refuses groups.length ts e.operations (run (.operand body groups none none) ts)

section Constructors

variable {ts left right : List Token} {t opening closing : Token} {op : BinaryOp} {e l r : Expr}

/-- Joining two complete values gives the value of the joined tree, unless it is too high. -/
theorem complete_some (already : Nat) (right : List Token)
    (hlength : (operators left).length = l.operations.length)
    (hk : t.kind = .operator op.operator) (hl : l.height ≤ nestingLimit)
    (hr : r.height ≤ nestingLimit) :
    ((Expr.binary op l r).height ≤ nestingLimit ∧
      complete (some ⟨⟨l, l.height⟩, op, t.span⟩) ⟨r, r.height⟩ =
        .ok ⟨.binary op l r, (Expr.binary op l r).height⟩) ∨
      Refuses already (left ++ t :: right) (Expr.binary op l r).operations
        (complete (some ⟨⟨l, l.height⟩, op, t.span⟩) ⟨r, r.height⟩) := by
  simp only [complete]
  split
  · next hhigh =>
    have hmem : (t, .binary op l r) ∈
        (operators (left ++ t :: right)).zip (Expr.binary op l r).operations := by
      rw [operators_append, operators_cons_operator hk, Expr.operations, List.zip_append hlength]
      exact List.mem_append_right _ List.mem_cons_self
    exact .inr ⟨_, .height hmem hk hl hr hhigh, rfl⟩
  · next hlow => exact .inl ⟨Nat.not_lt.mp hlow, rfl⟩

/-- A group opens one parenthesis more around its sum and supplies the value to what waits. -/
theorem Takes.group (hopen : opening.kind = .punctuation .openParen)
    (hclose : closing.kind = .punctuation .closeParen) (hd : Derives .sum ts e)
    (h : Takes .sum ts e) : Takes .operand (opening :: (ts ++ [closing])) e := by
  intro body groups sum product hgroups
  rw [run_cons, step_open _ _ _ _ hopen]
  split
  · next hroom =>
    rcases h body (⟨opening.span, sum, product⟩ :: groups) hroom with
      ⟨sum', v, hrun, ⟨hheight, htotal⟩ | hrefuses⟩ | hrefuses
    · rw [Except.bind, run_append, hrun, Except.bind, run_singleton, step_close _ _ _ _ _ hclose,
        htotal]
      exact .inl ⟨hheight, rfl⟩
    · obtain ⟨error, hfault, htotal⟩ := hrefuses.ofGroup hd hopen closing
      rw [Except.bind, run_append, hrun, Except.bind, run_singleton, step_close _ _ _ _ _ hclose,
        htotal]
      exact .inr ⟨error, hfault, rfl⟩
    · obtain ⟨error, hfault, hrun⟩ := hrefuses.ofGroup hd hopen closing
      rw [Except.bind, run_append, hrun]
      exact .inr ⟨error, hfault, rfl⟩
  · next hfull =>
    refine .inr ⟨_, .depth (List.nil_append _).symm hopen ?_, rfl⟩
    rw [opens_nil, closes_nil]
    omega

/-- A factor joins the product before it as soon as it is complete. -/
theorem Takes.multiply (hop : op ∈ [BinaryOp.mul, .div, .mod])
    (hk : t.kind = .operator op.operator) (hd : Derives .product left l)
    (hl : Takes .product left l) (hr : Takes .operand right r) :
    Takes .product (left ++ t :: right) (.binary op l r) := by
  intro body groups sum hgroups
  rw [run_append]
  rcases hl body groups sum hgroups with ⟨hlow, hrun⟩ | hrefuses
  · rw [hrun, Except.bind, run_cons, step_multiply _ _ _ _ hop hk, Except.bind]
    rcases hr body groups sum (some ⟨⟨l, l.height⟩, op, t.span⟩) hgroups with
      ⟨hlow', hrun⟩ | hrefuses
    · rw [hrun, supply]
      rcases complete_some groups.length right hd.length_operators hk hlow hlow' with
        ⟨hheight, htotal⟩ | ⟨error, hfault, htotal⟩
      · rw [htotal]
        exact .inl ⟨hheight, rfl⟩
      · rw [htotal]
        exact .inr ⟨error, hfault, rfl⟩
    · exact .inr (hrefuses.ofRight hd hk)
  · obtain ⟨error, hfault, hrun⟩ := hrefuses.ofLeft hd op t right r
    rw [hrun]
    exact .inr ⟨error, hfault, rfl⟩

/-- An additive operator completes the sum before it and waits for the next product. -/
theorem Takes.add (hop : op ∈ [BinaryOp.add, .sub]) (hk : t.kind = .operator op.operator)
    (hd : Derives .sum left l) (hl : Takes .sum left l) (hr : Takes .product right r) :
    Takes .sum (left ++ t :: right) (.binary op l r) := by
  intro body groups hgroups
  rw [run_append]
  rcases hl body groups hgroups with ⟨sum, v, hrun, ⟨hlow, htotal⟩ | hrefuses⟩ | hrefuses
  · rw [hrun, Except.bind, run_cons, step_add _ _ _ _ hop hk, htotal, Except.map, Except.bind]
    rcases hr body groups (some ⟨⟨l, l.height⟩, op, t.span⟩) hgroups with ⟨hlow', hrun⟩ | hrefuses
    · refine .inl ⟨_, _, hrun, ?_⟩
      exact complete_some groups.length right hd.length_operators hk hlow hlow'
    · exact .inr (hrefuses.ofRight hd hk)
  · obtain ⟨error, hfault, htotal⟩ := hrefuses.ofLeft hd op t right r
    rw [hrun, Except.bind, run_cons, step_add _ _ _ _ hop hk, htotal]
    exact .inr ⟨error, hfault, rfl⟩
  · obtain ⟨error, hfault, hrun⟩ := hrefuses.ofLeft hd op t right r
    rw [hrun]
    exact .inr ⟨error, hfault, rfl⟩

end Constructors

/-- Derived tokens lead the parser to the derived expression or to the error of a fault. -/
theorem Derives.takes {level : Level} {ts : List Token} {e : Expr} (h : Derives level ts e) :
    Takes level ts e := by
  induction h with
  | @number t hk =>
    intro body groups sum product _
    rw [run_singleton]
    by_cases hr : IsReadable t
    · rw [step_number _ _ _ _ hk hr]
      exact .inl ⟨one_le_nestingLimit, rfl⟩
    · rw [step_unreadable _ _ _ _ hr]
      exact .inr ⟨_, .number (List.mem_singleton_self t) hr, rfl⟩
  | ident hk =>
    intro body groups sum product _
    rw [run_singleton, step_ident _ _ _ _ hk]
    exact .inl ⟨one_le_nestingLimit, rfl⟩
  | group hopen hclose hd ih => exact ih.group hopen hclose hd
  | ofOperand _ ih =>
    intro body groups sum
    exact ih body groups sum none
  | ofProduct _ ih =>
    intro body groups hgroups
    rcases ih body groups none hgroups with ⟨hheight, hrun⟩ | hrefuses
    · exact .inl ⟨none, _, hrun, .inl ⟨hheight, rfl⟩⟩
    · exact .inr hrefuses
  | multiply hop hk hl _ ihl ihr => exact ihl.multiply hop hk hl ihr
  | add hop hk hl _ ihl ihr => exact ihl.add hop hk hl ihr

/-- Between statements a token that starts an operand starts a statement. -/
theorem run_between_of_startsOperand {t : Token} (ht : StartsOperand t.kind) (body : List Expr)
    (rest : List Token) :
    run (.between body) (t :: rest) = run (.operand body [] none none) (t :: rest) := by
  have hstep : step (.between body) t = step (.operand body [] none none) t := by
    rcases ht with hk | hk | hk <;> simp [step, stepBetween, hk]
  rw [run_cons, run_cons, hstep]

theorem operator?_of_next {t : Token} (ht : StartsOperand t.kind ∨ t.kind = .endOfInput) :
    t.kind.multiplicative? = none ∧ t.kind.additive? = none := by
  rcases ht with (hk | hk | hk) | hk <;> simp [hk, Kind.multiplicative?, Kind.additive?]

/-- The end of input is taken between statements, or where it completes the last one outside all
groups. -/
theorem step_end_cases {state state' : State} {closing : Token}
    (hclosing : closing.kind = .endOfInput) (h : step state closing = .ok state') :
    (∃ body, state = .between body ∧ state' = .between body) ∨
      ∃ body sum v total, state = .operator body [] sum v ∧ complete sum v = .ok total ∧
        state' = .between (total.expr :: body) := by
  cases state with
  | between body =>
    simp only [step, stepBetween, hclosing] at h
    cases h
    exact .inl ⟨body, rfl, rfl⟩
  | operand body groups sum product => simp [step, stepOperand, hclosing] at h
  | operator body groups sum v =>
    obtain ⟨hm, ha⟩ := operator?_of_next (.inr hclosing)
    rw [step_afterSum _ _ _ _ hm ha] at h
    cases htotal : complete sum v with
    | error e => rw [htotal] at h; cases h
    | ok total =>
      rw [htotal] at h
      cases groups with
      | cons group groups => simp [Except.bind, stepAfterSum, hclosing] at h
      | nil =>
        simp only [Except.bind, stepAfterSum, stepBetween, hclosing] at h
        cases h
        exact .inr ⟨body, sum, v, total, rfl, htotal, rfl⟩

/-- Behind a complete statement a token that is no operator is taken as between statements. -/
theorem run_operator_of_complete {sum : Option Pending} {v total : Value} {t : Token}
    (htotal : complete sum v = .ok total) (ht : StartsOperand t.kind ∨ t.kind = .endOfInput)
    (body : List Expr) (rest : List Token) :
    run (.operator body [] sum v) (t :: rest) =
      run (.between (total.expr :: body)) (t :: rest) := by
  obtain ⟨hm, ha⟩ := operator?_of_next ht
  rw [run_cons, run_cons, step_afterSum _ _ _ _ hm ha, htotal]
  rfl

section Statements

variable {ts : List Token} {e : Expr} {body : List Expr}

/-- Behind a statement comes the start of the next one or the end of input. -/
theorem DerivesBody.exists_next (h : DerivesBody ts body) {closing : Token}
    (hclosing : closing.kind = .endOfInput) :
    ∃ t rest, ts ++ [closing] = t :: rest ∧ (StartsOperand t.kind ∨ t.kind = .endOfInput) := by
  cases ts with
  | nil => exact ⟨closing, [], rfl, .inr hclosing⟩
  | cons t ts => exact ⟨t, ts ++ [closing], rfl, .inl (h.startsOperand_head rfl)⟩

/-- A statement is complete when the next token is no operator, or is refused by then. -/
theorem Derives.run_statement (h : Derives .sum ts e) (body : List Expr) {t : Token}
    (ht : StartsOperand t.kind ∨ t.kind = .endOfInput) (rest : List Token) :
    run (.between body) (ts ++ t :: rest) = run (.between (e :: body)) (t :: rest) ∨
      Refuses 0 ts e.operations (run (.between body) (ts ++ t :: rest)) := by
  obtain ⟨first, others, rfl, hfirst⟩ := h.exists_head
  rw [List.cons_append, run_between_of_startsOperand hfirst, ← List.cons_append, run_append]
  rcases h.takes body [] (Nat.zero_le _) with
    ⟨sum, v, hrun, ⟨-, htotal⟩ | ⟨error, hfault, htotal⟩⟩ | ⟨error, hfault, hrun⟩
  · rw [hrun, Except.bind]
    exact .inl (run_operator_of_complete htotal ht body rest)
  · refine .inr ⟨error, hfault, ?_⟩
    obtain ⟨hm, ha⟩ := operator?_of_next ht
    rw [hrun, Except.bind, run_cons, step_afterSum _ _ _ _ hm ha, htotal]
    rfl
  · rw [hrun]
    exact .inr ⟨error, hfault, rfl⟩

end Statements

/-- Derived statements lead the parser to themselves or to the error of a fault. -/
theorem DerivesBody.run_eq {ts : List Token} {es : List Expr} (h : DerivesBody ts es)
    {closing : Token} (hclosing : closing.kind = .endOfInput) (body : List Expr) :
    run (.between body) (ts ++ [closing]) = .ok (.between (es.reverse ++ body)) ∨
      Refuses 0 ts (es.flatMap Expr.operations) (run (.between body) (ts ++ [closing])) := by
  induction h generalizing body with
  | nil =>
    rw [List.nil_append, run_singleton]
    exact .inl (by simp [step, stepBetween, hclosing])
  | @cons us rest e es hd hrest ih =>
    obtain ⟨t, more, hnext, ht⟩ := hrest.exists_next hclosing
    have htail := ih (e :: body)
    rw [List.append_assoc]
    rw [hnext] at htail ⊢
    rw [List.flatMap_cons]
    rcases hd.run_statement body ht more with hrun | ⟨error, hfault, hrun⟩
    · rw [hrun]
      rcases htail with hok | ⟨error, hfault, hrest⟩
      · exact .inl (by simpa using hok)
      · exact .inr ⟨error, hfault.prepend hd.balanced hd.length_operators, hrest⟩
    · exact .inr ⟨error, hfault.append hd.length_operators _ _, hrun⟩

end Abacus.Grammar
