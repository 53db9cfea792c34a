import Abacus.Program.Parser
import Mathlib.Data.List.Chain

/-!
# The grammar of programs

A program is any number of expressions; an expression is a sum of products of operands, chains
grouping to the left, and an operand is a number, a name or an expression in parentheses, which
leave no node. The grammar is a relation between tokens and trees and knows no limits: neither on
open parentheses nor on heights nor on what a number token spells.

Derived tokens are balanced, an operator of a looser level stands inside parentheses only, and two
operands never meet without an operator between them. These facts place every split of a derivation,
so that tokens derive at most one program.
-/

namespace Abacus.Grammar

/-- The levels of expressions, from the tightest to the loosest. -/
inductive Level
  | operand
  | product
  | sum
  deriving DecidableEq

/-- The operations that may stand outside parentheses at a level. -/
def Level.operations : Level → List BinaryOp
  | operand => []
  | product => [.mul, .div, .mod]
  | sum => [.add, .sub, .mul, .div, .mod]

/-- The number that a token stands for; infinite when its text spells no finite number. -/
def numberOf (t : Token) : Binary64 :=
  (Binary64.ofText? t.text).getD ⟨false, Binary64.infinity, Binary64.infinity_lt⟩

/-- The expressions that tokens derive at a level. -/
inductive Derives : Level → List Token → Expr → Prop
  | number {t : Token} : t.kind = .number → Derives .operand [t] (.number (numberOf t))
  | ident {t : Token} : t.kind = .identifier → Derives .operand [t] (.ident t.text)
  | group {opening closing : Token} {ts : List Token} {e : Expr} :
    opening.kind = .punctuation .openParen → closing.kind = .punctuation .closeParen →
    Derives .sum ts e → Derives .operand (opening :: (ts ++ [closing])) e
  | ofOperand {ts : List Token} {e : Expr} : Derives .operand ts e → Derives .product ts e
  | ofProduct {ts : List Token} {e : Expr} : Derives .product ts e → Derives .sum ts e
  | multiply {left right : List Token} {t : Token} {op : BinaryOp} {l r : Expr} :
    op ∈ [.mul, .div, .mod] → t.kind = .operator op.operator →
    Derives .product left l → Derives .operand right r →
    Derives .product (left ++ t :: right) (.binary op l r)
  | add {left right : List Token} {t : Token} {op : BinaryOp} {l r : Expr} :
    op ∈ [.add, .sub] → t.kind = .operator op.operator →
    Derives .sum left l → Derives .product right r →
    Derives .sum (left ++ t :: right) (.binary op l r)

/-- The statements that tokens derive, one behind the other. -/
inductive DerivesBody : List Token → List Expr → Prop
  | nil : DerivesBody [] []
  | cons {ts rest : List Token} {e : Expr} {body : List Expr} :
    Derives .sum ts e → DerivesBody rest body → DerivesBody (ts ++ rest) (e :: body)

/-- The tokens derive the program. -/
def DerivesProgram (ts : List Token) (p : Program) : Prop := DerivesBody ts p.body

/-- The number of opening parentheses. -/
def opens (ts : List Token) : Nat := ts.countP (·.kind = .punctuation .openParen)

/-- The number of closing parentheses. -/
def closes (ts : List Token) : Nat := ts.countP (·.kind = .punctuation .closeParen)

@[simp] theorem opens_nil : opens [] = 0 := rfl

@[simp] theorem closes_nil : closes [] = 0 := rfl

@[simp] theorem opens_append (xs ys : List Token) : opens (xs ++ ys) = opens xs + opens ys :=
  List.countP_append

@[simp] theorem closes_append (xs ys : List Token) : closes (xs ++ ys) = closes xs + closes ys :=
  List.countP_append

theorem opens_cons (t : Token) (ts : List Token) :
    opens (t :: ts) = opens ts + if t.kind = .punctuation .openParen then 1 else 0 := by
  simp [opens, List.countP_cons]

theorem closes_cons (t : Token) (ts : List Token) :
    closes (t :: ts) = closes ts + if t.kind = .punctuation .closeParen then 1 else 0 := by
  simp [closes, List.countP_cons]

theorem operator_injective : Function.Injective BinaryOp.operator := by
  intro op op' h
  cases op <;> cases op' <;> simp_all [BinaryOp.operator]

theorem mem_operations_sum (op : BinaryOp) : op ∈ Level.sum.operations := by
  cases op <;> simp [Level.operations]

theorem not_mem_product {op : BinaryOp} (h : op ∈ [BinaryOp.add, .sub]) :
    op ∉ Level.product.operations := by
  cases op <;> simp_all [Level.operations]

/-- Kinds with which an operand starts. -/
def StartsOperand (k : Kind) : Prop :=
  k = .number ∨ k = .identifier ∨ k = .punctuation .openParen

/-- Kinds with which an operand ends. -/
def EndsOperand (k : Kind) : Prop :=
  k = .number ∨ k = .identifier ∨ k = .punctuation .closeParen

/-- What starts two texts in a row ends in the first of them or covers it. -/
theorem prefix_append_cases {α : Type} {start xs ys : List α} (h : start <+: xs ++ ys) :
    start <+: xs ∨ ∃ more, start = xs ++ more ∧ more <+: ys := by
  obtain ⟨rest, hrest⟩ := h
  rcases List.append_eq_append_iff.mp hrest with ⟨more, hxs, -⟩ | ⟨more, hstart, hys⟩
  · exact .inl ⟨more, hxs.symm⟩
  · exact .inr ⟨more, hstart, rest, hys.symm⟩

/-- Two ways to single out a member of a list: it stands before, at or behind the other. -/
theorem append_cons_cases {α : Type} {xs ys as bs : List α} {x a : α}
    (h : xs ++ x :: ys = as ++ a :: bs) :
    (∃ mid, xs = as ++ a :: mid ∧ bs = mid ++ x :: ys) ∨ (xs = as ∧ x = a ∧ ys = bs) ∨
      ∃ mid, as = xs ++ x :: mid ∧ ys = mid ++ a :: bs := by
  rcases List.append_eq_append_iff.mp h with ⟨mid, has, hmid⟩ | ⟨mid, hxs, hmid⟩
  · cases mid with
    | nil => simp_all
    | cons m mid =>
      obtain ⟨rfl, hys⟩ := List.cons.inj hmid
      exact .inr (.inr ⟨mid, has, hys⟩)
  · cases mid with
    | nil => simp_all
    | cons m mid =>
      obtain ⟨rfl, hbs⟩ := List.cons.inj hmid
      exact .inl ⟨mid, hxs, hbs⟩

namespace Derives

variable {level : Level} {ts : List Token} {e : Expr}

/-- Derived tokens start like an operand. -/
theorem exists_head (h : Derives level ts e) :
    ∃ t rest, ts = t :: rest ∧ StartsOperand t.kind := by
  induction h with
  | number ht => exact ⟨_, [], rfl, .inl ht⟩
  | ident ht => exact ⟨_, [], rfl, .inr (.inl ht)⟩
  | group hopen _ _ _ => exact ⟨_, _, rfl, .inr (.inr hopen)⟩
  | ofOperand _ ih => exact ih
  | ofProduct _ ih => exact ih
  | multiply _ _ _ _ ih _ | add _ _ _ _ ih _ =>
    obtain ⟨t, rest, rfl, ht⟩ := ih
    exact ⟨t, _, rfl, ht⟩

/-- Derived tokens end like an operand. -/
theorem exists_last (h : Derives level ts e) :
    ∃ t, ts.getLast? = some t ∧ EndsOperand t.kind := by
  induction h with
  | number ht => exact ⟨_, rfl, .inl ht⟩
  | ident ht => exact ⟨_, rfl, .inr (.inl ht)⟩
  | @group opening closing ts e _ hclose _ _ =>
    refine ⟨closing, ?_, .inr (.inr hclose)⟩
    rw [← List.cons_append, List.getLast?_concat]
  | ofOperand _ ih => exact ih
  | ofProduct _ ih => exact ih
  | multiply _ _ _ _ _ ih | add _ _ _ _ _ ih =>
    obtain ⟨t, hlast, ht⟩ := ih
    refine ⟨t, ?_, ht⟩
    rw [List.getLast?_append, List.getLast?_cons, hlast]
    rfl

theorem ne_nil (h : Derives level ts e) : ts ≠ [] := by
  obtain ⟨t, rest, rfl, _⟩ := h.exists_head
  exact List.cons_ne_nil t rest

/-- As many parentheses are closed as are opened. -/
theorem balanced (h : Derives level ts e) : opens ts = closes ts := by
  induction h with
  | number ht | ident ht => simp [opens_cons, closes_cons, ht]
  | group hopen hclose _ ih => simp [opens_cons, closes_cons, hopen, hclose, ih]
  | ofOperand _ ih | ofProduct _ ih => exact ih
  | multiply _ ht _ _ ihl ihr | add _ ht _ _ ihl ihr =>
    simp [opens_cons, closes_cons, ht, ihl, ihr]

/-- No parenthesis is closed before it is opened. -/
theorem closes_le_opens (h : Derives level ts e) {start : List Token} (hs : start <+: ts) :
    closes start ≤ opens start := by
  induction h generalizing start with
  | number ht | ident ht =>
    rcases List.prefix_cons_iff.mp hs with rfl | ⟨rest, rfl, hrest⟩
    · simp
    · simp [List.prefix_nil.mp hrest, closes_cons, ht]
  | @group opening closing ts e hopen hclose hts ih =>
    rcases List.prefix_cons_iff.mp hs with rfl | ⟨inner, rfl, hinner⟩
    · simp
    · rcases List.prefix_concat_iff.mp hinner with rfl | hinner
      · simp [opens_cons, closes_cons, hopen, hclose, hts.balanced]
      · have := ih hinner
        simp [opens_cons, closes_cons, hopen]
        omega
  | ofOperand _ ih | ofProduct _ ih => exact ih hs
  | multiply _ ht hl _ ihl ihr | add _ ht hl _ ihl ihr =>
    rcases prefix_append_cases hs with hs | ⟨more, rfl, hmore⟩
    · exact ihl hs
    · rcases List.prefix_cons_iff.mp hmore with rfl | ⟨inner, rfl, hinner⟩
      · simp [hl.balanced]
      · have := ihr hinner
        simp [opens_cons, closes_cons, ht, hl.balanced, this]

/-- An operator that is too loose for the level stands inside parentheses. -/
theorem closes_lt_opens (h : Derives level ts e) {before after : List Token} {t : Token}
    {op : BinaryOp} (hts : ts = before ++ t :: after) (ht : t.kind = .operator op.operator)
    (hop : op ∉ level.operations) : closes before < opens before := by
  induction h generalizing before after with
  | number hk | ident hk =>
    rcases List.cons_eq_append_iff.mp hts with ⟨-, h⟩ | ⟨_, -, h⟩
    · cases h
      simp [hk] at ht
    · simp at h
  | @group opening closing ts e hopen hclose hd ih =>
    rcases List.cons_eq_append_iff.mp hts with ⟨-, h⟩ | ⟨inner, rfl, h⟩
    · cases h
      simp [hopen] at ht
    · rcases append_cons_cases h with ⟨mid, rfl, -⟩ | ⟨-, rfl, -⟩ | ⟨_, -, h⟩
      · have := hd.closes_le_opens (List.prefix_append inner (t :: mid))
        simp [opens_cons, closes_cons, hopen]
        omega
      · simp [hclose] at ht
      · simp at h
  | ofOperand _ ih => exact ih hts (by simp [Level.operations])
  | @multiply left right u op' l r hu hk hl hr ihl ihr =>
    rcases append_cons_cases hts with ⟨mid, hmid, -⟩ | ⟨-, rfl, -⟩ | ⟨mid, rfl, hmid⟩
    · exact ihl hmid hop
    · rw [hk, Kind.operator.injEq] at ht
      exact absurd (operator_injective ht ▸ hu) hop
    · have := ihr hmid (by simp [Level.operations])
      simp [opens_cons, closes_cons, hk, hl.balanced, this]
  | ofProduct _ _ | add _ _ _ _ _ _ => exact absurd (mem_operations_sum op) hop

/-- Between two operands stands an operator. -/
theorem isChain (h : Derives level ts e) :
    ts.IsChain fun t u => EndsOperand t.kind → ¬ StartsOperand u.kind := by
  induction h with
  | number _ | ident _ => exact .singleton _
  | @group opening closing ts e hopen hclose hd ih =>
    refine List.IsChain.cons (ih.append (.singleton _) ?_) ?_
    · intro x _ y hy _
      obtain rfl : closing = y := by simpa using hy
      simp [StartsOperand, hclose]
    · intro y _ hends
      simp [EndsOperand, hopen] at hends
  | ofOperand _ ih | ofProduct _ ih => exact ih
  | multiply _ ht _ _ ihl ihr | add _ ht _ _ ihl ihr =>
    refine ihl.append (ihr.cons ?_) ?_
    · intro y _ hends
      simp [EndsOperand, ht] at hends
    · intro x _ y hy _
      obtain rfl := by simpa using hy
      simp [StartsOperand, ht]

/-- An operator cannot stand behind one chain and inside the operand that ends another. -/
private theorem not_overlap {inner : Level} {left right mid : List Token} {t : Token}
    {op : BinaryOp} {l r : Expr} (hl : Derives level left l) (ht : t.kind = .operator op.operator)
    (hwhole : Derives level (left ++ t :: mid) e) {u : Token} {op' : BinaryOp}
    (hu : u.kind = .operator op'.operator) (hr : Derives inner (mid ++ u :: right) r)
    (hop : op' ∉ inner.operations) : False := by
  have hinside := hr.closes_lt_opens rfl hu hop
  have hbalanced := hwhole.balanced
  simp [opens_cons, closes_cons, ht, hl.balanced] at hbalanced
  omega

/-- A chain is split in one way into its last operand and what stands before it. -/
theorem split_unique {inner : Level} {left left' right right' : List Token} {t t' : Token}
    {op op' : BinaryOp} {l l' r r' : Expr} (hl : Derives level left l)
    (hl' : Derives level left' l') (hr : Derives inner right r) (hr' : Derives inner right' r')
    (ht : t.kind = .operator op.operator) (ht' : t'.kind = .operator op'.operator)
    (hop : op ∉ inner.operations) (hop' : op' ∉ inner.operations)
    (h : left ++ t :: right = left' ++ t' :: right') : left = left' ∧ t = t' ∧ right = right' := by
  rcases append_cons_cases h with ⟨mid, rfl, rfl⟩ | heq | ⟨mid, rfl, rfl⟩
  · exact (not_overlap hl' ht' hl ht hr' hop).elim
  · exact heq
  · exact (not_overlap hl ht hl' ht' hr hop').elim

/-- A chain is no single operand of its level. -/
theorem not_single {inner : Level} {left right : List Token} {t : Token} {op : BinaryOp} {l : Expr}
    (hl : Derives level left l) (ht : t.kind = .operator op.operator)
    (hop : op ∉ inner.operations) : ¬ Derives inner (left ++ t :: right) e := by
  intro h
  have := h.closes_lt_opens rfl ht hop
  exact absurd hl.balanced (by omega)

/-- Tokens derive at most one expression at a level. -/
theorem unique (h : Derives level ts e) {e' : Expr} (h' : Derives level ts e') : e = e' := by
  induction h generalizing e' with
  | number ht =>
    generalize hts : [_] = ts at h'
    cases h' with
    | number _ => cases hts; rfl
    | ident ht' => cases hts; rw [ht] at ht'; cases ht'
    | group _ _ _ => simp at hts
  | ident ht =>
    generalize hts : [_] = ts at h'
    cases h' with
    | number ht' => cases hts; rw [ht] at ht'; cases ht'
    | ident _ => cases hts; rfl
    | group _ _ _ => simp at hts
  | group hopen _ _ ih =>
    generalize hts : _ :: (_ ++ [_]) = ts at h'
    cases h' with
    | number _ => simp at hts
    | ident _ => simp at hts
    | group _ _ hd' =>
      obtain ⟨rfl, hinner⟩ := List.cons.inj hts
      obtain ⟨rfl, -⟩ := List.append_inj' hinner rfl
      exact ih hd'
  | ofOperand hd ih =>
    cases h' with
    | ofOperand hd' => exact ih hd'
    | multiply _ ht' hl' _ => exact (not_single hl' ht' (by simp [Level.operations]) hd).elim
  | ofProduct hd ih =>
    cases h' with
    | ofProduct hd' => exact ih hd'
    | add hop' ht' hl' _ =>
      exact (not_single hl' ht' (not_mem_product hop') hd).elim
  | multiply hop ht hl hr ihl ihr =>
    generalize hts : _ ++ _ :: _ = ts at h'
    cases h' with
    | ofOperand hd' =>
      subst hts
      exact (not_single hl ht (by simp [Level.operations]) hd').elim
    | multiply _ ht' hl' hr' =>
      obtain ⟨rfl, rfl, rfl⟩ := split_unique hl hl' hr hr' ht ht' (by simp [Level.operations])
        (by simp [Level.operations]) hts
      rw [ht, Kind.operator.injEq] at ht'
      rw [ihl hl', ihr hr', operator_injective ht']
  | add hop ht hl hr ihl ihr =>
    generalize hts : _ ++ _ :: _ = ts at h'
    cases h' with
    | ofProduct hd' =>
      subst hts
      exact (not_single hl ht (not_mem_product hop) hd').elim
    | add hop' ht' hl' hr' =>
      obtain ⟨rfl, rfl, rfl⟩ := split_unique hl hl' hr hr' ht ht' (not_mem_product hop)
        (not_mem_product hop') hts
      rw [ht, Kind.operator.injEq] at ht'
      rw [ihl hl', ihr hr', operator_injective ht']

end Derives

namespace DerivesBody

variable {ts : List Token} {body : List Expr}

/-- Tokens that derive statements start like an operand, unless there are none. -/
theorem startsOperand_head (h : DerivesBody ts body) {t : Token} {rest : List Token}
    (hts : ts = t :: rest) : StartsOperand t.kind := by
  cases h with
  | nil => cases hts
  | cons hd _ =>
    obtain ⟨u, us, rfl, hu⟩ := hd.exists_head
    obtain ⟨rfl, -⟩ := List.cons.inj hts
    exact hu

/-- A statement does not reach into the next one: an operator would have to stand between. -/
private theorem eq_nil_of_overlap {us mid rest : List Token} {e e' : Expr}
    (hd : Derives .sum us e) (hd' : Derives .sum (us ++ mid) e')
    (hrest : DerivesBody (mid ++ rest) body) : mid = [] := by
  cases mid with
  | nil => rfl
  | cons t mid =>
    obtain ⟨u, hlast, hu⟩ := hd.exists_last
    have hlink := (List.isChain_append.mp hd'.isChain).2.2 u hlast t rfl
    exact absurd (hrest.startsOperand_head rfl) (hlink hu)

/-- Tokens derive at most one list of statements. -/
theorem unique (h : DerivesBody ts body) {body' : List Expr} (h' : DerivesBody ts body') :
    body = body' := by
  induction h generalizing body' with
  | nil =>
    generalize hts : [] = ts at h'
    cases h' with
    | nil => rfl
    | cons hd' _ => exact absurd (List.append_eq_nil_iff.mp hts.symm).1 hd'.ne_nil
  | @cons us rest e body hd hrest ih =>
    generalize hts : us ++ rest = ts at h'
    cases h' with
    | nil => exact absurd (List.append_eq_nil_iff.mp hts).1 hd.ne_nil
    | @cons us' rest' e' body' hd' hrest' =>
      rcases List.append_eq_append_iff.mp hts with ⟨mid, rfl, rfl⟩ | ⟨mid, rfl, rfl⟩
      · obtain rfl := eq_nil_of_overlap hd hd' hrest
        rw [List.append_nil] at hd'
        rw [hd.unique hd', ih hrest']
      · obtain rfl := eq_nil_of_overlap hd' hd hrest'
        rw [List.append_nil] at hd
        rw [hd.unique hd', ih hrest']

end DerivesBody

/-- Tokens derive at most one program. -/
theorem DerivesProgram.unique {ts : List Token} {p q : Program} (hp : DerivesProgram ts p)
    (hq : DerivesProgram ts q) : p = q := by
  cases p
  cases q
  exact congrArg Program.mk (DerivesBody.unique hp hq)

end Abacus.Grammar
