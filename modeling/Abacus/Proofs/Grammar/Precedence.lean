import Abacus.Proofs.Grammar.Traversal
import Abacus.Proofs.Program.Canonical

/-!
# Precedence

The grammar has a level for sums and one for products, and the vocabulary has a precedence for every
operator; neither mentions the other. Without parentheses they say the same. A tree respects the
precedences if a left operand binds at least as tightly as its operation and a right operand binds
more tightly. Tokens without parentheses derive a tree exactly when it respects the precedences and
is read from left to right as the tokens say, and every chain of operands and operators derives one.
So a chain has one such tree, and the parser returns it or says that it is too high.
-/

namespace Abacus

namespace Expr

/-- The operation that an expression is, unless it is a leaf. -/
def operation? : Expr → Option BinaryOp
  | number _ => none
  | ident _ => none
  | binary op _ _ => some op

/-- No left operand is an operation that binds looser than the one above it, and every right operand
that is an operation binds tighter. -/
def RespectsPrecedence : Expr → Prop
  | number _ => True
  | ident _ => True
  | binary op left right =>
    (∀ child ∈ left.operation?, op.precedence ≤ child.precedence) ∧
      (∀ child ∈ right.operation?, op.precedence < child.precedence) ∧
      left.RespectsPrecedence ∧ right.RespectsPrecedence

/-- An expression binds at least as tightly as an operation if its level is no looser. -/
theorem forall_precedence_le_iff {op : BinaryOp} {e : Expr} :
    (∀ child ∈ e.operation?, op.precedence ≤ child.precedence) ↔
      e.level.rank ≤ op.level.rank := by
  have hop := op.precedence_add_rank
  cases e with
  | number _ | ident _ => simp [operation?, level, Grammar.Level.rank]
  | binary child _ _ =>
    have hchild := child.precedence_add_rank
    simp only [operation?, Option.mem_some_iff, forall_eq', level]
    omega

/-- An expression binds more tightly than an operation if its level is tighter. -/
theorem forall_precedence_lt_iff {op : BinaryOp} {e : Expr} :
    (∀ child ∈ e.operation?, op.precedence < child.precedence) ↔
      e.level.rank < op.level.rank := by
  have hop := op.precedence_add_rank
  cases e with
  | number _ | ident _ => simpa [operation?, level, Grammar.Level.rank] using op.rank_level_pos
  | binary child _ _ =>
    have hchild := child.precedence_add_rank
    simp only [operation?, Option.mem_some_iff, forall_eq', level]
    omega

/-- The precedences of an operation are respected by the levels of its operands. -/
theorem respectsPrecedence_binary_iff {op : BinaryOp} {l r : Expr} :
    (binary op l r).RespectsPrecedence ↔
      l.level.rank ≤ op.level.rank ∧ r.level.rank < op.level.rank ∧
        l.RespectsPrecedence ∧ r.RespectsPrecedence := by
  rw [RespectsPrecedence, forall_precedence_le_iff, forall_precedence_lt_iff]

end Expr

theorem Token.item?_eq_number {t : Token} {x : Binary64} (h : t.item? = some (.number x)) :
    t.kind = .number ∧ Binary64.ofText? t.text = some x := by
  unfold item? at h
  split at h <;> simp_all

theorem Token.item?_eq_ident {t : Token} {name : String} (h : t.item? = some (.ident name)) :
    t.kind = .identifier ∧ t.text = name := by
  unfold item? at h
  split at h <;> simp_all

theorem Token.item?_eq_operator {t : Token} {op : Operator} (h : t.item? = some (.operator op)) :
    t.kind = .operator op := by
  unfold item? at h
  split at h <;> simp_all

namespace Grammar

open Abacus.Parser

/-- The expression reads from left to right as the tokens say and respects the precedences. -/
structure IsPrecedenceTree (ts : List Token) (e : Expr) : Prop where
  items_eq : ts.map Token.item? = e.inOrder.map some
  respects : e.RespectsPrecedence

section Trees

variable {ts : List Token} {e : Expr}

/-- Without parentheses a derived expression respects the precedences and is no looser than its
level. -/
theorem Derives.respectsPrecedence {level : Level} (h : Derives level ts e)
    (hparen : ∀ t ∈ ts, t.kind.isParen = false) :
    e.RespectsPrecedence ∧ e.level.rank ≤ level.rank := by
  induction h with
  | number _ | ident _ => exact ⟨trivial, Nat.le_refl _⟩
  | @group opening closing ts e hopen _ _ _ =>
    have := hparen opening List.mem_cons_self
    simp [hopen, Kind.isParen] at this
  | ofOperand _ ih | ofProduct _ ih =>
    obtain ⟨hrespects, hrank⟩ := ih hparen
    exact ⟨hrespects, hrank.trans (by simp [Level.rank])⟩
  | @multiply left right t op l r hop _ _ _ ihl ihr =>
    obtain ⟨hl, hrankl⟩ := ihl fun u hu => hparen u (by simp [hu])
    obtain ⟨hr, hrankr⟩ := ihr fun u hu => hparen u (by simp [hu])
    have hlevel : op.level = .product := by cases op <;> simp_all [BinaryOp.level]
    rw [Expr.respectsPrecedence_binary_iff, Expr.level, hlevel]
    exact ⟨⟨hrankl, Nat.lt_succ_of_le hrankr, hl, hr⟩, Nat.le_refl _⟩
  | @add left right t op l r hop _ _ _ ihl ihr =>
    obtain ⟨hl, hrankl⟩ := ihl fun u hu => hparen u (by simp [hu])
    obtain ⟨hr, hrankr⟩ := ihr fun u hu => hparen u (by simp [hu])
    have hlevel : op.level = .sum := by cases op <;> simp_all [BinaryOp.level]
    rw [Expr.respectsPrecedence_binary_iff, Expr.level, hlevel]
    exact ⟨⟨hrankl, Nat.lt_succ_of_le hrankr, hl, hr⟩, Nat.le_refl _⟩

/-- Tokens that say what an expression says derive it if it respects the precedences. -/
theorem IsPrecedenceTree.derives (h : IsPrecedenceTree ts e) : Derives e.level ts e := by
  obtain ⟨hitems, hrespects⟩ := h
  induction e generalizing ts with
  | number value =>
    obtain ⟨t, rest, rfl, ht, hrest⟩ := List.map_eq_cons_iff.mp hitems
    obtain rfl := List.map_eq_nil_iff.mp hrest
    obtain ⟨hk, hvalue⟩ := Token.item?_eq_number ht
    have hnumber : numberOf t = value := by rw [numberOf, hvalue, Option.getD_some]
    exact hnumber ▸ .number hk
  | ident name =>
    obtain ⟨t, rest, rfl, ht, hrest⟩ := List.map_eq_cons_iff.mp hitems
    obtain rfl := List.map_eq_nil_iff.mp hrest
    obtain ⟨hk, hname⟩ := Token.item?_eq_ident ht
    exact hname ▸ .ident hk
  | binary op l r ihl ihr =>
    rw [Expr.inOrder, List.map_append, List.map_cons] at hitems
    obtain ⟨left, rest, rfl, hleft, hrest⟩ := List.map_eq_append_iff.mp hitems
    obtain ⟨t, right, rfl, ht, hright⟩ := List.map_eq_cons_iff.mp hrest
    have hk := Token.item?_eq_operator ht
    obtain ⟨hrankl, hrankr, hl, hr⟩ := Expr.respectsPrecedence_binary_iff.mp hrespects
    have hdl : Derives op.level left l := (ihl hleft hl).loosen hrankl
    have hdr (level : Level) (hlevel : op.level.rank ≤ level.rank + 1) : Derives level right r :=
      (ihr hright hr).loosen (by omega)
    cases op with
    | add | sub => exact .add (by simp) hk hdl (hdr .product (by decide))
    | mul | div | mod => exact .multiply (by simp) hk hdl (hdr .operand (by decide))

/-- Without parentheses the grammar and the precedences agree. -/
theorem derives_iff_isPrecedenceTree (hread : ∀ t ∈ ts, IsReadable t)
    (hparen : ∀ t ∈ ts, t.kind.isParen = false) :
    Derives .sum ts e ↔ IsPrecedenceTree ts e := by
  constructor
  · intro h
    refine ⟨?_, (h.respectsPrecedence hparen).1⟩
    have hitems := h.items_eq hread
    rwa [items, List.filter_eq_self.mpr fun t ht => by simp [hparen t ht]] at hitems
  · intro h
    exact h.derives.loosen e.level.rank_le_sum

end Trees

/-- A number that is read, or a name. -/
def IsLeaf (t : Token) : Prop :=
  (t.kind = .number ∧ ∃ x, Binary64.ofText? t.text = some x) ∨ t.kind = .identifier

/-- Operands with operators between them that the vocabulary does not keep back. -/
inductive IsOperatorChain : List Token → Prop
  | leaf {t : Token} : IsLeaf t → IsOperatorChain [t]
  | link {ts : List Token} {u t : Token} {op : Operator} :
    IsOperatorChain ts → u.kind = .operator op → op.stability = .stable → IsLeaf t →
    IsOperatorChain (ts ++ [u, t])

theorem IsLeaf.exists_derives {t : Token} (h : IsLeaf t) : ∃ e, Derives .operand [t] e := by
  rcases h with ⟨hk, -⟩ | hk
  · exact ⟨_, .number hk⟩
  · exact ⟨_, .ident hk⟩

theorem IsLeaf.isReadable {t : Token} (h : IsLeaf t) : IsReadable t := by
  rw [isReadable_iff]
  intro hk
  rcases h with ⟨-, x, hx⟩ | hk'
  · rw [numberOf, hx, Option.getD_some]
  · rw [hk] at hk'
    cases hk'

theorem IsLeaf.isParen_eq {t : Token} (h : IsLeaf t) : t.kind.isParen = false := by
  rcases h with ⟨hk, -⟩ | hk <;> rw [hk] <;> rfl

/-- An operator that the vocabulary does not keep back writes an operation. -/
theorem exists_operation_of_stable {op : Operator} (h : op.stability = .stable) :
    ∃ operation : BinaryOp, operation.operator = op := by
  cases op with
  | plus => exact ⟨.add, rfl⟩
  | minus => exact ⟨.sub, rfl⟩
  | star => exact ⟨.mul, rfl⟩
  | slash => exact ⟨.div, rfl⟩
  | percent => exact ⟨.mod, rfl⟩
  | caret => cases h

/-- One operator and one operand more go to the end of a sum or to its last product. -/
theorem Derives.exists_link {ts : List Token} {u t : Token} {op : BinaryOp} {d e : Expr}
    (h : Derives .sum ts d) (hu : u.kind = .operator op.operator) (ht : Derives .operand [t] e) :
    ∃ whole, Derives .sum (ts ++ [u, t]) whole := by
  cases op with
  | add | sub => exact ⟨_, .add (by simp) hu h (.ofOperand ht)⟩
  | mul | div | mod =>
    -- A multiplicative operator belongs to the last product, however long the sum before it is.
    cases h with
    | ofProduct hd => exact ⟨_, .ofProduct (.multiply (by simp) hu hd ht)⟩
    | @add left right v op' l r hop hv hl hr =>
      rw [List.append_assoc, List.cons_append]
      exact ⟨_, .add hop hv hl (.multiply (by simp) hu hr ht)⟩

namespace IsOperatorChain

variable {ts : List Token}

/-- Every chain derives an expression. -/
theorem exists_derives (h : IsOperatorChain ts) : ∃ e, Derives .sum ts e := by
  induction h with
  | leaf ht =>
    obtain ⟨e, he⟩ := ht.exists_derives
    exact ⟨e, .ofProduct (.ofOperand he)⟩
  | link _ hu hstable ht ih =>
    obtain ⟨d, hd⟩ := ih
    obtain ⟨e, he⟩ := ht.exists_derives
    obtain ⟨op, rfl⟩ := exists_operation_of_stable hstable
    exact hd.exists_link hu he

/-- The tokens of a chain are readable, and none is a parenthesis. -/
theorem isReadable (h : IsOperatorChain ts) {t : Token} (ht : t ∈ ts) :
    IsReadable t ∧ t.kind.isParen = false := by
  induction h with
  | leaf hleaf =>
    obtain rfl := List.mem_singleton.mp ht
    exact ⟨hleaf.isReadable, hleaf.isParen_eq⟩
  | link _ hu _ hleaf ih =>
    simp only [List.mem_append, List.mem_cons, List.not_mem_nil, or_false] at ht
    rcases ht with ht | rfl | rfl
    · exact ih ht
    · exact ⟨isReadable_of_ne (by simp [hu]), by rw [hu]; rfl⟩
    · exact ⟨hleaf.isReadable, hleaf.isParen_eq⟩

end IsOperatorChain

/-- Where no parenthesis stands, none is open. -/
theorem fitsDepth_of_isParen {ts : List Token} (h : ∀ t ∈ ts, t.kind.isParen = false) :
    FitsDepth 0 ts := by
  have hopens : opens ts = 0 := by
    rw [opens, List.countP_eq_zero]
    intro t ht hopen
    have := h t ht
    simp [of_decide_eq_true hopen, Kind.isParen] at this
  have hfits : OpensAtMost nestingLimit ts := opensAtMost_of_opens_eq_zero hopens
  intro start hs
  simpa using hfits start hs

/-- The levels of the grammar agree with the precedences of the vocabulary. A chain of any length,
numbers and names with operators of the language between them, has exactly one tree that reads from
left to right as the chain does and respects the precedences: a left operand binds at least as
tightly as its operation and a right operand more tightly, all of these operators grouping to the
left. A stream that holds such a chain up to its first end of input is parsed as the one statement
that is this tree if it is no higher than 256, as nothing else, and is too deeply nested
otherwise. -/
theorem parse_eq_ok_iff_isPrecedenceTree (tokens : List Token)
    (h : tokens.getLast?.map Token.kind = some .endOfInput)
    (hchain : IsOperatorChain (tokens.takeWhile (·.kind ≠ .endOfInput))) :
    let ts := tokens.takeWhile (·.kind ≠ .endOfInput)
    (∃! e, IsPrecedenceTree ts e) ∧
      (∀ p, parse tokens = .ok p ↔
        ∃ e, p = ⟨[e]⟩ ∧ IsPrecedenceTree ts e ∧ e.height ≤ 256) ∧
      ((¬ ∃ e, IsPrecedenceTree ts e ∧ e.height ≤ 256) →
        ∃ span, parse tokens = .error ⟨.nestingTooDeep 256, span⟩) ∧
      ∀ op : Operator, op.stability = .stable → op.associativity = .left := by
  intro ts
  have hread : ∀ t ∈ ts, IsReadable t := fun t ht => (hchain.isReadable ht).1
  have hparen : ∀ t ∈ ts, t.kind.isParen = false := fun t ht => (hchain.isReadable ht).2
  obtain ⟨e, he⟩ := hchain.exists_derives
  have htree : IsPrecedenceTree ts e := (derives_iff_isPrecedenceTree hread hparen).mp he
  have hunique (d : Expr) (hd : IsPrecedenceTree ts d) : d = e :=
    ((derives_iff_isPrecedenceTree hread hparen).mpr hd).unique he
  have hprogram : DerivesProgram ts ⟨[e]⟩ := DerivesBody.nil.concat he
  have hfits : FitsBody ts [e] ↔ e.height ≤ 256 := by
    simp [FitsBody, fitsDepth_of_isParen hparen, nestingLimit]
  have hparse := parse_of_derives h hprogram hread
  refine ⟨⟨e, htree, hunique⟩, fun p => ⟨?_, ?_⟩, ?_, ?_⟩
  · intro hp
    obtain ⟨hd, -, hwithin⟩ := derives_of_parse_eq_ok h hp
    obtain rfl := hd.unique hprogram
    exact ⟨e, rfl, htree, hfits.mp hwithin⟩
  · rintro ⟨d, rfl, hd, hheight⟩
    obtain rfl := hunique d hd
    rcases hparse with hp | ⟨hexceeds, -⟩
    · exact hp
    · exact absurd (hfits.mpr hheight) hexceeds
  · intro hnone
    rcases hparse with hp | ⟨-, hp⟩
    · have hwithin := (derives_of_parse_eq_ok h hp).2.2
      exact absurd ⟨e, htree, hfits.mp hwithin⟩ hnone
    · exact hp
  · intro op hstable
    obtain ⟨operation, rfl⟩ := exists_operation_of_stable hstable
    exact operation.associativity_eq

/-- A chain of operators of both levels, `a - b * 2 % c + 1`, with tokens behind its first end of
input: its tree is the one that the precedences ask for. -/
theorem parse_eq_ok_iff_isPrecedenceTree_mixed :
    let chain : List Token :=
      [⟨.identifier, "a", ⟨0, 1⟩⟩, ⟨.operator .minus, "-", ⟨2, 3⟩⟩, ⟨.identifier, "b", ⟨4, 5⟩⟩,
        ⟨.operator .star, "*", ⟨6, 7⟩⟩, ⟨.number, "2", ⟨8, 9⟩⟩, ⟨.operator .percent, "%", ⟨10, 11⟩⟩,
        ⟨.identifier, "c", ⟨12, 13⟩⟩, ⟨.operator .plus, "+", ⟨14, 15⟩⟩, ⟨.number, "1", ⟨16, 17⟩⟩]
    let tokens := chain ++ [.endOfInput 17, ⟨.operator .caret, "^", ⟨0, 0⟩⟩, .endOfInput 17]
    let e : Expr :=
      .binary .add
        (.binary .sub (.ident "a")
          (.binary .mod (.binary .mul (.ident "b") (.number (.ofBits 0x4000000000000000)))
            (.ident "c")))
        (.number (.ofBits 0x3ff0000000000000))
    tokens.getLast?.map Token.kind = some .endOfInput ∧
      IsOperatorChain (tokens.takeWhile (·.kind ≠ .endOfInput)) ∧
      IsPrecedenceTree chain e ∧ parse tokens = .ok ⟨[e]⟩ := by
  intro chain tokens e
  have hlast : tokens.getLast?.map Token.kind = some .endOfInput := rfl
  have hsentence : tokens.takeWhile (·.kind ≠ .endOfInput) = chain := by decide +kernel
  have hnumber (t : Token) (x : Binary64) (hk : t.kind = .number)
      (hx : Binary64.ofText? t.text = some x) : IsLeaf t := .inl ⟨hk, x, hx⟩
  have hchain : IsOperatorChain (tokens.takeWhile (·.kind ≠ .endOfInput)) := by
    rw [hsentence]
    have h₁ := IsOperatorChain.leaf (t := chain[0]) (.inr rfl)
    have h₂ := h₁.link (u := chain[1]) (t := chain[2]) rfl rfl (.inr rfl)
    have h₃ := h₂.link (u := chain[3]) (t := chain[4]) rfl rfl
      (hnumber _ (.ofBits 0x4000000000000000) rfl (by decide +kernel))
    have h₄ := h₃.link (u := chain[5]) (t := chain[6]) rfl rfl (.inr rfl)
    exact h₄.link (u := chain[7]) (t := chain[8]) rfl rfl
      (hnumber _ (.ofBits 0x3ff0000000000000) rfl (by decide +kernel))
  have htree : IsPrecedenceTree chain e :=
    ⟨by decide +kernel, by simp [e, Expr.RespectsPrecedence, Expr.operation?, BinaryOp.precedence,
      BinaryOp.operator, Operator.precedence]⟩
  have hparse := ((parse_eq_ok_iff_isPrecedenceTree tokens hlast hchain).2.1 ⟨[e]⟩).mpr
    ⟨e, rfl, hsentence.symm ▸ htree, by decide⟩
  exact ⟨hlast, hchain, htree, hparse⟩

end Grammar

end Abacus
