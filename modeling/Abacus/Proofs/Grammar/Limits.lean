import Abacus.Proofs.Binary64.Reading
import Abacus.Proofs.Grammar.Derivation

/-!
# Limits on derived tokens

The grammar knows no limits; the parser does. Derived tokens have a fault where a number token
spells no finite number, where a parenthesis is opened although the limit is reached, or where an
operation is too high although its operands are not. A tree carries no positions, so that an
operation is found by the order in which operators are written.

A fault stays one when tokens are put around it, and readable tokens with a fault exceed a limit.
-/

namespace Abacus

/-- The operations of an expression in the order in which their operators are written. -/
def Expr.operations : Expr → List Expr
  | .number _ => []
  | .ident _ => []
  | .binary op left right => left.operations ++ .binary op left right :: right.operations

/-- No operation of an expression is higher than the expression. -/
theorem Expr.height_le_of_mem_operations {d e : Expr} (h : d ∈ e.operations) :
    d.height ≤ e.height := by
  induction e with
  | number _ | ident _ => cases h
  | binary op l r ihl ihr =>
    rcases List.mem_append.mp h with hl | hr
    · exact (ihl hl).trans (by simp only [height]; omega)
    · rcases List.mem_cons.mp hr with rfl | hr
      · exact Nat.le_refl _
      · exact (ihr hr).trans (by simp only [height]; omega)

/-- The operands of an operation within a bound are within it. -/
theorem Expr.height_le_of_binary {op : BinaryOp} {l r : Expr} {bound : Nat}
    (h : (binary op l r).height ≤ bound) : l.height ≤ bound ∧ r.height ≤ bound := by
  simp only [height] at h
  omega

namespace Grammar

open Abacus.Parser

/-- A number token whose text starts with a digit and spells a finite number; other tokens are
readable as they are. -/
def IsReadable (t : Token) : Prop :=
  t.kind = .number → (∃ c ∈ t.text.toList.head?, c.isDigit = true) ∧
    ∃ x, Binary64.parse? t.text = some x ∧ x.IsFinite

/-- What the parser asks of a number token is that its text be read. -/
theorem isReadable_iff (t : Token) :
    IsReadable t ↔ (t.kind = .number → Binary64.ofText? t.text = some (numberOf t)) := by
  constructor
  · intro h hk
    obtain ⟨hhead, x, hx, hfinite⟩ := h hk
    rw [numberOf, Binary64.ofText?_eq_some_iff.mpr ⟨hhead, hx, hfinite⟩]
    rfl
  · intro h hk
    obtain ⟨hhead, hx, hfinite⟩ := Binary64.ofText?_eq_some_iff.mp (h hk)
    exact ⟨hhead, _, hx, hfinite⟩

/-- A token that is not readable is a number token whose text spells nothing. -/
theorem not_isReadable_iff (t : Token) :
    ¬ IsReadable t ↔ t.kind = .number ∧ Binary64.ofText? t.text = none := by
  rw [isReadable_iff, Classical.not_imp, and_congr_right_iff]
  intro _
  rw [numberOf]
  cases Binary64.ofText? t.text <;> simp

theorem one_le_nestingLimit : 1 ≤ nestingLimit := by decide

/-- At no point more parentheses are open than the limit, counting those already open before. -/
def FitsDepth (already : Nat) (ts : List Token) : Prop :=
  ∀ start, start <+: ts → already + opens start ≤ closes start + nestingLimit

/-- Statements and their tokens stay within both limits. -/
def FitsBody (ts : List Token) (body : List Expr) : Prop :=
  FitsDepth 0 ts ∧ ∀ e ∈ body, e.height ≤ nestingLimit

/-- The operator tokens in order. -/
def operators (ts : List Token) : List Token := ts.filter (·.kind.operator?.isSome)

@[simp] theorem operators_nil : operators [] = [] := rfl

@[simp] theorem operators_append (xs ys : List Token) :
    operators (xs ++ ys) = operators xs ++ operators ys :=
  List.filter_append xs ys

theorem operators_cons_operator {t : Token} {op : Operator} (h : t.kind = .operator op)
    (ts : List Token) : operators (t :: ts) = t :: operators ts := by
  simp [operators, h, Kind.operator?]

theorem operators_cons_punctuation {t : Token} {mark : Punctuation}
    (h : t.kind = .punctuation mark) (ts : List Token) : operators (t :: ts) = operators ts := by
  simp [operators, h, Kind.operator?]

/-- Derived tokens have as many operators as the expression has operations. -/
theorem Derives.length_operators {level : Level} {ts : List Token} {e : Expr}
    (h : Derives level ts e) : (operators ts).length = e.operations.length := by
  induction h with
  | number ht | ident ht => simp [operators, ht, Kind.operator?, Expr.operations]
  | group hopen hclose _ ih =>
    simp [operators_cons_punctuation hopen, operators_cons_punctuation hclose, ih]
  | ofOperand _ ih | ofProduct _ ih => exact ih
  | multiply _ ht _ _ ihl ihr | add _ ht _ _ ihl ihr =>
    simp [operators_cons_operator ht, Expr.operations, ihl, ihr]

/-- Why derived tokens with these operations are still refused, when some parentheses are already
open before them. -/
inductive Fault (already : Nat) (ts : List Token) (operations : List Expr) : Error → Prop
  /-- A number token spells no finite number. -/
  | number {t : Token} : t ∈ ts → ¬ IsReadable t →
    Fault already ts operations ⟨.invalidNumber t.text, t.span⟩
  /-- A parenthesis is opened although as many are open as the limit allows. -/
  | depth {before after : List Token} {t : Token} :
    ts = before ++ t :: after → t.kind = .punctuation .openParen →
    already + opens before = closes before + nestingLimit →
    Fault already ts operations (tooDeep t.span)
  /-- An operation is too high, and neither operand is. -/
  | height {t : Token} {op : BinaryOp} {l r : Expr} :
    (t, .binary op l r) ∈ (operators ts).zip operations → t.kind = .operator op.operator →
    l.height ≤ nestingLimit → r.height ≤ nestingLimit →
    nestingLimit < (Expr.binary op l r).height →
    Fault already ts operations (tooDeep t.span)

namespace Fault

variable {already : Nat} {ts us : List Token} {operations others : List Expr} {error : Error}

/-- Behind an opening parenthesis one parenthesis more is open. -/
theorem cons_open {opening : Token} (h : Fault (already + 1) ts operations error)
    (hopen : opening.kind = .punctuation .openParen) :
    Fault already (opening :: ts) operations error := by
  cases h with
  | number ht hr => exact .number (List.mem_cons_of_mem _ ht) hr
  | @depth before after t hts hk hcount =>
    have hsplit : opening :: ts = (opening :: before) ++ t :: after := by rw [hts, List.cons_append]
    refine .depth hsplit hk ?_
    simp [opens_cons, closes_cons, hopen]
    omega
  | height ht hk hl hr hhigh =>
    exact .height (by rwa [operators_cons_punctuation hopen]) hk hl hr hhigh

/-- Tokens behind derived ones leave their faults alone. -/
theorem append (h : Fault already ts operations error)
    (hlength : (operators ts).length = operations.length) (us : List Token)
    (others : List Expr) : Fault already (ts ++ us) (operations ++ others) error := by
  cases h with
  | number ht hr => exact .number (List.mem_append_left _ ht) hr
  | depth hts hk hcount => exact .depth (by rw [hts, List.append_assoc, List.cons_append]) hk hcount
  | height ht hk hl hr hhigh =>
    refine .height ?_ hk hl hr hhigh
    rw [operators_append, List.zip_append hlength]
    exact List.mem_append_left _ ht

/-- Behind balanced tokens as many parentheses are open as before them. -/
theorem prepend (h : Fault already ts operations error) (hbalanced : opens us = closes us)
    (hlength : (operators us).length = others.length) :
    Fault already (us ++ ts) (others ++ operations) error := by
  cases h with
  | number ht hr => exact .number (List.mem_append_right _ ht) hr
  | @depth before after t hts hk hcount =>
    have hsplit : us ++ ts = (us ++ before) ++ t :: after := by rw [hts, List.append_assoc]
    refine .depth hsplit hk ?_
    rw [opens_append, closes_append]
    omega
  | height ht hk hl hr hhigh =>
    refine .height ?_ hk hl hr hhigh
    rw [operators_append, List.zip_append hlength]
    exact List.mem_append_right _ ht

/-- Readable tokens with a fault exceed a limit, and the error says so. -/
theorem exceeds (h : Fault already ts operations error) (hread : ∀ t ∈ ts, IsReadable t) :
    (¬ FitsDepth already ts ∨ ∃ d ∈ operations, nestingLimit < d.height) ∧
      ∃ span, error = tooDeep span := by
  cases h with
  | number ht hr => exact absurd (hread _ ht) hr
  | @depth before after t hts hk hcount =>
    refine ⟨.inl fun hfits => ?_, t.span, rfl⟩
    have hprefix : before ++ [t] <+: ts := ⟨after, by rw [hts, List.append_assoc]; rfl⟩
    have := hfits _ hprefix
    simp [opens_cons, closes_cons, hk] at this
    omega
  | @height t op l r ht _ _ _ hhigh =>
    exact ⟨.inr ⟨_, (List.of_mem_zip ht).2, hhigh⟩, t.span, rfl⟩

/-- Readable statements with a fault exceed a limit, and the error says so. -/
theorem not_fitsBody {body : List Expr} (h : Fault 0 ts (body.flatMap Expr.operations) error)
    (hread : ∀ t ∈ ts, IsReadable t) : ¬ FitsBody ts body ∧ ∃ span, error = tooDeep span := by
  obtain ⟨hexceeds, hspan⟩ := h.exceeds hread
  refine ⟨fun hfits => ?_, hspan⟩
  rcases hexceeds with hdepth | ⟨d, hd, hhigh⟩
  · exact hdepth hfits.1
  · obtain ⟨e, he, hmem⟩ := List.mem_flatMap.mp hd
    have := Expr.height_le_of_mem_operations hmem
    have := hfits.2 e he
    omega

end Fault

/-- The tokens are refused for a fault of theirs. -/
def Refuses (already : Nat) (ts : List Token) (operations : List Expr) {α : Type}
    (result : Except Error α) : Prop :=
  ∃ error, Fault already ts operations error ∧ result = .error error

namespace Refuses

variable {already : Nat} {ts left right : List Token} {t opening : Token} {op : BinaryOp}
  {e l r : Expr} {level : Level} {α : Type} {result : Except Error α}

/-- Parentheses around tokens have the faults of the tokens inside. -/
theorem ofGroup (h : Refuses (already + 1) ts e.operations result) (hd : Derives level ts e)
    (hopen : opening.kind = .punctuation .openParen) (closing : Token) :
    Refuses already (opening :: (ts ++ [closing])) e.operations result := by
  obtain ⟨error, hfault, hresult⟩ := h
  have hinner := hfault.append hd.length_operators [closing] []
  rw [List.append_nil] at hinner
  exact ⟨error, hinner.cons_open hopen, hresult⟩

/-- A chain has the faults of what stands before its last operator. -/
theorem ofLeft (h : Refuses already left l.operations result) (hd : Derives level left l)
    (op : BinaryOp) (t : Token) (right : List Token) (r : Expr) :
    Refuses already (left ++ t :: right) (Expr.binary op l r).operations result := by
  obtain ⟨error, hfault, hresult⟩ := h
  exact ⟨error, hfault.append hd.length_operators _ _, hresult⟩

/-- A chain has the faults of the operand behind its last operator. -/
theorem ofRight (h : Refuses already right r.operations result) (hd : Derives level left l)
    (hk : t.kind = .operator op.operator) :
    Refuses already (left ++ t :: right) (Expr.binary op l r).operations result := by
  obtain ⟨error, hfault, hresult⟩ := h
  have hbalanced : opens (left ++ [t]) = closes (left ++ [t]) := by
    simp [opens_cons, closes_cons, hk, hd.balanced]
  have hlength : (operators (left ++ [t])).length =
      (l.operations ++ [Expr.binary op l r]).length := by
    simp [operators_cons_operator hk, hd.length_operators]
  have hchain := hfault.prepend hbalanced hlength
  rw [List.append_assoc, List.append_assoc] at hchain
  exact ⟨error, hchain, hresult⟩

end Refuses

end Grammar

end Abacus
