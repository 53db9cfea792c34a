import Abacus.Proofs.Grammar.Acceptance
import Mathlib.Data.List.Forall2

/-!
# What the parser keeps of its tokens

An expression is read back from left to right: the left operand, the operator, the right operand.
What is read so is what the tokens say, less the parentheses, in the order of the tokens: the parser
loses none, repeats none and moves none. The tokens of a program fall into the tokens of its
statements, and in each of these the parentheses are balanced.
-/

namespace Abacus

/-- What a number, a name or an operator says. -/
inductive Item
  | number (value : Binary64)
  | ident (name : String)
  | operator (op : Operator)
  deriving DecidableEq

/-- The leaves and the operators of an expression from left to right. -/
def Expr.inOrder : Expr → List Item
  | number value => [.number value]
  | ident name => [.ident name]
  | binary op left right => left.inOrder ++ .operator op.operator :: right.inOrder

/-- What a token says: the number that its text spells, its name or its operator. -/
def Token.item? (t : Token) : Option Item :=
  match t.kind with
  | .number => (Binary64.ofText? t.text).map .number
  | .identifier => some (.ident t.text)
  | .operator op => some (.operator op)
  | _ => none

/-- Whether a kind is one of the two parentheses. -/
def Kind.isParen : Kind → Bool
  | punctuation .openParen | punctuation .closeParen => true
  | _ => false

namespace Grammar

open Abacus.Parser

/-- What tokens say, the parentheses left out. -/
def items (ts : List Token) : List (Option Item) :=
  (ts.filter (!·.kind.isParen)).map Token.item?

@[simp] theorem items_nil : items [] = [] := rfl

@[simp] theorem items_append (xs ys : List Token) : items (xs ++ ys) = items xs ++ items ys := by
  rw [items, List.filter_append, List.map_append]
  rfl

theorem items_cons_paren {t : Token} (h : t.kind.isParen = true) (ts : List Token) :
    items (t :: ts) = items ts := by
  simp [items, h]

theorem items_cons {t : Token} (h : t.kind.isParen = false) (ts : List Token) :
    items (t :: ts) = t.item? :: items ts := by
  simp [items, h]

/-- Derived tokens say what the expression says. -/
theorem Derives.items_eq {level : Level} {ts : List Token} {e : Expr} (h : Derives level ts e)
    (hread : ∀ t ∈ ts, IsReadable t) : items ts = e.inOrder.map some := by
  induction h with
  | @number t hk =>
    have hvalue := (isReadable_iff t).mp (hread t (List.mem_singleton_self t)) hk
    rw [items_cons (by rw [hk]; rfl), Token.item?, hk]
    simp [hvalue, Expr.inOrder]
  | @ident t hk =>
    rw [items_cons (by rw [hk]; rfl), Token.item?, hk]
    rfl
  | @group opening closing ts e hopen hclose _ ih =>
    rw [items_cons_paren (by rw [hopen]; rfl), items_append,
      items_cons_paren (by rw [hclose]; rfl), items_nil, List.append_nil]
    exact ih fun t ht => hread t (by simp [ht])
  | ofOperand _ ih | ofProduct _ ih => exact ih hread
  | @multiply left right t op l r _ hk _ _ ihl ihr | @add left right t op l r _ hk _ _ ihl ihr =>
    have hitem : t.item? = some (.operator op.operator) := by rw [Token.item?, hk]
    rw [items_append, items_cons (by rw [hk]; rfl), ihl fun u hu => hread u (by simp [hu]),
      ihr fun u hu => hread u (by simp [hu]), hitem]
    simp [Expr.inOrder]

/-- The tokens of one statement: alone they are parsed to it, they say what it says, and as many
parentheses are closed as are opened, none before it is opened. -/
structure SpellsStatement (ts : List Token) (e : Expr) : Prop where
  parse_eq (offset : Nat) : parse (ts ++ [.endOfInput offset]) = .ok ⟨[e]⟩
  items_eq : items ts = e.inOrder.map some
  balanced : opens ts = closes ts
  closes_le_opens (start : List Token) : start <+: ts → closes start ≤ opens start

/-- Derived tokens within the limits are the tokens of one statement. -/
theorem Derives.spellsStatement {ts : List Token} {e : Expr} (h : Derives .sum ts e)
    (hend : ∀ t ∈ ts, t.kind ≠ .endOfInput) (hread : ∀ t ∈ ts, IsReadable t)
    (hfits : FitsDepth 0 ts) (hheight : e.height ≤ nestingLimit) : SpellsStatement ts e where
  parse_eq offset := by
    have hlast := kind_getLast?_concat ts offset
    have hbody : DerivesProgram ts ⟨[e]⟩ := by
      have hone := DerivesBody.cons h .nil
      rwa [List.append_nil] at hone
    have hsentence := sentence_concat hend offset
    rcases parse_of_derives hlast (hsentence.symm ▸ hbody) (hsentence.symm ▸ hread) with
      hparse | ⟨hexceeds, -⟩
    · exact hparse
    · rw [hsentence] at hexceeds
      exact absurd ⟨hfits, by simpa using hheight⟩ hexceeds
  items_eq := h.items_eq hread
  balanced := h.balanced
  closes_le_opens _ hs := h.closes_le_opens hs

/-- Balanced tokens leave the room for parentheses behind them as it was. -/
theorem FitsDepth.of_append {us ts : List Token} (h : FitsDepth 0 (us ++ ts))
    (hbalanced : opens us = closes us) : FitsDepth 0 us ∧ FitsDepth 0 ts := by
  constructor
  · intro start hs
    exact h start (hs.trans (List.prefix_append us ts))
  · intro start hs
    have hle := h (us ++ start) ((List.prefix_append_right_inj us).mpr hs)
    rw [opens_append, closes_append] at hle
    omega

/-- Derived tokens within the limits fall into the tokens of the statements. -/
theorem DerivesBody.exists_parts {ts : List Token} {body : List Expr} (h : DerivesBody ts body)
    (hend : ∀ t ∈ ts, t.kind ≠ .endOfInput) (hread : ∀ t ∈ ts, IsReadable t)
    (hfits : FitsBody ts body) :
    ∃ parts : List (List Token), parts.flatten = ts ∧ List.Forall₂ SpellsStatement parts body := by
  induction h with
  | nil => exact ⟨[], rfl, .nil⟩
  | @cons us rest e body hd _ ih =>
    obtain ⟨hdepth, hdepth'⟩ := hfits.1.of_append hd.balanced
    obtain ⟨hheight, hheight'⟩ := List.forall_mem_cons.mp hfits.2
    have hstatement := hd.spellsStatement (fun t ht => hend t (List.mem_append_left _ ht))
      (fun t ht => hread t (List.mem_append_left _ ht)) hdepth hheight
    obtain ⟨parts, rfl, hparts⟩ := ih (fun t ht => hend t (List.mem_append_right _ ht))
      (fun t ht => hread t (List.mem_append_right _ ht)) ⟨hdepth', hheight'⟩
    exact ⟨us :: parts, rfl, .cons hstatement hparts⟩

/-- Tokens that fall into the tokens of statements say what the statements say. -/
theorem items_flatten {parts : List (List Token)} {body : List Expr}
    (h : List.Forall₂ SpellsStatement parts body) :
    items parts.flatten = (body.flatMap Expr.inOrder).map some := by
  induction h with
  | nil => rfl
  | cons hpart _ ih =>
    rw [List.flatten_cons, items_append, hpart.items_eq, ih, List.flatMap_cons, List.map_append]

/-- No token is lost, repeated or moved. Of a stream that closes with the end of input and is parsed
to a program, the tokens before the first end of input say, the parentheses left out, what the
statements say from left to right, one behind the other. They fall into the tokens of the
statements, which alone are parsed to the statement, and in which the parentheses are balanced. -/
theorem items_eq_inOrder (tokens : List Token)
    (h : tokens.getLast?.map Token.kind = some .endOfInput) (p : Program)
    (hp : parse tokens = .ok p) :
    let ts := tokens.takeWhile (·.kind ≠ .endOfInput)
    (ts.filter (!·.kind.isParen)).map Token.item? = (p.body.flatMap Expr.inOrder).map some ∧
      ∃ parts : List (List Token), parts.flatten = ts ∧
        List.Forall₂ SpellsStatement parts p.body := by
  intro ts
  obtain ⟨hd, hread, hfits⟩ := derives_of_parse_eq_ok h hp
  obtain ⟨parts, hflatten, hparts⟩ :=
    DerivesBody.exists_parts hd (fun t ht => kind_ne_of_mem_sentence ht) hread hfits
  refine ⟨?_, parts, hflatten, hparts⟩
  have hitems := items_flatten hparts
  rwa [hflatten] at hitems

/-- Two statements, one with a chain in a group, and tokens behind the first end of input: the
stream is parsed, and its tokens say what the statements say. -/
theorem items_eq_inOrder_chain :
    let tokens : List Token :=
      [⟨.identifier, "a", ⟨0, 1⟩⟩, ⟨.operator .minus, "-", ⟨1, 2⟩⟩,
        ⟨.punctuation .openParen, "(", ⟨2, 3⟩⟩, ⟨.number, "2", ⟨3, 4⟩⟩,
        ⟨.operator .slash, "/", ⟨4, 5⟩⟩, ⟨.identifier, "b", ⟨5, 6⟩⟩,
        ⟨.punctuation .closeParen, ")", ⟨6, 7⟩⟩, ⟨.identifier, "c", ⟨8, 9⟩⟩, .endOfInput 9,
        ⟨.operator .caret, "^", ⟨0, 0⟩⟩, .endOfInput 9]
    let p : Program :=
      ⟨[.binary .sub (.ident "a")
          (.binary .div (.number (.ofBits 0x4000000000000000)) (.ident "b")), .ident "c"]⟩
    tokens.getLast?.map Token.kind = some .endOfInput ∧ parse tokens = .ok p ∧
      ((tokens.takeWhile (·.kind ≠ .endOfInput)).filter (!·.kind.isParen)).map Token.item? =
        (p.body.flatMap Expr.inOrder).map some := by
  intro tokens p
  have hlast : tokens.getLast?.map Token.kind = some .endOfInput := rfl
  have hparse : parse tokens = .ok p := by decide +kernel
  exact ⟨hlast, hparse, (items_eq_inOrder tokens hlast p hparse).1⟩

end Grammar

end Abacus
