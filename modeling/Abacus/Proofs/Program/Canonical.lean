import Abacus.Program.Source
import Abacus.Proofs.Grammar.Machine
import Abacus.Proofs.Token.Scanning

/-!
# The tokens of canonical text

The source text of a program is scanned to the contents that its trees prescribe: leaves, operators,
and parentheses where an operand needs them. Tokens with these contents derive the program they were
written from, and the parentheses around an operand are open no deeper than the tree is high.
-/

namespace Abacus

/-- A name: a word that is spelled like no keyword. -/
def IsName (name : String) : Prop := IsWord name.toList ∧ ∀ word : Keyword, name ≠ word.spelling

namespace Expr

/-- Every number is finite and has no sign, and every identifier is a name. -/
def HasValidLeaves : Expr → Prop
  | number value => value.IsFinite ∧ value.negative = false
  | ident name => IsName name
  | binary _ left right => left.HasValidLeaves ∧ right.HasValidLeaves

/-- Contents in parentheses, if asked. -/
def wrapContents (wrap : Bool) (contents : List (Kind × String)) : List (Kind × String) :=
  if wrap then (.punctuation .openParen, "(") :: (contents ++ [(.punctuation .closeParen, ")")])
  else contents

/-- The contents of the source text of an expression. -/
def contents : Expr → List (Kind × String)
  | number value => [(.number, value.plainText)]
  | ident name => [(.identifier, name)]
  | binary op left right =>
    wrapContents (left.needsParens op .left) left.contents ++
      (.operator op.operator, op.spelling) ::
        wrapContents (right.needsParens op .right) right.contents

end Expr

/-- Every statement has valid leaves. -/
def Program.HasValidLeaves (p : Program) : Prop := ∀ e ∈ p.body, e.HasValidLeaves

section Scanning

/-- A word that is spelled like no keyword is an identifier. -/
theorem IsName.ofWord_eq {name : String} (h : IsName name) : Kind.ofWord name = .identifier := by
  have hnone : Keyword.ofSpelling? name = none := by
    rw [Keyword.ofSpelling?, List.find?_eq_none]
    intro word _
    simpa using (h.2 word).symm
  rw [Kind.ofWord, hnone]

/-- Parentheses around a text are scanned around its contents. -/
theorem scans_parenthesize {text : String} {contents : List (Kind × String)} {rest : List Char}
    (wrap : Bool) (hrest : Separates rest)
    (h : ∀ more, Separates more → Scans text.toList contents more) :
    Scans (Expr.parenthesize wrap text).toList (Expr.wrapContents wrap contents) rest := by
  cases wrap with
  | false => exact h rest hrest
  | true =>
    have hopen (more : List Char) : Scans ['('] [(.punctuation .openParen, "(")] more :=
      scans_symbol (by decide) more
    have hclose : Scans [')'] [(.punctuation .closeParen, ")")] rest :=
      scans_symbol (by decide) rest
    have hinner := h ([')'] ++ rest) (separates_cons (by decide) rest)
    simpa [Expr.parenthesize, Expr.wrapContents] using (hopen _).append (hinner.append hclose)

/-- An operator with a blank on either side is scanned to itself. -/
theorem scans_operator (op : BinaryOp) (rest : List Char) :
    Scans (" " ++ op.spelling ++ " ").toList [(.operator op.operator, op.spelling)] rest := by
  have hgap (more : List Char) : Scans [' '] [] more := scans_gap (by decide) more
  have hsymbol (more : List Char) :
      Scans [op.operator.symbol] [(.operator op.operator, op.spelling)] more := by
    refine scans_symbol ?_ more
    exact ofSymbol?_eq_some_iff.mpr (.inr ⟨op.operator, rfl, rfl⟩)
  simpa [BinaryOp.spelling, Operator.spelling] using
    (hgap _).append ((hsymbol _).append (hgap rest))

theorem separates_operator (op : BinaryOp) (text rest : List Char) :
    Separates ((" " ++ op.spelling ++ " ").toList ++ text ++ rest) := by
  have hblank : (" " ++ op.spelling ++ " ").toList = ' ' :: (op.spelling.toList ++ [' ']) := by simp
  rw [hblank]
  exact separates_cons (by decide) _

/-- A finite number without a sign is written as digits, perhaps with a point and more digits. -/
theorem Binary64.isPlainNumber_plainText {value : Binary64} (hfinite : value.IsFinite)
    (hsign : value.negative = false) : IsPlainNumber value.plainText.toList := by
  rw [toList_plainText hfinite hsign]
  exact Decimal.isPlainNumber_positional _

/-- The source text of an expression is scanned to its contents in front of what separates it. -/
theorem Expr.scans_source {e : Expr} (he : e.HasValidLeaves) {rest : List Char}
    (hrest : Separates rest) : Scans e.source.toList e.contents rest := by
  induction e generalizing rest with
  | number value =>
    simpa [source, contents] using
      scans_number (Binary64.isPlainNumber_plainText he.1 he.2) hrest
  | ident name =>
    have hname : IsName name := he
    simpa [source, contents, hname.ofWord_eq] using scans_word hname.1 hrest
  | binary op left right ihl ihr =>
    have hright := scans_parenthesize (right.needsParens op .right) hrest fun _ => ihr he.2
    have hoperator := (scans_operator op _).append hright
    have hleft := scans_parenthesize (left.needsParens op .left)
      (separates_operator op (parenthesize (right.needsParens op .right) right.source).toList rest)
      fun _ => ihl he.1
    simpa [source, contents] using hleft.append hoperator

/-- The contents of the source text of a program. -/
def Program.contents (p : Program) : List (Kind × String) := p.body.flatMap Expr.contents

/-- The source text of a program is scanned to the contents of its statements. -/
theorem Program.scans_source {p : Program} (hp : p.HasValidLeaves) :
    Scans p.source.toList p.contents [] := by
  obtain ⟨body⟩ := p
  induction body with
  | nil => exact Scans.nil []
  | cons e body ih =>
    have hrest := ih fun d hd => hp d (List.mem_cons_of_mem e hd)
    have hbreak := (scans_gap (by decide : isGap '\n' = true) _).append hrest
    have he := Expr.scans_source (hp e List.mem_cons_self)
      (separates_cons (by decide : isWordPart '\n' = false ∧ '\n' ≠ '.')
        ((Program.source ⟨body⟩).toList ++ []))
    simpa [Program.source, Program.contents] using he.append hbreak

end Scanning

open Grammar

/-- How loose a level is. -/
def Grammar.Level.rank : Level → Nat
  | operand => 0
  | product => 1
  | sum => 2

/-- The level whose chains an operation joins. -/
def BinaryOp.level : BinaryOp → Level
  | add | sub => .sum
  | mul | div | mod => .product

/-- The tightest level at which an expression is written without parentheses around it. -/
def Expr.level : Expr → Level
  | number _ => .operand
  | ident _ => .operand
  | binary op _ _ => op.level

section Derivation

theorem Grammar.Level.rank_le_sum (level : Level) : level.rank ≤ Level.sum.rank := by
  cases level <;> decide

/-- What is derived at a level is derived at every looser one. -/
theorem Grammar.Derives.loosen {level level' : Level} {ts : List Token} {e : Expr}
    (h : Derives level ts e) (hle : level.rank ≤ level'.rank) : Derives level' ts e := by
  cases level <;> cases level' <;> simp only [Level.rank] at hle
  · exact h
  · exact .ofOperand h
  · exact .ofProduct (.ofOperand h)
  · omega
  · exact h
  · exact .ofProduct h
  · omega
  · omega
  · exact h

/-- The vocabulary and the grammar agree: the looser the level, the lower the precedence. -/
theorem BinaryOp.precedence_add_rank (op : BinaryOp) : op.precedence + 10 * op.level.rank = 70 := by
  cases op <;> rfl

theorem BinaryOp.rank_level_pos (op : BinaryOp) : 0 < op.level.rank := by
  cases op <;> decide

theorem BinaryOp.associativity_eq (op : BinaryOp) : op.associativity = .left := by
  cases op <;> rfl

/-- A left operand takes parentheses exactly when it is looser than the chain. -/
theorem Expr.needsParens_left_iff {op : BinaryOp} {e : Expr} :
    e.needsParens op .left = true ↔ op.level.rank < e.level.rank := by
  cases e with
  | number _ | ident _ => simp [needsParens, level, Level.rank]
  | binary op' _ _ =>
    have hop := op.precedence_add_rank
    have hop' := op'.precedence_add_rank
    simp only [needsParens, op.associativity_eq, level]
    split
    · simp only [reduceCtorEq, decide_false, Bool.false_eq_true, false_iff]
      omega
    · rw [decide_eq_true_iff]
      omega

/-- A right operand takes parentheses exactly when it is no tighter than the chain. -/
theorem Expr.needsParens_right_iff {op : BinaryOp} {e : Expr} :
    e.needsParens op .right = true ↔ op.level.rank ≤ e.level.rank := by
  cases e with
  | number _ | ident _ =>
    have := op.rank_level_pos
    simp only [needsParens, level, Bool.false_eq_true, false_iff]
    exact Nat.not_le.mpr this
  | binary op' _ _ =>
    have hop := op.precedence_add_rank
    have hop' := op'.precedence_add_rank
    simp only [needsParens, op.associativity_eq, level]
    split
    · simp only [decide_true, true_iff]
      omega
    · rw [decide_eq_true_iff]
      omega

/-- A left operand without parentheses belongs to the chain. -/
theorem Expr.rank_le_of_left {op : BinaryOp} {e : Expr} (h : e.needsParens op .left = false) :
    e.level.rank ≤ op.level.rank := by
  rw [← Bool.not_eq_true, needsParens_left_iff] at h
  exact Nat.not_lt.mp h

/-- A right operand without parentheses is tighter than the chain. -/
theorem Expr.rank_lt_of_right {op : BinaryOp} {e : Expr} (h : e.needsParens op .right = false) :
    e.level.rank < op.level.rank := by
  rw [← Bool.not_eq_true, needsParens_right_iff] at h
  exact Nat.not_le.mp h

/-- Only an operation is put in parentheses. -/
theorem Expr.two_le_height_of_needsParens {op : BinaryOp} {side : Side} {e : Expr}
    (h : e.needsParens op side = true) : 2 ≤ e.height := by
  cases e with
  | number _ | ident _ => simp [needsParens] at h
  | binary _ l _ =>
    have := l.height_pos
    simp only [height]
    omega

/-- Tokens of wrapped contents are the tokens of the contents between parentheses. -/
theorem exists_of_map_wrapContents {ts : List Token} {contents : List (Kind × String)}
    (h : ts.map Token.content = Expr.wrapContents true contents) :
    ∃ opening inner closing, ts = opening :: (inner ++ [closing]) ∧
      opening.kind = .punctuation .openParen ∧ closing.kind = .punctuation .closeParen ∧
      inner.map Token.content = contents := by
  obtain ⟨opening, rest, rfl, hopen, hrest⟩ := List.map_eq_cons_iff.mp h
  obtain ⟨inner, last, rfl, hinner, hlast⟩ := List.map_eq_append_iff.mp hrest
  obtain ⟨closing, nothing, rfl, hclose, hnil⟩ := List.map_eq_cons_iff.mp hlast
  rw [List.map_eq_nil_iff.mp hnil]
  exact ⟨opening, inner, closing, rfl, congrArg Prod.fst hopen, congrArg Prod.fst hclose, hinner⟩

/-- An operand derives at a level if it is in parentheses or tight enough. -/
theorem Expr.derives_operand {e : Expr} {level : Level} {wrap : Bool} {ts : List Token}
    (h : ∀ us : List Token, us.map Token.content = e.contents → Derives e.level us e)
    (hwrap : wrap = false → e.level.rank ≤ level.rank)
    (hts : ts.map Token.content = wrapContents wrap e.contents) : Derives level ts e := by
  cases wrap with
  | false => exact (h ts hts).loosen (hwrap rfl)
  | true =>
    obtain ⟨opening, inner, closing, rfl, hopen, hclose, hinner⟩ := exists_of_map_wrapContents hts
    have hsum : Derives .sum inner e := (h inner hinner).loosen e.level.rank_le_sum
    exact (Derives.group hopen hclose hsum).loosen (Nat.zero_le _)

/-- Tokens of an operation are those of its operands around its operator. -/
theorem Expr.exists_of_map_contents {op : BinaryOp} {l r : Expr} {ts : List Token}
    (h : ts.map Token.content = (binary op l r).contents) :
    ∃ left t right, ts = left ++ t :: right ∧ t.kind = .operator op.operator ∧
      left.map Token.content = wrapContents (l.needsParens op .left) l.contents ∧
      right.map Token.content = wrapContents (r.needsParens op .right) r.contents := by
  obtain ⟨left, rest, rfl, hleft, hrest⟩ := List.map_eq_append_iff.mp h
  obtain ⟨t, right, rfl, ht, hright⟩ := List.map_eq_cons_iff.mp hrest
  exact ⟨left, t, right, rfl, congrArg Prod.fst ht, hleft, hright⟩

/-- Tokens with the contents of an expression derive it. -/
theorem Expr.derives_of_contents {e : Expr} (he : e.HasValidLeaves) {ts : List Token}
    (hts : ts.map Token.content = e.contents) : Derives e.level ts e := by
  induction e generalizing ts with
  | number value =>
    obtain ⟨t, rest, rfl, ht, hrest⟩ := List.map_eq_cons_iff.mp hts
    obtain rfl := List.map_eq_nil_iff.mp hrest
    have hvalue : numberOf t = value := by
      rw [numberOf, show t.text = value.plainText from congrArg Prod.snd ht,
        Binary64.ofText?_plainText he.1 he.2, Option.getD_some]
    exact hvalue ▸ .number (congrArg Prod.fst ht)
  | ident name =>
    obtain ⟨t, rest, rfl, ht, hrest⟩ := List.map_eq_cons_iff.mp hts
    obtain rfl := List.map_eq_nil_iff.mp hrest
    have hname : t.text = name := congrArg Prod.snd ht
    exact hname ▸ .ident (congrArg Prod.fst ht)
  | binary op l r ihl ihr =>
    obtain ⟨left, t, right, rfl, ht, hleft, hright⟩ := exists_of_map_contents hts
    have hl : Derives op.level left l :=
      derives_operand (fun _ => ihl he.1) rank_le_of_left hleft
    have hr (level : Level) (hlevel : op.level.rank ≤ level.rank + 1) : Derives level right r := by
      refine derives_operand (fun _ => ihr he.2) (fun h => ?_) hright
      have := rank_lt_of_right h
      omega
    cases op with
    | add | sub => exact .add (by simp) ht hl (hr .product (by decide))
    | mul | div | mod => exact .multiply (by simp) ht hl (hr .operand (by decide))

/-- Tokens with the contents of a program derive it. -/
theorem Program.derives_of_contents {p : Program} (hp : p.HasValidLeaves) {ts : List Token}
    (hts : ts.map Token.content = p.contents) : DerivesProgram ts p := by
  obtain ⟨body⟩ := p
  induction body generalizing ts with
  | nil =>
    rw [List.map_eq_nil_iff.mp hts]
    exact .nil
  | cons e body ih =>
    obtain ⟨us, rest, rfl, hus, hrest⟩ := List.map_eq_append_iff.mp hts
    have hd := Expr.derives_of_contents (hp e List.mem_cons_self) hus
    exact .cons (hd.loosen e.level.rank_le_sum)
      (ih (fun d hd => hp d (List.mem_cons_of_mem e hd)) hrest)

end Derivation

section Contents

/-- Parentheses add nothing but themselves. -/
theorem Expr.mem_wrapContents {wrap : Bool} {contents : List (Kind × String)} {c : Kind × String}
    (h : c ∈ wrapContents wrap contents) : c ∈ contents ∨ ∃ mark, c.1 = .punctuation mark := by
  cases wrap with
  | false => exact .inl h
  | true =>
    simp only [wrapContents, if_true, List.mem_cons, List.mem_append, List.not_mem_nil,
      or_false] at h
    rcases h with rfl | h | rfl
    · exact .inr ⟨_, rfl⟩
    · exact .inl h
    · exact .inr ⟨_, rfl⟩

/-- Every content of an expression is a number in plain text, an identifier, an operator or a
parenthesis. -/
theorem Expr.kind_of_mem_contents {e : Expr} (he : e.HasValidLeaves) {c : Kind × String}
    (hc : c ∈ e.contents) :
    (c.1 = .number ∧ ∃ x : Binary64, x.IsFinite ∧ x.negative = false ∧ c.2 = x.plainText) ∨
      c.1 = .identifier ∨ (∃ op, c.1 = .operator op) ∨ ∃ mark, c.1 = .punctuation mark := by
  induction e with
  | number value =>
    obtain rfl := List.mem_singleton.mp hc
    exact .inl ⟨rfl, value, he.1, he.2, rfl⟩
  | ident name =>
    obtain rfl := List.mem_singleton.mp hc
    exact .inr (.inl rfl)
  | binary op l r ihl ihr =>
    rcases List.mem_append.mp hc with hc | hc
    · rcases mem_wrapContents hc with hc | hmark
      · exact ihl he.1 hc
      · exact .inr (.inr (.inr hmark))
    · rcases List.mem_cons.mp hc with rfl | hc
      · exact .inr (.inr (.inl ⟨_, rfl⟩))
      · rcases mem_wrapContents hc with hc | hmark
        · exact ihr he.2 hc
        · exact .inr (.inr (.inr hmark))

/-- Tokens with the contents of a program are readable, and none is the end of input. -/
theorem Program.isReadable_of_contents {p : Program} (hp : p.HasValidLeaves) {ts : List Token}
    (hts : ts.map Token.content = p.contents) {t : Token} (ht : t ∈ ts) :
    IsReadable t ∧ t.kind ≠ .endOfInput := by
  have hmem : t.content ∈ p.contents := hts ▸ List.mem_map_of_mem ht
  obtain ⟨e, he, hc⟩ := List.mem_flatMap.mp hmem
  rcases Expr.kind_of_mem_contents (hp e he) hc with
    ⟨hk, x, hfinite, hsign, htext⟩ | hk | ⟨op, hk⟩ | ⟨mark, hk⟩
  · refine ⟨(isReadable_iff t).mpr fun _ => ?_, fun h => by simp [Token.content, h] at hk⟩
    have hread : Binary64.ofText? t.text = some x := by
      rw [show t.text = x.plainText from htext, Binary64.ofText?_plainText hfinite hsign]
    rw [numberOf, hread, Option.getD_some]
  all_goals
    have hk : t.kind = _ := hk
    exact ⟨fun h => by simp [hk] at h, by simp [hk]⟩

end Contents

section Depth

variable {ts : List Token} {bound : Nat}

/-- At no point of the tokens more parentheses are open than the bound. -/
def OpensAtMost (bound : Nat) (ts : List Token) : Prop :=
  ∀ start, start <+: ts → opens start ≤ closes start + bound

/-- Tokens that open no parenthesis stay below every bound. -/
theorem opensAtMost_of_opens_eq_zero (h : opens ts = 0) : OpensAtMost bound ts := by
  intro start hs
  have hle : opens start ≤ opens ts := hs.sublist.countP_le
  omega

/-- Behind an opening parenthesis there is room for one fewer. -/
theorem OpensAtMost.cons_open {opening : Token} (h : OpensAtMost bound ts)
    (hopen : opening.kind = .punctuation .openParen) :
    OpensAtMost (bound + 1) (opening :: ts) := by
  intro start hs
  rcases List.prefix_cons_iff.mp hs with rfl | ⟨inner, rfl, hinner⟩
  · simp
  · have := h inner hinner
    simp [opens_cons, closes_cons, hopen]
    omega

/-- Behind balanced tokens as many parentheses are open as without them. -/
theorem OpensAtMost.append {us : List Token} (h : OpensAtMost bound ts)
    (hbalanced : opens ts = closes ts) (hus : OpensAtMost bound us) :
    OpensAtMost bound (ts ++ us) := by
  intro start hs
  rcases prefix_append_cases hs with hs | ⟨more, rfl, hmore⟩
  · exact h start hs
  · have := hus more hmore
    simp only [opens_append, closes_append, hbalanced]
    omega

/-- Parentheses around balanced tokens are one more. -/
theorem OpensAtMost.group {opening closing : Token} (h : OpensAtMost bound ts)
    (hbalanced : opens ts = closes ts) (hopen : opening.kind = .punctuation .openParen)
    (hclose : closing.kind = .punctuation .closeParen) :
    OpensAtMost (bound + 1) (opening :: (ts ++ [closing])) := by
  have hclosing : opens [closing] = 0 := by simp [opens_cons, hclose]
  exact (h.append hbalanced (opensAtMost_of_opens_eq_zero hclosing)).cons_open hopen

theorem OpensAtMost.cons_operator {t : Token} {op : Operator} (h : OpensAtMost bound ts)
    (ht : t.kind = .operator op) : OpensAtMost bound (t :: ts) := by
  intro start hs
  rcases List.prefix_cons_iff.mp hs with rfl | ⟨more, rfl, hmore⟩
  · simp
  · have := h more hmore
    simp [opens_cons, closes_cons, ht]
    omega

theorem OpensAtMost.mono {bound' : Nat} (h : OpensAtMost bound ts) (hle : bound ≤ bound') :
    OpensAtMost bound' ts := fun start hs => (h start hs).trans (by omega)

/-- An operand with or without parentheses is balanced if its contents are. -/
theorem Expr.balanced_operand {e : Expr} {wrap : Bool}
    (h : ∀ us : List Token, us.map Token.content = e.contents → opens us = closes us)
    (hts : ts.map Token.content = wrapContents wrap e.contents) : opens ts = closes ts := by
  cases wrap with
  | false => exact h ts hts
  | true =>
    obtain ⟨opening, inner, closing, rfl, hopen, hclose, hinner⟩ := exists_of_map_wrapContents hts
    simp [opens_cons, closes_cons, hopen, hclose, h inner hinner]

/-- The parentheses written around operands are closed again, whatever the leaves are. -/
theorem Expr.balanced_of_contents {e : Expr} (hts : ts.map Token.content = e.contents) :
    opens ts = closes ts := by
  induction e generalizing ts with
  | number value | ident name =>
    obtain ⟨t, rest, rfl, ht, hrest⟩ := List.map_eq_cons_iff.mp hts
    obtain rfl := List.map_eq_nil_iff.mp hrest
    have hk : t.kind = _ := congrArg Prod.fst ht
    simp [opens_cons, closes_cons, hk]
  | binary op l r ihl ihr =>
    obtain ⟨left, t, right, rfl, ht, hleft, hright⟩ := exists_of_map_contents hts
    have hl := balanced_operand (fun _ => ihl) hleft
    have hr := balanced_operand (fun _ => ihr) hright
    simp [opens_cons, closes_cons, ht, hl, hr]

/-- The operand of an operation opens at most two parentheses fewer than the operation is high. -/
theorem Expr.opensAtMost_operand {e : Expr} {wrap : Bool} {height : Nat}
    (h : ∀ us : List Token, us.map Token.content = e.contents → OpensAtMost (e.height - 2) us)
    (hwrap : wrap = true → 2 ≤ e.height) (hheight : e.height < height)
    (hts : ts.map Token.content = wrapContents wrap e.contents) : OpensAtMost (height - 2) ts := by
  cases wrap with
  | false => exact (h ts hts).mono (by omega)
  | true =>
    obtain ⟨opening, inner, closing, rfl, hopen, hclose, hinner⟩ := exists_of_map_wrapContents hts
    have htwo := hwrap rfl
    exact ((h inner hinner).group (balanced_of_contents hinner) hopen hclose).mono (by omega)

/-- The parentheses of an expression are open no deeper than two less than its height. -/
theorem Expr.opensAtMost_of_contents {e : Expr} (hts : ts.map Token.content = e.contents) :
    OpensAtMost (e.height - 2) ts := by
  induction e generalizing ts with
  | number value | ident name =>
    obtain ⟨t, rest, rfl, ht, hrest⟩ := List.map_eq_cons_iff.mp hts
    obtain rfl := List.map_eq_nil_iff.mp hrest
    have hk : t.kind = _ := congrArg Prod.fst ht
    exact opensAtMost_of_opens_eq_zero (by simp [opens_cons, hk])
  | binary op l r ihl ihr =>
    obtain ⟨left, t, right, rfl, ht, hleft, hright⟩ := exists_of_map_contents hts
    have hl := opensAtMost_operand (fun _ => ihl) two_le_height_of_needsParens
      (by simp only [height]; omega : l.height < (binary op l r).height) hleft
    have hr := opensAtMost_operand (fun _ => ihr) two_le_height_of_needsParens
      (by simp only [height]; omega : r.height < (binary op l r).height) hright
    have hbalanced := balanced_operand (fun _ => balanced_of_contents) hleft
    exact hl.append hbalanced (hr.cons_operator ht)

/-- The parentheses of a program are open no deeper than its highest statement is high. -/
theorem Program.opensAtMost_of_contents {p : Program} {height : Nat}
    (hheight : ∀ e ∈ p.body, e.height ≤ height) (hts : ts.map Token.content = p.contents) :
    OpensAtMost (height - 2) ts := by
  obtain ⟨body⟩ := p
  induction body generalizing ts with
  | nil =>
    rw [List.map_eq_nil_iff.mp hts]
    intro start hs
    simp [List.prefix_nil.mp hs]
  | cons e body ih =>
    obtain ⟨us, rest, rfl, hus, hrest⟩ := List.map_eq_append_iff.mp hts
    have hle := hheight e List.mem_cons_self
    exact ((Expr.opensAtMost_of_contents hus).mono (by omega)).append
      (Expr.balanced_of_contents hus)
      (ih (fun d hd => hheight d (List.mem_cons_of_mem e hd)) hrest)

end Depth

end Abacus
