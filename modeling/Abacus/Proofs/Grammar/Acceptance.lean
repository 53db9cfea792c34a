import Abacus.Proofs.Grammar.Machine
import Mathlib.Data.List.TakeWhile

/-!
# What the parser accepts

The state of the parser is a derivation cut off at the last token: complete statements, groups that
are still open, and operations that wait for their right side, each with the tokens it was read
from. Every step keeps this reading, so that an accepted stream is derived by the grammar. Derived
tokens are accepted or have a fault, and tokens within the limits have none; so the parser accepts
exactly the derivations within its limits.
-/

namespace Abacus.Grammar

open Abacus.Parser

theorem isReadable_of_ne {t : Token} (h : t.kind ≠ .number) : IsReadable t :=
  fun hk => absurd hk h

/-- A value with the tokens it was read from at a level. -/
structure IsValue (level : Level) (v : Value) (ts : List Token) : Prop where
  derives : Derives level ts v.expr
  height_eq : v.height = v.expr.height
  height_le : v.height ≤ nestingLimit

/-- An operation that waits for its right side, with the tokens of its left side and its
operator. -/
def Waits (level : Level) (operations : List BinaryOp) : Option Pending → List Token → Prop
  | none, ts => ts = []
  | some p, ts => ∃ left t, ts = left ++ [t] ∧ IsValue level p.left left ∧ p.op ∈ operations ∧
    t.kind = .operator p.op.operator ∧ t.span = p.span

theorem Waits.none {level : Level} {operations : List BinaryOp} :
    Waits level operations none [] := rfl

/-- A sum that waits for a product. -/
abbrev WaitsSum : Option Pending → List Token → Prop := Waits .sum [.add, .sub]

/-- A product that waits for an operand. -/
abbrev WaitsProduct : Option Pending → List Token → Prop := Waits .product [.mul, .div, .mod]

/-- Open groups, innermost first, with the tokens from the outermost of them on. -/
inductive Encloses : List Group → List Token → Prop
  | nil : Encloses [] []
  | cons {group : Group} {groups : List Group} {outer ss ps : List Token} {opening : Token} :
    Encloses groups outer → groups.length < nestingLimit →
    WaitsSum group.sum ss → WaitsProduct group.product ps →
    opening.kind = .punctuation .openParen → opening.span = group.openedAt →
    Encloses (group :: groups) (outer ++ (ss ++ (ps ++ [opening])))

/-- Complete statements, latest first, with their tokens. -/
structure IsBody (body : List Expr) (ts : List Token) : Prop where
  derives : DerivesBody ts body.reverse
  height_le : ∀ e ∈ body, e.height ≤ nestingLimit

/-- A state of the parser with the tokens that led to it. -/
inductive Reads : State → List Token → Prop
  | between {body : List Expr} {ts : List Token} : IsBody body ts → Reads (.between body) ts
  | operand {body : List Expr} {groups : List Group} {sum product : Option Pending}
    {bs os ss ps : List Token} :
    IsBody body bs → Encloses groups os → WaitsSum sum ss → WaitsProduct product ps →
    Reads (.operand body groups sum product) (bs ++ (os ++ (ss ++ ps)))
  | operator {body : List Expr} {groups : List Group} {sum : Option Pending} {v : Value}
    {bs os ss vs : List Token} :
    IsBody body bs → Encloses groups os → WaitsSum sum ss → IsValue .product v vs →
    Reads (.operator body groups sum v) (bs ++ (os ++ (ss ++ vs)))

/-- Statements one behind the other and another one. -/
theorem DerivesBody.concat {ts us : List Token} {body : List Expr} {e : Expr}
    (h : DerivesBody ts body) (he : Derives .sum us e) : DerivesBody (ts ++ us) (body ++ [e]) := by
  induction h with
  | nil =>
    have := DerivesBody.cons he .nil
    rwa [List.append_nil] at this
  | cons hd _ ih =>
    rw [List.append_assoc]
    exact .cons hd ih

theorem IsBody.concat {ts us : List Token} {body : List Expr} {v : Value} (h : IsBody body ts)
    (hv : IsValue .sum v us) : IsBody (v.expr :: body) (ts ++ us) where
  derives := by
    rw [List.reverse_cons]
    exact h.derives.concat hv.derives
  height_le := by
    intro e he
    rcases List.mem_cons.mp he with rfl | he
    · exact hv.height_eq ▸ hv.height_le
    · exact h.height_le e he

section Values

variable {v total : Value} {vs ws : List Token}

/-- A waiting operation that is completed within the limit is a value of its level. -/
theorem IsValue.join {outer inner : Level} {operations : List BinaryOp}
    {pending : Option Pending} (hlift : ∀ {ts e}, Derives inner ts e → Derives outer ts e)
    (hjoin : ∀ {left right t op l r}, op ∈ operations → t.kind = .operator op.operator →
      Derives outer left l → Derives inner right r →
      Derives outer (left ++ t :: right) (.binary op l r))
    (hv : IsValue inner v vs) (hw : Waits outer operations pending ws)
    (h : complete pending v = .ok total) : IsValue outer total (ws ++ vs) := by
  cases pending with
  | none =>
    obtain rfl : ws = [] := hw
    cases h
    exact ⟨hlift hv.derives, hv.height_eq, hv.height_le⟩
  | some p =>
    obtain ⟨left, t, rfl, hl, hop, ht, -⟩ := hw
    simp only [complete] at h
    split at h
    · cases h
    · next hle =>
      cases h
      refine ⟨?_, ?_, Nat.not_lt.mp hle⟩
      · rw [List.append_assoc]
        exact hjoin hop ht hl.derives hv.derives
      · simp only [Expr.height, hl.height_eq, hv.height_eq]

theorem IsValue.joinSum {sum : Option Pending} (hv : IsValue .product v vs)
    (hw : WaitsSum sum ws) (h : complete sum v = .ok total) : IsValue .sum total (ws ++ vs) :=
  hv.join .ofProduct .add hw h

theorem IsValue.joinProduct {product : Option Pending} (hv : IsValue .operand v vs)
    (hw : WaitsProduct product ws) (h : complete product v = .ok total) :
    IsValue .product total (ws ++ vs) :=
  hv.join .ofOperand .multiply hw h

/-- Parentheses around a sum make it an operand. -/
theorem IsValue.group {opening closing : Token} (hv : IsValue .sum v vs)
    (hopen : opening.kind = .punctuation .openParen)
    (hclose : closing.kind = .punctuation .closeParen) :
    IsValue .operand v (opening :: (vs ++ [closing])) :=
  ⟨.group hopen hclose hv.derives, hv.height_eq, hv.height_le⟩

end Values

theorem multiplicative?_eq_some {k : Kind} {op : BinaryOp} (h : k.multiplicative? = some op) :
    k = .operator op.operator ∧ op ∈ [BinaryOp.mul, .div, .mod] := by
  unfold Kind.multiplicative? at h
  split at h <;> cases h <;> decide

theorem additive?_eq_some {k : Kind} {op : BinaryOp} (h : k.additive? = some op) :
    k = .operator op.operator ∧ op ∈ [BinaryOp.add, .sub] := by
  unfold Kind.additive? at h
  split at h <;> cases h <;> decide

section Steps

variable {body : List Expr} {groups : List Group} {sum product : Option Pending} {state : State}
  {bs os ss ps vs : List Token} {v : Value} {t : Token}

/-- An operand that is supplied to what waits for it is read with it. -/
theorem reads_supply (hb : IsBody body bs) (ho : Encloses groups os) (hs : WaitsSum sum ss)
    (hp : WaitsProduct product ps) (hv : IsValue .operand v vs)
    (h : supply body groups sum product v = .ok state) :
    Reads state (bs ++ (os ++ (ss ++ (ps ++ vs)))) := by
  unfold supply at h
  cases htotal : complete product v with
  | error e => rw [htotal] at h; cases h
  | ok total =>
    rw [htotal] at h
    cases h
    exact .operator hb ho hs (hv.joinProduct hp htotal)

/-- A token taken where an operand is due is readable and is read with the rest. -/
theorem reads_stepOperand (hb : IsBody body bs) (ho : Encloses groups os) (hs : WaitsSum sum ss)
    (hp : WaitsProduct product ps) (h : stepOperand body groups sum product t = .ok state) :
    IsReadable t ∧ Reads state (bs ++ (os ++ (ss ++ (ps ++ [t])))) := by
  unfold stepOperand at h
  split at h
  · next hk =>
    split at h
    · next x hx =>
      have hnumber : numberOf t = x := by rw [numberOf, hx]; rfl
      refine ⟨(isReadable_iff t).mpr fun _ => hnumber ▸ hx, reads_supply hb ho hs hp ?_ h⟩
      exact ⟨hnumber ▸ .number hk, rfl, one_le_nestingLimit⟩
    · cases h
  · next hk =>
    refine ⟨isReadable_of_ne (by simp [hk]), reads_supply hb ho hs hp ⟨.ident hk, rfl, ?_⟩ h⟩
    exact one_le_nestingLimit
  · next hk =>
    split at h
    · next hlt =>
      cases h
      refine ⟨isReadable_of_ne (by simp [hk]), ?_⟩
      have hopen : Encloses (⟨t.span, sum, product⟩ :: groups) (os ++ (ss ++ (ps ++ [t]))) :=
        .cons ho hlt hs hp hk rfl
      have := Reads.operand hb hopen .none .none
      simpa using this
    · cases h
  · cases h

/-- A token taken between statements is readable and starts a statement. -/
theorem reads_stepBetween (hb : IsBody body bs) (hend : t.kind ≠ .endOfInput)
    (h : stepBetween body t = .ok state) : IsReadable t ∧ Reads state (bs ++ [t]) := by
  unfold stepBetween at h
  split at h
  · cases h
  · cases h
  · next hk => exact absurd hk hend
  · exact reads_stepOperand hb .nil .none .none h

/-- A token that ends a sum closes the innermost group or starts the next statement. -/
theorem reads_stepAfterSum (hb : IsBody body bs) (ho : Encloses groups os)
    (hv : IsValue .sum v vs) (hend : t.kind ≠ .endOfInput)
    (h : stepAfterSum body groups v t = .ok state) :
    IsReadable t ∧ Reads state (bs ++ (os ++ (vs ++ [t]))) := by
  unfold stepAfterSum at h
  cases ho with
  | nil =>
    have := reads_stepBetween (hb.concat hv) hend h
    simpa using this
  | @cons group groups outer ss ps opening houter _ hs hp hopen _ =>
    simp only at h
    split at h
    · next hk =>
      refine ⟨isReadable_of_ne (by simp [hk]), ?_⟩
      have := reads_supply hb houter hs hp (hv.group hopen hk) h
      simpa using this
    · cases h

/-- Every step keeps the state and the tokens that led to it together. -/
theorem reads_step {state' : State} {ts : List Token} (hr : Reads state ts)
    (hend : t.kind ≠ .endOfInput) (h : step state t = .ok state') :
    IsReadable t ∧ Reads state' (ts ++ [t]) := by
  cases hr with
  | between hb => exact reads_stepBetween hb hend h
  | operand hb ho hs hp =>
    have := reads_stepOperand hb ho hs hp h
    simpa using this
  | @operator body groups sum v bs os ss vs hb ho hs hv =>
    simp only [step, stepOperator] at h
    split at h
    · next op hop =>
      cases h
      obtain ⟨hk, hmem⟩ := multiplicative?_eq_some hop
      refine ⟨isReadable_of_ne (by simp [hk]), ?_⟩
      have hproduct : WaitsProduct (some ⟨v, op, t.span⟩) (vs ++ [t]) :=
        ⟨vs, t, rfl, hv, hmem, hk, rfl⟩
      have := Reads.operand hb ho hs hproduct
      simpa using this
    · cases htotal : complete sum v with
      | error e => rw [htotal] at h; cases h
      | ok total =>
        have hsum := hv.joinSum hs htotal
        simp only [htotal, bind, Except.bind] at h
        split at h
        · next op hop =>
          cases h
          obtain ⟨hk, hmem⟩ := additive?_eq_some hop
          refine ⟨isReadable_of_ne (by simp [hk]), ?_⟩
          have hwaits : WaitsSum (some ⟨total, op, t.span⟩) (ss ++ vs ++ [t]) :=
            ⟨ss ++ vs, t, rfl, hsum, hmem, hk, rfl⟩
          have := Reads.operand hb ho hwaits .none
          simpa using this
        · have := reads_stepAfterSum hb ho hsum hend h
          simpa using this

end Steps

section Depth

variable {ts : List Token}

theorem DerivesBody.balanced {body : List Expr} (h : DerivesBody ts body) :
    opens ts = closes ts := by
  induction h with
  | nil => rfl
  | cons hd _ ih => rw [opens_append, closes_append, hd.balanced, ih]

theorem Waits.balanced {level : Level} {operations : List BinaryOp} {pending : Option Pending}
    (h : Waits level operations pending ts) : opens ts = closes ts := by
  cases pending with
  | none => rw [show ts = [] from h]; rfl
  | some p =>
    obtain ⟨left, t, rfl, hl, -, ht, -⟩ := h
    simp [opens_cons, closes_cons, ht, hl.derives.balanced]

/-- The groups of the parser are the parentheses that are open, and no more than the limit. -/
theorem Encloses.opens_eq {groups : List Group} (h : Encloses groups ts) :
    opens ts = closes ts + groups.length ∧ groups.length ≤ nestingLimit := by
  induction h with
  | nil => exact ⟨rfl, Nat.zero_le _⟩
  | cons _ hlt hs hp hk _ ih =>
    refine ⟨?_, hlt⟩
    simp [opens_cons, closes_cons, hk, hs.balanced, hp.balanced, ih.1]
    omega

/-- The groups that are open in a state, innermost first. -/
def openGroups : State → List Group
  | .between _ => []
  | .operand _ groups _ _ | .operator _ groups _ _ => groups

/-- The open groups of a state are the parentheses opened and not closed by the tokens that led to
it, and no more than the limit. -/
theorem Reads.opens_eq {state : State} (h : Reads state ts) :
    opens ts = closes ts + (openGroups state).length ∧
      (openGroups state).length ≤ nestingLimit := by
  cases h with
  | between hb => exact ⟨hb.derives.balanced, Nat.zero_le _⟩
  | operand hb ho hs hp =>
    obtain ⟨hopen, hle⟩ := ho.opens_eq
    refine ⟨?_, hle⟩
    simp only [openGroups, opens_append, closes_append, hb.derives.balanced, hopen, hs.balanced,
      hp.balanced]
    omega
  | operator hb ho hs hv =>
    obtain ⟨hopen, hle⟩ := ho.opens_eq
    refine ⟨?_, hle⟩
    simp only [openGroups, opens_append, closes_append, hb.derives.balanced, hopen, hs.balanced,
      hv.derives.balanced]
    omega

/-- In every state of the parser no more parentheses are open than the limit. -/
theorem Reads.opens_le {state : State} (h : Reads state ts) :
    opens ts ≤ closes ts + nestingLimit := by
  obtain ⟨hopen, hle⟩ := h.opens_eq
  omega

theorem FitsDepth.concat {t : Token} (h : FitsDepth 0 ts)
    (ht : opens (ts ++ [t]) ≤ closes (ts ++ [t]) + nestingLimit) : FitsDepth 0 (ts ++ [t]) := by
  intro start hs
  rcases List.prefix_concat_iff.mp hs with rfl | hs
  · rwa [Nat.zero_add]
  · exact h start hs

end Depth

/-- Along every run the state reads the tokens taken so far, which are readable and within the
depth limit. -/
theorem Reads.run {state state' : State} {ts us : List Token} (h : Reads state ts)
    (hfits : FitsDepth 0 ts) (hread : ∀ t ∈ ts, IsReadable t)
    (hend : ∀ t ∈ us, t.kind ≠ .endOfInput) (hrun : run state us = .ok state') :
    Reads state' (ts ++ us) ∧ FitsDepth 0 (ts ++ us) ∧ ∀ t ∈ ts ++ us, IsReadable t := by
  induction us generalizing state ts with
  | nil =>
    cases hrun
    rw [List.append_nil]
    exact ⟨h, hfits, hread⟩
  | cons t us ih =>
    rw [run_cons] at hrun
    cases hstep : step state t with
    | error e => rw [hstep] at hrun; cases hrun
    | ok next =>
      rw [hstep] at hrun
      obtain ⟨ht, hnext⟩ := reads_step h (hend t (by simp)) hstep
      have := ih hnext (hfits.concat hnext.opens_le) (by simpa [or_imp, forall_and, ht] using hread)
        (fun u hu => hend u (by simp [hu])) hrun
      simpa using this

/-- Every state reached from the start reads the tokens taken, which are readable and within the
depth limit. -/
theorem reads_of_run {state : State} {ts : List Token} (hend : ∀ t ∈ ts, t.kind ≠ .endOfInput)
    (hrun : Parser.run (.between []) ts = .ok state) :
    Reads state ts ∧ FitsDepth 0 ts ∧ ∀ t ∈ ts, IsReadable t := by
  have hstart : Reads (.between []) [] := .between ⟨.nil, by simp⟩
  exact hstart.run (fun _ hs => by simp [List.prefix_nil.mp hs]) (by simp) hend hrun

/-- The end of input is taken where a statement may end, and there the statements are complete. -/
theorem Reads.isBody_of_end {state state' : State} {ts : List Token} {closing : Token}
    (h : Reads state ts) (hclosing : closing.kind = .endOfInput)
    (hstep : step state closing = .ok state') :
    ∃ body, state' = .between body ∧ IsBody body ts := by
  obtain ⟨body, rfl, rfl⟩ | ⟨body, sum, v, total, rfl, htotal, rfl⟩ :=
    step_end_cases hclosing hstep
  · cases h with
    | between hb => exact ⟨body, rfl, hb⟩
  · cases h with
    | operator hb ho hs hv =>
      cases ho with
      | nil => exact ⟨_, rfl, hb.concat (hv.joinSum hs htotal)⟩

/-- A stream that closes with the end of input is parsed up to its first end of input. -/
theorem parse_eq_run {tokens : List Token}
    (h : tokens.getLast?.map Token.kind = some .endOfInput) :
    ∃ closing rest, closing.kind = .endOfInput ∧ tokens = sentence tokens ++ closing :: rest ∧
      parse tokens = (run (.between []) (sentence tokens ++ [closing])).map (·.program) := by
  obtain ⟨last, hlast, hkind⟩ := Option.map_eq_some_iff.mp h
  have hsome : (terminator? tokens).isSome := by
    rw [terminator?, List.find?_isSome]
    exact ⟨last, List.mem_of_getLast? hlast, by simpa using hkind⟩
  obtain ⟨closing, hclosing⟩ := Option.isSome_iff_exists.mp hsome
  obtain ⟨hend, before, rest, hsplit, hbefore⟩ := List.find?_eq_some_iff_append.mp hclosing
  have hsentence : sentence tokens = before := by
    rw [hsplit, sentence, List.takeWhile_append_of_pos fun t ht => by simpa using hbefore t ht]
    simpa using hend
  refine ⟨closing, rest, by simpa using hend, by rw [hsentence, hsplit], ?_⟩
  simp only [parse, hlast, hkind, hclosing, if_true, Option.toList_some]

theorem kind_ne_of_mem_sentence {tokens : List Token} {t : Token} (ht : t ∈ sentence tokens) :
    t.kind ≠ .endOfInput := by
  simpa using List.mem_takeWhile_imp ht

/-- In front of the only end of input stands the whole sentence. -/
theorem sentence_concat {ts : List Token} (h : ∀ t ∈ ts, t.kind ≠ .endOfInput) (offset : Nat) :
    sentence (ts ++ [.endOfInput offset]) = ts := by
  rw [sentence, List.takeWhile_append_of_pos fun t ht => by simpa using h t ht]
  simp [Token.endOfInput]

theorem kind_getLast?_concat (ts : List Token) (offset : Nat) :
    (ts ++ [Token.endOfInput offset]).getLast?.map Token.kind = some .endOfInput := by
  rw [List.getLast?_concat]
  rfl

/-- An accepted stream closes with the end of input. -/
theorem getLast?_of_parse_eq_ok {tokens : List Token} {p : Program} (h : parse tokens = .ok p) :
    tokens.getLast?.map Token.kind = some .endOfInput := by
  unfold parse at h
  split at h
  · cases h
  · next last hlast =>
    split at h
    · next hk => rw [hlast, Option.map_some, hk]
    · cases h

/-- An accepted stream is derived by the grammar, readable and within the limits. -/
theorem derives_of_parse_eq_ok {tokens : List Token} {p : Program}
    (h : tokens.getLast?.map Token.kind = some .endOfInput) (hp : parse tokens = .ok p) :
    DerivesProgram (sentence tokens) p ∧ (∀ t ∈ sentence tokens, IsReadable t) ∧
      FitsBody (sentence tokens) p.body := by
  obtain ⟨closing, -, hclosing, -, hparse⟩ := parse_eq_run h
  rw [hparse, run_append] at hp
  cases hrun : run (.between []) (sentence tokens) with
  | error e => rw [hrun] at hp; cases hp
  | ok state =>
    rw [hrun, Except.bind, run_singleton] at hp
    cases hstep : step state closing with
    | error e => rw [hstep] at hp; cases hp
    | ok last =>
      rw [hstep] at hp
      cases hp
      obtain ⟨hreads, hfits, hread⟩ := reads_of_run (fun t ht => kind_ne_of_mem_sentence ht) hrun
      obtain ⟨body, rfl, hbody⟩ := hreads.isBody_of_end hclosing hstep
      exact ⟨hbody.derives, hread, hfits, by simpa [State.program] using hbody.height_le⟩

/-- Derived tokens are accepted as the program they derive, or refused for a fault. -/
theorem parse_eq_ok_or_refuses {tokens : List Token} {p : Program}
    (h : tokens.getLast?.map Token.kind = some .endOfInput)
    (hd : DerivesProgram (sentence tokens) p) :
    parse tokens = .ok p ∨
      Refuses 0 (sentence tokens) (p.body.flatMap Expr.operations) (parse tokens) := by
  obtain ⟨closing, -, hclosing, -, hparse⟩ := parse_eq_run h
  rw [hparse]
  rcases DerivesBody.run_eq hd hclosing [] with hrun | ⟨error, hfault, hrun⟩
  · rw [hrun]
    exact .inl (by simp [Except.map, State.program])
  · rw [hrun]
    exact .inr ⟨error, hfault, rfl⟩

/-- Derived and readable tokens are accepted as the program they derive, or exceed a limit. -/
theorem parse_of_derives {tokens : List Token} {p : Program}
    (h : tokens.getLast?.map Token.kind = some .endOfInput)
    (hd : DerivesProgram (sentence tokens) p) (hread : ∀ t ∈ sentence tokens, IsReadable t) :
    parse tokens = .ok p ∨
      ¬ FitsBody (sentence tokens) p.body ∧ ∃ span, parse tokens = .error (tooDeep span) := by
  rcases parse_eq_ok_or_refuses h hd with hp | ⟨error, hfault, hp⟩
  · exact .inl hp
  · obtain ⟨hfits, span, rfl⟩ := hfault.not_fitsBody hread
    exact .inr ⟨hfits, span, hp⟩

/-- The parser accepts exactly the grammar up to its limits: a stream that closes with the end of
input is parsed as a program exactly when the tokens before its first end of input derive that
program, every number among them starts with a digit and spells a finite number, at most 256
parentheses are open at once, and no statement is higher than 256. Tokens derive at most one
program. -/
theorem parse_eq_ok_iff_derives (tokens : List Token)
    (h : tokens.getLast?.map Token.kind = some .endOfInput) (p : Program) :
    let ts := tokens.takeWhile (·.kind ≠ .endOfInput)
    (parse tokens = .ok p ↔
      DerivesProgram ts p ∧ (∀ t ∈ ts, IsReadable t) ∧
        (∀ start, start <+: ts → opens start ≤ closes start + 256) ∧
        ∀ e ∈ p.body, e.height ≤ 256) ∧
      ∀ q r, DerivesProgram ts q → DerivesProgram ts r → q = r := by
  intro ts
  have hlimit : FitsDepth 0 ts ↔ ∀ start, start <+: ts → opens start ≤ closes start + 256 := by
    simp only [FitsDepth, Nat.zero_add, nestingLimit]
  refine ⟨?_, fun q r hq hr => hq.unique hr⟩
  rw [← hlimit]
  constructor
  · intro hp
    exact derives_of_parse_eq_ok h hp
  · rintro ⟨hd, hread, hfits⟩
    rcases parse_of_derives h hd hread with hp | ⟨hexceeds, -⟩
    · exact hp
    · exact absurd hfits hexceeds

/-- A stream with a number in scientific notation, a group, and more tokens behind its first end of
input: it closes with the end of input, is accepted, and so derives one statement. -/
theorem parse_eq_ok_iff_derives_group :
    let tokens : List Token :=
      [⟨.number, "25e-1", ⟨0, 5⟩⟩, ⟨.operator .star, "*", ⟨5, 6⟩⟩,
        ⟨.punctuation .openParen, "(", ⟨6, 7⟩⟩, ⟨.identifier, "x", ⟨7, 8⟩⟩,
        ⟨.operator .minus, "-", ⟨8, 9⟩⟩, ⟨.number, "1", ⟨9, 10⟩⟩,
        ⟨.punctuation .closeParen, ")", ⟨10, 11⟩⟩, .endOfInput 11,
        ⟨.keyword .binding, "let", ⟨3, 1⟩⟩, .endOfInput 0]
    let p : Program :=
      ⟨[.binary .mul (.number (.ofBits 0x4004000000000000))
        (.binary .sub (.ident "x") (.number (.ofBits 0x3ff0000000000000)))]⟩
    tokens.getLast?.map Token.kind = some .endOfInput ∧ parse tokens = .ok p ∧
      DerivesProgram (tokens.takeWhile (·.kind ≠ .endOfInput)) p := by
  intro tokens p
  have hlast : tokens.getLast?.map Token.kind = some .endOfInput := rfl
  have hparse : parse tokens = .ok p := by decide +kernel
  exact ⟨hlast, hparse, ((parse_eq_ok_iff_derives tokens hlast p).1.mp hparse).1⟩

end Abacus.Grammar
