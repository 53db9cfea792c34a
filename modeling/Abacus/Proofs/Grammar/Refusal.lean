import Abacus.Proofs.Grammar.Acceptance

/-!
# Where the parser refuses

Tokens that the grammar derives and that spell finite numbers are refused for their nesting only, at
the parenthesis or the operator that exceeds the limit. All other tokens are refused at the earliest
place: what the parser has taken is a derivation cut off, which some tokens always finish, and with
the refused token no tokens do, since derived tokens never lead to an error of the grammar.
-/

namespace Abacus.Grammar

open Abacus.Parser

section Nesting

/-- The limit is exact: derived and readable tokens are accepted as the program they derive when at
most 256 parentheses are open at once and no statement is higher than 256. Otherwise the error is
that of the nesting, at a parenthesis opened while 256 are open, or at the operator of an operation
of height 257 whose operands are within the limit. -/
theorem parse_nesting_exact (tokens : List Token)
    (h : tokens.getLast?.map Token.kind = some .endOfInput) (p : Program)
    (hd : DerivesProgram (tokens.takeWhile (·.kind ≠ .endOfInput)) p)
    (hread : ∀ t ∈ tokens.takeWhile (·.kind ≠ .endOfInput), IsReadable t) :
    let ts := tokens.takeWhile (·.kind ≠ .endOfInput)
    let fits := (∀ start, start <+: ts → opens start ≤ closes start + 256) ∧
      ∀ e ∈ p.body, e.height ≤ 256
    (fits → parse tokens = .ok p) ∧
      (¬ fits → ∃ span, parse tokens = .error ⟨.nestingTooDeep 256, span⟩ ∧
        ((∃ before t after, ts = before ++ t :: after ∧ t.kind = .punctuation .openParen ∧
            opens before = closes before + 256 ∧ t.span = span) ∨
          ∃ t op l r,
            (t, Expr.binary op l r) ∈ (operators ts).zip (p.body.flatMap Expr.operations) ∧
            t.kind = .operator op.operator ∧ (Expr.binary op l r).height = 257 ∧
            l.height ≤ 256 ∧ r.height ≤ 256 ∧ t.span = span)) := by
  intro ts fits
  have hfits : FitsBody ts p.body ↔ fits := by
    simp only [FitsBody, FitsDepth, Nat.zero_add, nestingLimit, fits]
  rcases parse_eq_ok_or_refuses h hd with hp | ⟨error, hfault, hp⟩
  · refine ⟨fun _ => hp, fun hexceeds => ?_⟩
    exact absurd (hfits.mp (derives_of_parse_eq_ok h hp).2.2) hexceeds
  · refine ⟨fun hwithin => ?_, fun _ => ?_⟩
    · exact absurd (hfits.mpr hwithin) (hfault.not_fitsBody hread).1
    · cases hfault with
      | number ht hr => exact absurd (hread _ ht) hr
      | @depth before after t hts hk hcount =>
        refine ⟨t.span, hp, .inl ⟨before, t, after, hts, hk, ?_, rfl⟩⟩
        rwa [Nat.zero_add] at hcount
      | @height t op l r ht hk hl hr hhigh =>
        refine ⟨t.span, hp, .inr ⟨t, op, l, r, ht, hk, ?_, hl, hr, rfl⟩⟩
        simp only [nestingLimit, Expr.height] at hl hr hhigh ⊢
        omega

/-- A name in groups: within 256 groups it is parsed, and within 257 it derives the same program and
is refused for its nesting. -/
theorem parse_nesting_exact_groups :
    let opening : Token := ⟨.punctuation .openParen, "(", ⟨0, 1⟩⟩
    let closing : Token := ⟨.punctuation .closeParen, ")", ⟨2, 3⟩⟩
    let nested (n : Nat) : List Token :=
      List.replicate n opening ++ ⟨.identifier, "x", ⟨1, 2⟩⟩ :: List.replicate n closing
    let p : Program := ⟨[.ident "x"]⟩
    (DerivesProgram (nested 256) p ∧ parse (nested 256 ++ [.endOfInput 3]) = .ok p) ∧
      DerivesProgram (nested 257) p ∧
        ∃ span, parse (nested 257 ++ [.endOfInput 3]) = .error ⟨.nestingTooDeep 256, span⟩ := by
  intro opening closing nested p
  have hderives (n : Nat) : Derives .operand (nested n) (.ident "x") := by
    induction n with
    | zero => exact .ident rfl
    | succ n ih =>
      have hgroup : Derives .operand (opening :: (nested n ++ [closing])) (.ident "x") :=
        .group rfl rfl (.ofProduct (.ofOperand ih))
      simpa [nested, List.replicate_succ, ← List.replicate_succ'] using hgroup
  have hprogram (n : Nat) : DerivesProgram (nested n) p := by
    have hbody := DerivesBody.cons (.ofProduct (.ofOperand (hderives n))) .nil
    rwa [List.append_nil] at hbody
  have hkind (n : Nat) : ∀ t ∈ nested n, t.kind ≠ .endOfInput ∧ t.kind ≠ .number := by
    simp +contextual [nested, opening, closing, or_imp, forall_and]
  have hsentence (n : Nat) :
      (nested n ++ [Token.endOfInput 3]).takeWhile (·.kind ≠ .endOfInput) = nested n :=
    sentence_concat (fun t ht => (hkind n t ht).1) 3
  have hexact (n : Nat) := parse_nesting_exact (nested n ++ [.endOfInput 3])
    (by rw [List.getLast?_concat]; rfl) p (by rw [hsentence]; exact hprogram n)
    (by rw [hsentence]; exact fun t ht hk => absurd hk (hkind n t ht).2)
  simp only [hsentence] at hexact
  refine ⟨⟨hprogram 256, (hexact 256).1 ⟨fun start hs => ?_, by decide⟩⟩, hprogram 257, ?_⟩
  · have hle : opens start ≤ opens (nested 256) := hs.sublist.countP_le
    have hopens : opens (nested 256) = 256 := by decide +kernel
    omega
  · obtain ⟨span, hparse, -⟩ := (hexact 257).2 fun hfits => by
      have hfull := hfits.1 (List.replicate 257 opening) (List.prefix_append _ _)
      exact absurd hfull (by decide +kernel)
    exact ⟨span, hparse⟩

end Nesting

/-- The tokens of a program with the end of input behind them. -/
def IsSentence (tokens : List Token) : Prop :=
  ∃ ts closing p, tokens = ts ++ [closing] ∧ closing.kind = .endOfInput ∧ DerivesProgram ts p

/-- Some tokens, perhaps none, make a sentence of these. -/
def IsViable (start : List Token) : Prop := ∃ more, IsSentence (start ++ more)

section Viability

variable {body : List Expr} {groups : List Group} {sum product : Option Pending}
  {bs os ss ps ts us : List Token} {e : Expr}

theorem IsViable.of_append (h : IsViable (ts ++ us)) : IsViable ts := by
  obtain ⟨more, hmore⟩ := h
  exact ⟨us ++ more, by rwa [← List.append_assoc]⟩

/-- Whatever waits for a right side is finished by one. -/
theorem Waits.exists_derives {outer inner : Level} {operations : List BinaryOp}
    {pending : Option Pending} (h : Waits outer operations pending us)
    (hlift : ∀ {ts e}, Derives inner ts e → Derives outer ts e)
    (hjoin : ∀ {left right t op l r}, op ∈ operations → t.kind = .operator op.operator →
      Derives outer left l → Derives inner right r →
      Derives outer (left ++ t :: right) (.binary op l r))
    (hd : Derives inner ts e) : ∃ d, Derives outer (us ++ ts) d := by
  cases pending with
  | none =>
    obtain rfl : us = [] := h
    exact ⟨e, hlift hd⟩
  | some p =>
    obtain ⟨left, t, rfl, hl, hop, ht, -⟩ := h
    rw [List.append_assoc]
    exact ⟨_, hjoin hop ht hl.derives hd⟩

/-- An operand finishes the product and the sum that wait for it. -/
theorem exists_derives_sum (hs : WaitsSum sum ss) (hp : WaitsProduct product ps)
    (hd : Derives .operand ts e) : ∃ d, Derives .sum (ss ++ (ps ++ ts)) d := by
  obtain ⟨d, hproduct⟩ := hp.exists_derives .ofOperand .multiply hd
  exact hs.exists_derives .ofProduct .add hproduct

/-- Open groups around a sum are closed one after the other. -/
theorem Encloses.exists_derives (h : Encloses groups os) (hd : Derives .sum ts e) :
    ∃ more d, Derives .sum (os ++ (ts ++ more)) d := by
  induction h generalizing ts e with
  | nil => exact ⟨[], e, by rwa [List.append_nil]⟩
  | @cons group groups outer ss ps opening _ _ hs hp hopen _ ih =>
    let closing : Token := ⟨.punctuation .closeParen, ")", .origin⟩
    have hgroup : Derives .operand (opening :: (ts ++ [closing])) e := .group hopen rfl hd
    obtain ⟨d, hsum⟩ := exists_derives_sum hs hp hgroup
    obtain ⟨more, d', hall⟩ := ih hsum
    exact ⟨closing :: more, d', by simpa using hall⟩

/-- A sum inside open groups behind complete statements is the start of a sentence. -/
theorem isViable_of_sum (hb : IsBody body bs) (ho : Encloses groups os)
    (hd : Derives .sum ts e) : IsViable (bs ++ (os ++ ts)) := by
  obtain ⟨more, d, hall⟩ := ho.exists_derives hd
  refine ⟨more ++ [.endOfInput 0], bs ++ (os ++ (ts ++ more)), .endOfInput 0,
    ⟨body.reverse ++ [d]⟩, by simp, rfl, ?_⟩
  exact hb.derives.concat hall

/-- Where an operand is due, any operand goes on with the sentence. -/
theorem isViable_of_operand (hb : IsBody body bs) (ho : Encloses groups os) (hs : WaitsSum sum ss)
    (hp : WaitsProduct product ps) (hd : Derives .operand ts e) :
    IsViable (bs ++ (os ++ (ss ++ ps)) ++ ts) := by
  obtain ⟨d, hsum⟩ := exists_derives_sum hs hp hd
  have := isViable_of_sum hb ho hsum
  rwa [List.append_assoc, List.append_assoc, List.append_assoc]

/-- What the parser has taken is the start of a sentence. -/
theorem Reads.isViable {state : State} (h : Reads state ts) : IsViable ts := by
  cases h with
  | @between body _ hb =>
    exact ⟨[.endOfInput 0], ts, .endOfInput 0, ⟨body.reverse⟩, rfl, rfl, hb.derives⟩
  | operand hb ho hs hp =>
    have hname : Derives .operand [⟨.identifier, "x", .origin⟩] (.ident "x") := .ident rfl
    exact (isViable_of_operand hb ho hs hp hname).of_append
  | operator hb ho hs hv =>
    obtain ⟨d, hsum⟩ := hs.exists_derives .ofProduct .add hv.derives
    exact isViable_of_sum hb ho hsum

end Viability

/-- The errors that say that the grammar has no such token there. -/
inductive Blames (t : Token) : Error → Prop
  | unexpectedToken : Blames t ⟨.unexpectedToken t.kind t.text, t.span⟩
  | unclosedParenthesis (openedAt : Span) :
    Blames t ⟨.unclosedParenthesis t.kind openedAt, t.span⟩
  | invalidStatement : Blames t ⟨.invalidStatement t.kind, t.span⟩

/-- The errors with which a token may be refused behind others. -/
inductive Refusal (ts : List Token) (t : Token) : Error → Prop
  | nesting (span : Span) : Refusal ts t (tooDeep span)
  | number : ¬ IsReadable t → IsViable (ts ++ [t]) →
    Refusal ts t ⟨.invalidNumber t.text, t.span⟩
  | grammar {error : Error} : Blames t error → Refusal ts t error

section Steps

variable {body : List Expr} {groups : List Group} {sum product : Option Pending} {state : State}
  {bs os ss ps vs ts : List Token} {v : Value} {t : Token} {error : Error}

/-- A waiting operation is refused for its height only. -/
theorem exists_tooDeep_of_complete {pending : Option Pending}
    (h : complete pending v = .error error) : ∃ span, error = tooDeep span := by
  cases pending with
  | none => cases h
  | some p =>
    simp only [complete] at h
    split at h
    · cases h
      exact ⟨p.span, rfl⟩
    · cases h

/-- An operand is refused by what waits for it for the height only. -/
theorem exists_tooDeep_of_supply (h : supply body groups sum product v = .error error) :
    ∃ span, error = tooDeep span := by
  unfold supply at h
  cases htotal : complete product v with
  | ok total => rw [htotal] at h; cases h
  | error e =>
    rw [htotal] at h
    cases h
    exact exists_tooDeep_of_complete htotal

theorem refusal_supply (h : supply body groups sum product v = .error error) :
    Refusal ts t error := by
  obtain ⟨span, rfl⟩ := exists_tooDeep_of_supply h
  exact .nesting span

theorem refusal_stepOperand (hb : IsBody body bs) (ho : Encloses groups os)
    (hs : WaitsSum sum ss) (hp : WaitsProduct product ps)
    (h : stepOperand body groups sum product t = .error error) :
    Refusal (bs ++ (os ++ (ss ++ ps))) t error := by
  unfold stepOperand at h
  split at h
  · next hk =>
    split at h
    · exact refusal_supply h
    · next hnone =>
      cases h
      exact .number ((not_isReadable_iff t).mpr ⟨hk, hnone⟩)
        (isViable_of_operand hb ho hs hp (.number hk))
  · exact refusal_supply h
  · split at h
    · cases h
    · cases h
      exact .nesting t.span
  · cases h
    exact .grammar .unexpectedToken

theorem refusal_stepBetween (hb : IsBody body bs) (h : stepBetween body t = .error error) :
    Refusal bs t error := by
  unfold stepBetween at h
  split at h
  · cases h
    exact .grammar .invalidStatement
  · cases h
    exact .grammar .invalidStatement
  · cases h
  · have := refusal_stepOperand hb .nil .none .none h
    simpa using this

theorem refusal_stepAfterSum (hb : IsBody body bs) (ho : Encloses groups os)
    (hv : IsValue .sum v vs) (h : stepAfterSum body groups v t = .error error) :
    Refusal (bs ++ (os ++ vs)) t error := by
  unfold stepAfterSum at h
  cases ho with
  | nil => exact refusal_stepBetween (hb.concat hv) h
  | cons _ _ _ _ _ _ =>
    simp only at h
    split at h
    · exact refusal_supply h
    · cases h
      exact .grammar (.unclosedParenthesis _)

/-- A token that is refused behind tokens already taken is refused in one of three ways. -/
theorem refusal_step (hr : Reads state ts) (h : step state t = .error error) :
    Refusal ts t error := by
  cases hr with
  | between hb => exact refusal_stepBetween hb h
  | operand hb ho hs hp => exact refusal_stepOperand hb ho hs hp h
  | @operator body groups sum v bs os ss vs hb ho hs hv =>
    simp only [step, stepOperator] at h
    split at h
    · cases h
    · cases htotal : complete sum v with
      | error e =>
        rw [htotal] at h
        cases h
        obtain ⟨span, rfl⟩ := exists_tooDeep_of_complete htotal
        exact .nesting span
      | ok total =>
        simp only [htotal, bind, Except.bind] at h
        split at h
        · cases h
        · exact refusal_stepAfterSum hb ho (hv.joinSum hs htotal) h

end Steps

/-- A run that fails takes the tokens before one token and fails on that one. -/
theorem exists_step_of_run_eq_error {state : State} {ts : List Token} {error : Error}
    (h : run state ts = .error error) :
    ∃ before t after reached, ts = before ++ t :: after ∧ run state before = .ok reached ∧
      step reached t = .error error := by
  induction ts generalizing state with
  | nil => cases h
  | cons t ts ih =>
    rw [run_cons] at h
    cases hstep : step state t with
    | error e =>
      rw [hstep] at h
      cases h
      exact ⟨[], t, ts, state, rfl, rfl, hstep⟩
    | ok next =>
      rw [hstep] at h
      obtain ⟨before, u, after, reached, rfl, hrun, hlast⟩ := ih h
      refine ⟨t :: before, u, after, reached, rfl, ?_, hlast⟩
      rw [run_cons, hstep]
      exact hrun

/-- No fault of derived tokens blames a token. -/
theorem Fault.not_blames {already : Nat} {ts : List Token} {operations : List Expr} {t : Token}
    {error : Error} (h : Fault already ts operations error) : ¬ Blames t error := by
  intro hblames
  cases h <;> cases hblames

/-- A token that is blamed cannot stand in a sentence behind the tokens before it. -/
theorem not_isViable_of_blames {before : List Token} {t : Token} {reached : State} {error : Error}
    (hrun : run (.between []) before = .ok reached) (hstep : step reached t = .error error)
    (hblames : Blames t error) : ¬ IsViable (before ++ [t]) := by
  rintro ⟨more, ts, closing, p, hsentence, hclosing, hd⟩
  have hfails : run (.between []) (ts ++ [closing]) = .error error := by
    rw [← hsentence, List.append_assoc, run_append, hrun, Except.bind, List.singleton_append,
      run_cons, hstep]
    rfl
  rcases DerivesBody.run_eq hd hclosing [] with hok | ⟨error', hfault, herror⟩
  · rw [hfails] at hok
    cases hok
  · rw [hfails] at herror
    cases herror
    exact hfault.not_blames hblames

/-- A refused stream is refused at a token no later than its first end of input, in a state that
reads the tokens before it. -/
theorem exists_step_of_parse_eq_error {tokens : List Token} {error : Error}
    (h : tokens.getLast?.map Token.kind = some .endOfInput) (herror : parse tokens = .error error) :
    ∃ before t after reached, tokens = before ++ t :: after ∧ before <+: sentence tokens ∧
      run (.between []) before = .ok reached ∧ Reads reached before ∧
      step reached t = .error error := by
  obtain ⟨closing, rest, -, hsplit, hparse⟩ := parse_eq_run h
  rw [hparse] at herror
  cases hrun : run (.between []) (sentence tokens ++ [closing]) with
  | ok state => rw [hrun] at herror; cases herror
  | error e =>
    rw [hrun] at herror
    cases herror
    obtain ⟨before, t, after, reached, htaken, hbefore, hstep⟩ := exists_step_of_run_eq_error hrun
    have hstart : before <+: sentence tokens := by
      rcases List.prefix_concat_iff.mp ⟨t :: after, htaken.symm⟩ with rfl | hstart
      · simp at htaken
      · exact hstart
    have hend : ∀ u ∈ before, u.kind ≠ .endOfInput :=
      fun u hu => kind_ne_of_mem_sentence (hstart.subset hu)
    refine ⟨before, t, after ++ rest, reached, ?_, hstart, hbefore, (reads_of_run hend hbefore).1,
      hstep⟩
    calc tokens = sentence tokens ++ [closing] ++ rest := by rw [List.append_assoc]; exact hsplit
      _ = before ++ t :: (after ++ rest) := by rw [htaken, List.append_assoc]; rfl

/-- Errors are reported at the earliest token. A stream that closes with the end of input and is
refused for anything but its nesting is refused at a token no later than the first end of input. The
tokens before it are the start of a sentence. Either they are no start of a sentence together with
the token, which the error reports, or they are, and the token is a number whose text starts with no
digit or spells no finite number. -/
theorem parse_error_viable (tokens : List Token)
    (h : tokens.getLast?.map Token.kind = some .endOfInput) (error : Error)
    (herror : parse tokens = .error error) :
    (∃ span, error = ⟨.nestingTooDeep 256, span⟩) ∨
      ∃ k t, k ≤ (tokens.takeWhile (·.kind ≠ .endOfInput)).length ∧ tokens[k]? = some t ∧
        ((Blames t error ∧ IsViable (tokens.take k) ∧ ¬ IsViable (tokens.take (k + 1))) ∨
          (error = ⟨.invalidNumber t.text, t.span⟩ ∧ ¬ IsReadable t ∧
            IsViable (tokens.take (k + 1)))) := by
  obtain ⟨before, t, after, reached, htokens, hstart, hrun, hreads, hstep⟩ :=
    exists_step_of_parse_eq_error h herror
  have hget : tokens[before.length]? = some t := by simp [htokens]
  have htake : tokens.take before.length = before := by rw [htokens, List.take_left]
  have htake' : tokens.take (before.length + 1) = before ++ [t] := by
    rw [htokens, ← List.singleton_append, ← List.append_assoc]
    exact List.take_left' (by simp)
  cases refusal_step hreads hstep with
  | nesting span => exact .inl ⟨span, rfl⟩
  | number hr hviable =>
    exact .inr ⟨before.length, t, hstart.length_le, hget, .inr ⟨rfl, hr, by rwa [htake']⟩⟩
  | grammar hblames =>
    refine .inr ⟨before.length, t, hstart.length_le, hget, .inl ⟨hblames, ?_, ?_⟩⟩
    · rw [htake]
      exact hreads.isViable
    · rw [htake']
      exact not_isViable_of_blames hrun hstep hblames

/-- Two numbers in one group: the stream closes with the end of input and is refused at the second
number, before which it is the start of a sentence and with which it is not. -/
theorem parse_error_viable_unclosed :
    let tokens : List Token :=
      [⟨.punctuation .openParen, "(", ⟨0, 1⟩⟩, ⟨.number, "1", ⟨1, 2⟩⟩, ⟨.number, "2", ⟨3, 4⟩⟩,
        ⟨.punctuation .closeParen, ")", ⟨4, 5⟩⟩, .endOfInput 5]
    let error : Error := ⟨.unclosedParenthesis .number ⟨0, 1⟩, ⟨3, 4⟩⟩
    tokens.getLast?.map Token.kind = some .endOfInput ∧ parse tokens = .error error ∧
      ∃ k t, k ≤ 4 ∧ tokens[k]? = some t ∧ Blames t error ∧ IsViable (tokens.take k) ∧
        ¬ IsViable (tokens.take (k + 1)) := by
  intro tokens error
  have hlast : tokens.getLast?.map Token.kind = some .endOfInput := rfl
  have hparse : parse tokens = .error error := by decide +kernel
  refine ⟨hlast, hparse, ?_⟩
  rcases parse_error_viable tokens hlast error hparse with
    ⟨span, hspan⟩ | ⟨k, t, hk, ht, ⟨hblames, hviable⟩ | ⟨hnumber, -⟩⟩
  · exact absurd (congrArg Error.cause hspan) (by simp [error])
  · exact ⟨k, t, hk, ht, hblames, hviable⟩
  · exact absurd (congrArg Error.cause hnumber) (by simp [error])

end Abacus.Grammar
