import Abacus.Proofs.Grammar.Descent
import Mathlib.Logic.Function.Iterate

/-!
# A descent follows the parser

What a descent has on its stack and does next corresponds to a state of the parser: the groups that
wait are the open groups, each with the sum and the product around it. One operation after the other
leads to the result that the parser comes to from there, although the parser completes a sum only
when it sees the token behind it.

Along the way the position never passes the first end of input, the count is the number of groups
that wait, and every value carries its height. So a descent is never stuck and comes to an end,
where it has the result of the parser.
-/

namespace Abacus.Descent

open Abacus.Parser Grammar

section Invariant

/-- Whether a frame is that of an operand in parentheses. -/
def Frame.isGroup : Frame → Bool
  | .group _ => true
  | _ => false

/-- A value that carries its height, within the limit. -/
structure IsMeasured (v : Value) : Prop where
  height_eq : v.height = v.expr.height
  height_le : v.height ≤ nestingLimit

/-- The part of an operation that is there carries its height. -/
def Frame.IsMeasured : Frame → Prop
  | .additive left | .multiplicative left => ∀ p ∈ left, Descent.IsMeasured p.left
  | _ => True

/-- The value at hand carries its height. -/
def Control.IsMeasured : Control → Prop
  | .additive v | .multiplicative v | .close _ v | .ret v => Descent.IsMeasured v
  | _ => True

/-- What waits for an expression: a statement, or a group with the product and the sum around it. -/
inductive Nests : List Frame → List Group → Prop
  | statement : Nests [.statement, .program] []
  | group {frames : List Frame} {groups : List Group} (group : Group) : Nests frames groups →
    Nests (.group group.openedAt :: .multiplicative group.product :: .additive group.sum ::
      .expression :: frames) (group :: groups)

/-- What a descent does next with the frames that wait and the tokens in sight, so that the parser
would come to a result from there. -/
inductive Leads (result : Except Error State) (body : List Expr) (t : Token) (rest : List Token) :
    Control → List Frame → Prop
  | program : run (.between body) (t :: rest) = result → Leads result body t rest .program []
  | statement : t.kind ≠ .endOfInput → run (.between body) (t :: rest) = result →
    Leads result body t rest (.call .statement) [.program]
  | expression {frames : List Frame} {groups : List Group} : Nests frames groups →
    run (.operand body groups none none) (t :: rest) = result →
    Leads result body t rest (.call .expression) frames
  | additive {frames : List Frame} {groups : List Group} : Nests frames groups →
    run (.operand body groups none none) (t :: rest) = result →
    Leads result body t rest (.call .additive) (.expression :: frames)
  | multiplicative {frames : List Frame} {groups : List Group} {sum : Option Pending} :
    Nests frames groups → run (.operand body groups sum none) (t :: rest) = result →
    Leads result body t rest (.call .multiplicative) (.additive sum :: .expression :: frames)
  | primary {frames : List Frame} {groups : List Group} {sum product : Option Pending} :
    Nests frames groups → run (.operand body groups sum product) (t :: rest) = result →
    Leads result body t rest (.call .primary)
      (.multiplicative product :: .additive sum :: .expression :: frames)
  | operand {frames : List Frame} {groups : List Group} {sum product : Option Pending}
    {v : Value} : Nests frames groups →
    (supply body groups sum product v).bind (run · (t :: rest)) = result →
    Leads result body t rest (.ret v)
      (.multiplicative product :: .additive sum :: .expression :: frames)
  | close {frames : List Frame} {groups : List Group} {group : Group} {v : Value} :
    Nests frames groups → (stepAfterSum body (group :: groups) v t).bind (run · rest) = result →
    Leads result body t rest (.close group.openedAt v)
      (.multiplicative group.product :: .additive group.sum :: .expression :: frames)
  | product {frames : List Frame} {groups : List Group} {sum : Option Pending} {v : Value} :
    Nests frames groups → run (.operator body groups sum v) (t :: rest) = result →
    Leads result body t rest (.multiplicative v) (.additive sum :: .expression :: frames)
  | productEnd {frames : List Frame} {groups : List Group} {sum : Option Pending} {v : Value} :
    Nests frames groups → t.kind.multiplicative? = none →
    run (.operator body groups sum v) (t :: rest) = result →
    Leads result body t rest (.ret v) (.additive sum :: .expression :: frames)
  | sum {frames : List Frame} {groups : List Group} {v : Value} : Nests frames groups →
    t.kind.multiplicative? = none → run (.operator body groups none v) (t :: rest) = result →
    Leads result body t rest (.additive v) (.expression :: frames)
  | sumEnd {frames : List Frame} {groups : List Group} {v : Value} : Nests frames groups →
    (stepAfterSum body groups v t).bind (run · rest) = result →
    Leads result body t rest (.ret v) (.expression :: frames)
  | expressionEnd {frames : List Frame} {groups : List Group} {v : Value} : Nests frames groups →
    (stepAfterSum body groups v t).bind (run · rest) = result →
    Leads result body t rest (.ret v) frames
  | statementEnd {v : Value} : run (.between (v.expr :: body)) (t :: rest) = result →
    Leads result body t rest (.ret v) [.program]
  | fail {frames : List Frame} {e : Error} : .error e = result →
    frames.getLast? = some .program → Leads result body t rest (.fail e) frames
  | done {frames : List Frame} :
    Leads result body t rest (.done (result.map (·.program))) frames

/-- A stream whose only end of input closes it. -/
def IsClosed (stream : List Token) : Prop :=
  ∃ ts closing, stream = ts ++ [closing] ∧ closing.kind = .endOfInput ∧
    ∀ t ∈ ts, t.kind ≠ .endOfInput

/-- A descent that stands at a token, with the tokens to come, and has counted its groups. -/
structure Stands (stream : List Token) (c : Descent) (t : Token) (rest : List Token) : Prop where
  split : ∃ taken, stream = taken ++ t :: rest ∧ c.pos = taken.length
  depth_eq : c.depth = c.stack.countP Frame.isGroup
  depth_le : c.depth ≤ nestingLimit
  frames : ∀ frame ∈ c.stack, frame.IsMeasured

/-- A descent that comes to the result of the parser. -/
structure Sound (stream : List Token) (c : Descent) (t : Token) (rest : List Token) : Prop
    extends Stands stream c t rest where
  measured : c.control.IsMeasured
  leads : Leads (run (.between []) stream) c.body t rest c.control c.stack

/-- The end of input is the last token that comes in sight. -/
theorem IsClosed.kind_eq_iff {stream taken rest : List Token} {t : Token} (h : IsClosed stream)
    (hsplit : stream = taken ++ t :: rest) : t.kind = .endOfInput ↔ rest = [] := by
  obtain ⟨ts, closing, rfl, hclosing, hts⟩ := h
  rcases append_cons_cases hsplit with ⟨mid, rfl, rfl⟩ | ⟨rfl, rfl, rfl⟩ | ⟨_, -, hnil⟩
  · simpa using hts t (by simp)
  · simpa using hclosing
  · simp at hnil

theorem Nests.countP_eq {frames : List Frame} {groups : List Group} (h : Nests frames groups) :
    frames.countP Frame.isGroup = groups.length := by
  induction h with
  | statement => rfl
  | group _ _ ih => simp [List.countP_cons, Frame.isGroup, ih]

theorem Nests.getLast?_eq {frames : List Frame} {groups : List Group} (h : Nests frames groups) :
    frames.getLast? = some .program := by
  induction h with
  | statement => rfl
  | @group frames groups _ h ih =>
    cases frames with
    | nil => cases h
    | cons frame frames => simpa using ih

/-- An operation that is completed carries its height. -/
theorem IsMeasured.complete {left : Option Pending} {v total : Value}
    (hleft : ∀ p ∈ left, IsMeasured p.left) (hv : IsMeasured v)
    (h : complete left v = .ok total) : IsMeasured total := by
  cases left with
  | none =>
    cases h
    exact hv
  | some p =>
    have hp := hleft p rfl
    simp only [Parser.complete] at h
    split at h
    · cases h
    · next hle =>
      cases h
      exact ⟨by simp only [Expr.height, hp.height_eq, hv.height_eq], Nat.not_lt.mp hle⟩

theorem isMeasured_leaf {e : Expr} (h : e.height = 1) : IsMeasured ⟨e, 1⟩ :=
  ⟨h.symm, one_le_nestingLimit⟩

end Invariant

section Preservation

variable {stream : List Token} {c : Descent} {t : Token} {rest : List Token} {frame : Frame}
  {frames : List Frame} {groups : List Group} {control : Control} {rule : Rule} {v : Value}

namespace Stands

theorem goto (h : Stands stream c t rest) : Stands stream (c.goto control) t rest :=
  ⟨h.split, h.depth_eq, h.depth_le, h.frames⟩

/-- A frame that is no group is put on the stack. -/
theorem call (h : Stands stream c t rest) (hframe : frame.IsMeasured)
    (hgroup : frame.isGroup = false) : Stands stream (c.call rule frame) t rest where
  split := h.split
  depth_eq := by simp [Descent.call, hgroup, h.depth_eq]
  depth_le := h.depth_le
  frames := List.forall_mem_cons.mpr ⟨hframe, h.frames⟩

/-- A frame that is no group is left. -/
theorem pop (h : Stands stream c t rest) (hstack : c.stack = frame :: frames)
    (hgroup : frame.isGroup = false) : Stands stream { c with stack := frames } t rest where
  split := h.split
  depth_eq := by simp [h.depth_eq, hstack, hgroup]
  depth_le := h.depth_le
  frames f hf := h.frames f (hstack ▸ List.mem_cons_of_mem frame hf)

/-- A group is put on the stack and counted, if there is room for it. -/
theorem raise (h : Stands stream c t rest) (hdepth : c.depth < nestingLimit) (openedAt : Span) :
    Stands stream (c.call rule (.group openedAt)).raise t rest where
  split := h.split
  depth_eq := by simp [Descent.raise, Descent.call, List.countP_cons, Frame.isGroup, h.depth_eq]
  depth_le := hdepth
  frames := List.forall_mem_cons.mpr ⟨trivial, h.frames⟩

/-- A group is left, and it was counted. -/
theorem lower (h : Stands stream c t rest) {openedAt : Span}
    (hstack : c.stack = .group openedAt :: frames) (control : Control) :
    ∃ depth, { c with stack := frames }.lower control = { c with stack := frames, depth, control } ∧
      Stands stream { c with stack := frames, depth, control } t rest := by
  have hdepth : c.depth = frames.countP Frame.isGroup + 1 := by
    simp [h.depth_eq, hstack, List.countP_cons, Frame.isGroup]
  refine ⟨frames.countP Frame.isGroup, by simp [Descent.lower, hdepth], h.split, rfl, ?_, ?_⟩
  · have := h.depth_le
    simp only
    omega
  · exact fun f hf => h.frames f (hstack ▸ List.mem_cons_of_mem _ hf)

/-- A token that is not the end of input is taken, and another comes in sight. -/
theorem advance (hclosed : IsClosed stream) (h : Stands stream c t rest)
    (ht : t.kind ≠ .endOfInput) :
    ∃ t' rest', rest = t' :: rest' ∧ Stands stream { c with pos := c.pos + 1 } t' rest' := by
  obtain ⟨taken, hsplit, hpos⟩ := h.split
  obtain ⟨t', rest', rfl⟩ :=
    List.exists_cons_of_ne_nil fun hnil => ht ((hclosed.kind_eq_iff hsplit).mpr hnil)
  exact ⟨t', rest', rfl, ⟨taken ++ [t], by simp [hsplit], by simp [hpos]⟩, h.depth_eq, h.depth_le,
    h.frames⟩

end Stands

/-- A descent comes to the result if what it goes on with does. -/
theorem Stands.sound (h : Stands stream c t rest) (hstack : c.stack = frames)
    (hmeasured : control.IsMeasured)
    (hleads : Leads (run (.between []) stream) c.body t rest control frames) :
    Sound stream (c.goto control) t rest :=
  ⟨h.goto, hmeasured, hstack ▸ hleads⟩

/-- Calling a rule goes on towards the result if the frames with the new one do. -/
theorem Stands.sound_call (h : Stands stream c t rest) (hframe : frame.IsMeasured)
    (hgroup : frame.isGroup = false) (hstack : c.stack = frames)
    (hleads : Leads (run (.between []) stream) c.body t rest (.call rule) (frame :: frames)) :
    Sound stream (c.call rule frame) t rest :=
  ⟨h.call hframe hgroup, trivial, by simpa only [Descent.call, hstack] using hleads⟩

variable {body : List Expr} {sum product : Option Pending}

/-- A product is complete before the parser goes on. -/
theorem supply_bind (answer : State → Except Error State) :
    (supply body groups sum product v).bind answer =
      (complete product v).bind fun total => answer (.operator body groups sum total) := by
  rw [supply]
  cases complete product v <;> rfl

/-- A sum is complete before the parser looks at what follows it. -/
theorem run_operator_bind (ht : t.kind.multiplicative? = none) :
    run (.operator body groups sum v) (t :: rest) =
      (complete sum v).bind fun total => run (.operator body groups none total) (t :: rest) := by
  simp only [run_cons, Parser.step, stepOperator, ht]
  cases complete sum v <;> rfl

/-- An operand is read as the parser reads it. -/
theorem sound_primary (hclosed : IsClosed stream) (hnests : Nests frames groups)
    (h : Stands stream c t rest)
    (hstack : c.stack = .multiplicative product :: .additive sum :: .expression :: frames)
    (hrun : run (.operand c.body groups sum product) (t :: rest) = run (.between []) stream) :
    ∃ t' rest', Sound stream (c.primary t) t' rest' := by
  have hlast : (Frame.multiplicative product :: .additive sum :: .expression :: frames).getLast? =
      some .program := by
    simp [List.getLast?_cons, hnests.getLast?_eq]
  have hdepth : c.depth = groups.length := by
    simp [h.depth_eq, hstack, Frame.isGroup, hnests.countP_eq]
  rw [run_cons, Parser.step, stepOperand] at hrun
  unfold primary
  split
  · next hk =>
    have hne : t.kind ≠ .endOfInput := by simp [hk]
    obtain ⟨t', rest', rfl, hnext⟩ := h.advance hclosed hne
    rw [advance_of_ne hne]
    split
    · next x hx =>
      simp only [hk, hx] at hrun
      exact ⟨t', rest', hnext.sound hstack (isMeasured_leaf rfl) (.operand hnests hrun)⟩
    · next hx =>
      simp only [hk, hx] at hrun
      exact ⟨t', rest', hnext.sound hstack trivial (.fail hrun hlast)⟩
  · next hk =>
    have hne : t.kind ≠ .endOfInput := by simp [hk]
    obtain ⟨t', rest', rfl, hnext⟩ := h.advance hclosed hne
    rw [advance_of_ne hne]
    simp only [hk] at hrun
    exact ⟨t', rest', hnext.sound hstack (isMeasured_leaf rfl) (.operand hnests hrun)⟩
  · next hk =>
    have hne : t.kind ≠ .endOfInput := by simp [hk]
    obtain ⟨t', rest', rfl, hnext⟩ := h.advance hclosed hne
    rw [advance_of_ne hne]
    simp only [hk, ← hdepth] at hrun
    split
    · next hlt =>
      rw [if_pos hlt] at hrun
      refine ⟨t', rest', hnext.raise hlt t.span, trivial, ?_⟩
      simp only [raise, call, hstack]
      exact .expression (.group ⟨_, _, _⟩ hnests) hrun
    · next hge =>
      rw [if_neg hge] at hrun
      exact ⟨t, _, h.sound hstack trivial (.fail hrun hlast)⟩
  · next hnumber hident hopen =>
    refine ⟨t, rest, h.sound hstack trivial (.fail ?_ hlast)⟩
    split at hrun
    · next hk => exact absurd hk hnumber
    · next hk => exact absurd hk hident
    · next hk => exact absurd hk hopen
    · exact hrun

/-- A statement is begun as the parser begins it. -/
theorem sound_statement (h : Stands stream c t rest) (hstack : c.stack = [.program])
    (ht : t.kind ≠ .endOfInput)
    (hrun : run (.between c.body) (t :: rest) = run (.between []) stream) :
    Sound stream (c.statement t) t rest := by
  rw [run_cons, Parser.step, stepBetween] at hrun
  unfold statement
  split
  · next hk =>
    simp only [hk] at hrun
    exact h.sound hstack trivial (.fail (hk ▸ hrun) rfl)
  · next hk =>
    simp only [hk] at hrun
    exact h.sound hstack trivial (.fail (hk ▸ hrun) rfl)
  · next hbinding hequals =>
    refine h.sound_call trivial rfl hstack (.expression .statement ?_)
    split at hrun
    · next hk => exact absurd hk hbinding
    · next hk => exact absurd hk hequals
    · next hk => exact absurd hk ht
    · exact hrun

/-- A further part is joined to a sum or a product, or the limit is exceeded. -/
theorem sound_fold {left : Option Pending} {next : Value → Control}
    {answer : Value → Except Error State} (h : Stands stream c t rest) (hstack : c.stack = frames)
    (hlast : frames.getLast? = some .program)
    (hrun : (complete left v).bind answer = run (.between []) stream)
    (hmeasured : ∀ total, complete left v = .ok total → (next total).IsMeasured)
    (hleads : ∀ total, answer total = run (.between []) stream →
      Leads (run (.between []) stream) c.body t rest (next total) frames) :
    Sound stream (c.fold left v next) t rest := by
  unfold fold
  split
  · next total htotal =>
    rw [htotal] at hrun
    exact h.sound hstack (hmeasured total htotal) (hleads total hrun)
  · next e he =>
    rw [he] at hrun
    exact h.sound hstack trivial (.fail hrun hlast)

/-- A further operand is joined to its product. -/
theorem sound_operand (h : Stands stream c t rest)
    (hstack : c.stack = .multiplicative product :: .additive sum :: .expression :: frames)
    (hnests : Nests frames groups) (hv : IsMeasured v)
    (hrun : (supply c.body groups sum product v).bind (run · (t :: rest)) =
      run (.between []) stream) :
    Sound stream (c.leave fun c => c.resume v) t rest := by
  have hleft := h.frames (.multiplicative product) (by simp [hstack])
  rw [supply_bind] at hrun
  simp only [leave, hstack, resume]
  refine sound_fold (h.pop hstack rfl) rfl ?_ hrun (fun _ htotal => hv.complete hleft htotal)
    fun _ htotal => .product hnests htotal
  simp [List.getLast?_cons, hnests.getLast?_eq]

/-- A further product is joined to its sum. -/
theorem sound_productEnd (h : Stands stream c t rest)
    (hstack : c.stack = .additive sum :: .expression :: frames) (hnests : Nests frames groups)
    (hv : IsMeasured v) (ht : t.kind.multiplicative? = none)
    (hrun : run (.operator c.body groups sum v) (t :: rest) = run (.between []) stream) :
    Sound stream (c.leave fun c => c.resume v) t rest := by
  have hleft := h.frames (.additive sum) (by simp [hstack])
  rw [run_operator_bind ht] at hrun
  simp only [leave, hstack, resume]
  refine sound_fold (h.pop hstack rfl) rfl ?_ hrun (fun _ htotal => hv.complete hleft htotal)
    fun _ htotal => .sum hnests ht htotal
  simp [List.getLast?_cons, hnests.getLast?_eq]

/-- An expression that is complete ends its statement or its group. -/
theorem sound_expressionEnd (h : Stands stream c t rest) (hnests : Nests c.stack groups)
    (hv : IsMeasured v)
    (hrun : (stepAfterSum c.body groups v t).bind (run · rest) = run (.between []) stream) :
    Sound stream (c.leave fun c => c.resume v) t rest := by
  unfold leave
  generalize hstack : c.stack = stack at hnests
  cases hnests with
  | statement => exact (h.pop hstack rfl).sound rfl hv (.statementEnd hrun)
  | group group hnests =>
    obtain ⟨depth, hlower, hstands⟩ := h.lower hstack (.close group.openedAt v)
    simp only [resume]
    rw [hlower]
    exact ⟨hstands, hv, .close hnests hrun⟩

/-- An error leaves the frame that waits. -/
theorem sound_unwind {e : Error} (h : Stands stream c t rest)
    (hresult : .error e = run (.between []) stream) (hlast : c.stack.getLast? = some .program) :
    Sound stream (c.leave fun c => c.unwind e) t rest := by
  unfold leave
  split
  · next hstack =>
    rw [hstack] at hlast
    cases hlast
  · next frame stack hstack =>
    -- A frame that is not the program's stands in front of others.
    have htail (hne : frame ≠ .program) : stack.getLast? = some .program := by
      cases stack with
      | nil =>
        rw [hstack] at hlast
        exact absurd (Option.some.inj hlast) hne
      | cons _ _ => rwa [hstack, List.getLast?_cons_cons] at hlast
    cases frame with
    | program =>
      have hdone : (run (.between []) stream).map (·.program) = .error e := by rw [← hresult]; rfl
      refine (h.pop hstack rfl).sound rfl trivial ?_
      rw [← hdone]
      exact .done
    | group openedAt =>
      obtain ⟨depth, hlower, hstands⟩ := h.lower hstack (.fail e)
      simp only [unwind]
      rw [hlower]
      exact ⟨hstands, trivial, .fail hresult (htail (by simp))⟩
    | statement | expression | additive left | multiplicative left =>
      exact (h.pop hstack rfl).sound rfl trivial (.fail hresult (htail (by simp)))

/-- The program ends at the end of input, and goes on with a statement at any other token. -/
theorem sound_program (hclosed : IsClosed stream) (h : Stands stream c t rest)
    (hstack : c.stack = []) (hcontrol : c.control = .program)
    (hrun : run (.between c.body) (t :: rest) = run (.between []) stream) :
    Sound stream (c.next t) t rest := by
  simp only [next, hcontrol]
  split
  · next hk =>
    obtain ⟨taken, hsplit, -⟩ := h.split
    obtain rfl := (hclosed.kind_eq_iff hsplit).mp hk
    have hdone : (run (.between []) stream).map (·.program) = .ok ⟨c.body.reverse⟩ := by
      rw [← hrun, run_singleton, Parser.step, stepBetween, hk]
      rfl
    refine h.sound hstack trivial ?_
    rw [← hdone]
    exact .done
  · next hk => exact h.sound_call trivial rfl hstack (.statement hk hrun)

/-- A group is closed by its parenthesis. -/
theorem sound_close {group : Group} (hclosed : IsClosed stream) (h : Stands stream c t rest)
    (hstack : c.stack =
      .multiplicative group.product :: .additive group.sum :: .expression :: frames)
    (hnests : Nests frames groups) (hv : IsMeasured v)
    (hcontrol : c.control = .close group.openedAt v)
    (hrun : (stepAfterSum c.body (group :: groups) v t).bind (run · rest) =
      run (.between []) stream) :
    ∃ t' rest', Sound stream (c.next t) t' rest' := by
  simp only [next, hcontrol]
  rw [stepAfterSum] at hrun
  split
  · next hk =>
    have hne : t.kind ≠ .endOfInput := by simp [hk]
    obtain ⟨t', rest', rfl, hnext⟩ := h.advance hclosed hne
    rw [if_pos hk] at hrun
    rw [advance_of_ne hne]
    exact ⟨t', rest', hnext.sound hstack hv (.operand hnests hrun)⟩
  · next hk =>
    rw [if_neg hk] at hrun
    refine ⟨t, rest, h.sound hstack trivial (.fail hrun ?_)⟩
    simp [List.getLast?_cons, hnests.getLast?_eq]

/-- A product goes on at one of its operators and ends at any other token. -/
theorem sound_product (hclosed : IsClosed stream) (h : Stands stream c t rest)
    (hstack : c.stack = .additive sum :: .expression :: frames) (hnests : Nests frames groups)
    (hv : IsMeasured v) (hcontrol : c.control = .multiplicative v)
    (hrun : run (.operator c.body groups sum v) (t :: rest) = run (.between []) stream) :
    ∃ t' rest', Sound stream (c.next t) t' rest' := by
  simp only [next, hcontrol]
  split
  · next op hop =>
    have hne : t.kind ≠ .endOfInput := by simp [(multiplicative?_eq_some hop).1]
    obtain ⟨t', rest', rfl, hnext⟩ := h.advance hclosed hne
    rw [run_cons, Parser.step, stepOperator, hop] at hrun
    rw [advance_of_ne hne]
    refine ⟨t', rest', hnext.sound_call ?_ rfl hstack (.primary hnests hrun)⟩
    simpa [Frame.IsMeasured] using hv
  · next hk => exact ⟨t, rest, h.sound hstack hv (.productEnd hnests hk hrun)⟩

/-- A sum goes on at one of its operators and ends at any other token. -/
theorem sound_sum (hclosed : IsClosed stream) (h : Stands stream c t rest)
    (hstack : c.stack = .expression :: frames) (hnests : Nests frames groups) (hv : IsMeasured v)
    (hcontrol : c.control = .additive v) (hk : t.kind.multiplicative? = none)
    (hrun : run (.operator c.body groups none v) (t :: rest) = run (.between []) stream) :
    ∃ t' rest', Sound stream (c.next t) t' rest' := by
  simp only [next, hcontrol]
  rw [run_cons, Parser.step, stepOperator, hk] at hrun
  split
  · next op hop =>
    have hne : t.kind ≠ .endOfInput := by simp [(additive?_eq_some hop).1]
    obtain ⟨t', rest', rfl, hnext⟩ := h.advance hclosed hne
    rw [advance_of_ne hne]
    simp only [hop] at hrun
    refine ⟨t', rest', hnext.sound_call ?_ rfl hstack (.multiplicative hnests hrun)⟩
    simpa [Frame.IsMeasured] using hv
  · next hop =>
    simp only [hop] at hrun
    exact ⟨t, rest, h.sound hstack hv (.sumEnd hnests hrun)⟩

/-- Every operation goes on towards the result of the parser. -/
theorem Sound.next (hclosed : IsClosed stream) (h : Sound stream c t rest) :
    ∃ t' rest', Sound stream (c.next t) t' rest' := by
  have hstands := h.toStands
  have hmeasured := h.measured
  have hleads := h.leads
  generalize hcontrol : c.control = control at hleads hmeasured
  generalize hstack : c.stack = stack at hleads
  cases hleads with
  | program hrun => exact ⟨t, rest, sound_program hclosed hstands hstack hcontrol hrun⟩
  | statement hk hrun =>
    simp only [Descent.next, hcontrol]
    exact ⟨t, rest, sound_statement hstands hstack hk hrun⟩
  | expression hnests hrun =>
    simp only [Descent.next, hcontrol]
    exact ⟨t, rest, hstands.sound_call trivial rfl hstack (.additive hnests hrun)⟩
  | additive hnests hrun =>
    simp only [Descent.next, hcontrol]
    exact ⟨t, rest, hstands.sound_call (by simp [Frame.IsMeasured]) rfl hstack
      (.multiplicative hnests hrun)⟩
  | multiplicative hnests hrun =>
    simp only [Descent.next, hcontrol]
    exact ⟨t, rest, hstands.sound_call (by simp [Frame.IsMeasured]) rfl hstack
      (.primary hnests hrun)⟩
  | primary hnests hrun =>
    simp only [Descent.next, hcontrol]
    exact sound_primary hclosed hnests hstands hstack hrun
  | operand hnests hrun =>
    simp only [Descent.next, hcontrol]
    exact ⟨t, rest, sound_operand hstands hstack hnests hmeasured hrun⟩
  | close hnests hrun => exact sound_close hclosed hstands hstack hnests hmeasured hcontrol hrun
  | product hnests hrun => exact sound_product hclosed hstands hstack hnests hmeasured hcontrol hrun
  | productEnd hnests hk hrun =>
    simp only [Descent.next, hcontrol]
    exact ⟨t, rest, sound_productEnd hstands hstack hnests hmeasured hk hrun⟩
  | sum hnests hk hrun => exact sound_sum hclosed hstands hstack hnests hmeasured hcontrol hk hrun
  | sumEnd hnests hrun =>
    simp only [Descent.next, hcontrol, leave, hstack]
    exact ⟨t, rest, (hstands.pop hstack rfl).sound rfl hmeasured (.expressionEnd hnests hrun)⟩
  | expressionEnd hnests hrun =>
    simp only [Descent.next, hcontrol]
    exact ⟨t, rest, sound_expressionEnd hstands (hstack ▸ hnests) hmeasured hrun⟩
  | statementEnd hrun =>
    have hpop := hstands.pop hstack rfl
    simp only [Descent.next, hcontrol, leave, hstack]
    exact ⟨t, rest, ⟨hpop.split, hpop.depth_eq, hpop.depth_le, hpop.frames⟩, trivial, .program hrun⟩
  | fail hresult hlast =>
    simp only [Descent.next, hcontrol]
    exact ⟨t, rest, sound_unwind hstands hresult (hstack ▸ hlast)⟩
  | done =>
    simp only [Descent.next, hcontrol]
    exact ⟨t, rest, h⟩

end Preservation

section Runs

variable {stream rest : List Token} {c : Descent} {t : Token} (behind : List Token)

theorem Stands.getElem?_eq (h : Stands stream c t rest) :
    (stream ++ behind)[c.pos]? = some t := by
  obtain ⟨taken, rfl, hpos⟩ := h.split
  simp [hpos]

theorem Stands.pos_lt (h : Stands stream c t rest) : c.pos < stream.length := by
  obtain ⟨taken, rfl, hpos⟩ := h.split
  simp [hpos]

/-- A descent that stands at a token looks at this token. -/
theorem Stands.step_eq (h : Stands stream c t rest) : step (stream ++ behind) c = c.next t := by
  rw [step, h.getElem?_eq]

/-- A descent that has stopped has the result of the parser. -/
theorem Sound.control_eq (h : Sound stream c t rest) (hrank : c.control.rank = 0) :
    c.control = .done ((run (.between []) stream).map (·.program)) := by
  have hleads := h.leads
  generalize c.control = control at hleads hrank
  generalize c.stack = stack at hleads
  cases hleads with
  | done => rfl
  | _ => cases hrank

/-- Between statements nothing is open. -/
theorem Sound.depth_eq_zero (h : Sound stream c t rest) (hcontrol : c.control = .program) :
    c.depth = 0 := by
  have hleads := h.leads
  have hdepth := h.depth_eq
  generalize c.stack = stack at hleads hdepth
  rw [hcontrol] at hleads
  cases hleads with
  | program _ => exact hdepth

/-- A statement is begun in front of the end of input. -/
theorem Sound.pos_succ_lt (hclosed : IsClosed stream) (h : Sound stream c t rest)
    (hcontrol : c.control = .call .statement) : c.pos + 1 < stream.length := by
  have hleads := h.leads
  rw [hcontrol] at hleads
  obtain ⟨taken, hsplit, hpos⟩ := h.split
  generalize c.stack = stack at hleads
  cases hleads with
  | statement hk _ =>
    have hne := fun hnil => hk ((hclosed.kind_eq_iff hsplit).mpr hnil)
    have hlength := List.length_pos_iff.mpr hne
    rw [hpos, hsplit, List.length_append, List.length_cons]
    omega

theorem Sound.control_ne_stuck (h : Sound stream c t rest) : c.control ≠ .stuck := by
  intro hcontrol
  have hleads := h.leads
  rw [hcontrol] at hleads
  cases hleads

/-- Any number of operations goes on towards the result and grows. -/
theorem Sound.iterate (hclosed : IsClosed stream) (h : Sound stream c t rest) (n : Nat) :
    (∃ t' rest', Sound stream ((step (stream ++ behind))^[n] c) t' rest') ∧
      Grows c ((step (stream ++ behind))^[n] c) := by
  induction n with
  | zero => exact ⟨⟨t, rest, h⟩, .refl c⟩
  | succ n ih =>
    obtain ⟨⟨t', rest', hsound⟩, hgrows⟩ := ih
    rw [Function.iterate_succ_apply', hsound.step_eq]
    refine ⟨hsound.next hclosed, hgrows.trans ?_⟩
    by_cases hrank : ((step (stream ++ behind))^[n] c).control.rank = 0
    · rw [next_eq_self hrank]
      exact .refl _
    · exact (moves_next hsound.pos_lt hrank).toGrows

/-- After as many operations as its weight a descent has stopped. -/
theorem Sound.rank_iterate_eq_zero (hclosed : IsClosed stream) (h : Sound stream c t rest) {n : Nat}
    (hn : c.weight stream.length ≤ n) :
    ((step (stream ++ behind))^[n] c).control.rank = 0 := by
  induction n generalizing c t rest with
  | zero =>
    rw [weight] at hn
    exact Nat.eq_zero_of_add_eq_zero_left (Nat.le_zero.mp hn)
  | succ n ih =>
    by_cases hrank : c.control.rank = 0
    · have hfixed : step (stream ++ behind) c = c := by rw [h.step_eq, next_eq_self hrank]
      rw [Function.iterate_fixed hfixed, hrank]
    · have hlt := (moves_next (t := t) h.pos_lt hrank).weight_lt
      obtain ⟨t', rest', hnext⟩ := h.next hclosed
      rw [Function.iterate_succ_apply, h.step_eq]
      exact ih hnext (by omega)

/-- A descent in front of the tokens comes to the result of the parser. -/
theorem exists_sound_start (hclosed : IsClosed stream) : ∃ t rest, Sound stream start t rest := by
  obtain ⟨ts, closing, rfl, -, -⟩ := hclosed
  obtain ⟨t, rest, hcons⟩ := List.exists_cons_of_ne_nil (List.concat_ne_nil closing ts)
  have hstands : Stands (ts ++ [closing]) start t rest :=
    ⟨⟨[], hcons, rfl⟩, rfl, Nat.zero_le _, by simp [start]⟩
  exact ⟨t, rest, hstands, trivial, .program (by rw [hcons]; rfl)⟩

end Runs

/-- What holds of a descent over tokens after any number of operations. The position is at most that
of the first end of input, and a token is in sight; the depth is the number of groups that wait, is
within the limit, and is zero between statements; a value that is returned carries its height,
within the limit; and no more statements are complete or begun than tokens come before the end. A
rule that returns with a value has taken a token since it was called, and leaves the depth as it
was. So the descent comes to an end, with the result of the parser. -/
theorem iterate_step_descends {tokens : List Token}
    (hend : tokens.getLast?.map Token.kind = some .endOfInput) :
    (∀ n, let c := (step tokens)^[n] start
      c.pos ≤ (sentence tokens).length ∧ (∃ t, tokens[c.pos]? = some t) ∧ c.control ≠ .stuck ∧
      c.depth = c.stack.countP Frame.isGroup ∧ c.depth ≤ 256 ∧
      (c.control = .program → c.depth = 0) ∧
      (∀ v, c.control = .ret v → v.height = v.expr.height ∧ v.height ≤ 256) ∧
      c.body.length ≤ c.pos ∧
      (c.control = .call .statement → c.body.length < (sentence tokens).length)) ∧
    (∀ m n rule v, let c := (step tokens)^[m] start
      let d := (step tokens)^[n] c
      c.control = .call rule → d.control = .ret v → d.stack = c.stack →
      c.pos < d.pos ∧ d.depth = c.depth) ∧
    ∀ n, 16 * (sentence tokens).length + 33 ≤ n →
      ((step tokens)^[n] start).control = .done (parse tokens) := by
  obtain ⟨closing, behind, hclosing, htokens, hparse⟩ := parse_eq_run hend
  have hstream : tokens = (sentence tokens ++ [closing]) ++ behind := by
    rw [List.append_assoc]
    exact htokens
  have hclosed : IsClosed (sentence tokens ++ [closing]) :=
    ⟨_, closing, rfl, hclosing, fun t ht => kind_ne_of_mem_sentence ht⟩
  have hlength : (sentence tokens ++ [closing]).length = (sentence tokens).length + 1 := by simp
  generalize sentence tokens = ts at hstream hclosed hlength hparse ⊢
  subst hstream
  obtain ⟨t₀, rest₀, hstart⟩ := exists_sound_start hclosed
  refine ⟨fun n => ?_, fun m n rule v => ?_, fun n hn => ?_⟩
  · obtain ⟨⟨t, rest, h⟩, hgrows⟩ := hstart.iterate behind hclosed n
    have hpos := h.pos_lt
    have hbody := hgrows.body_le_pos
    refine ⟨by omega, ⟨t, h.getElem?_eq behind⟩, h.control_ne_stuck, h.depth_eq, h.depth_le,
      h.depth_eq_zero, fun v hv => ?_, hbody, fun hcall => ?_⟩
    · have hmeasured := h.measured
      rw [hv] at hmeasured
      exact ⟨hmeasured.height_eq, hmeasured.height_le⟩
    · have := h.pos_succ_lt hclosed hcall
      omega
  · intro c d hcall hret hstack
    obtain ⟨⟨t, rest, h⟩, -⟩ := hstart.iterate behind hclosed m
    obtain ⟨⟨t', rest', h'⟩, hgrows⟩ := h.iterate behind hclosed n
    refine ⟨hgrows.pos_lt (by rw [hcall]; rfl) (by rw [hret]; rfl), ?_⟩
    rw [h'.depth_eq, h.depth_eq, hstack]
  · obtain ⟨⟨t, rest, h⟩, -⟩ := hstart.iterate behind hclosed n
    have hweight : start.weight (ts ++ [closing]).length = 16 * ts.length + 33 := by
      rw [weight, hlength]
      simp [start, Control.rank]
      omega
    rw [hparse]
    exact h.control_eq (hstart.rank_iterate_eq_zero behind hclosed (hweight ▸ hn))

/-- A name in parentheses, with tokens behind the first end of input: the operand takes the group as
a whole, and what stands behind is not looked at. -/
theorem iterate_step_descends_group :
    let tokens : List Token :=
      [⟨.punctuation .openParen, "(", ⟨0, 1⟩⟩, ⟨.identifier, "a", ⟨1, 2⟩⟩,
        ⟨.punctuation .closeParen, ")", ⟨2, 3⟩⟩, .endOfInput 3, ⟨.identifier, "b", ⟨4, 5⟩⟩,
        .endOfInput 5]
    let c := (step tokens)^[5] start
    let d := (step tokens)^[12] c
    tokens.getLast?.map Token.kind = some .endOfInput ∧
      (c.control = .call .primary ∧ d.control = .ret ⟨.ident "a", 1⟩ ∧ d.stack = c.stack ∧
        c.pos < d.pos ∧ d.depth = c.depth) ∧
      ((step tokens)^[81] start).control = .done (.ok ⟨[.ident "a"]⟩) := by
  intro tokens c d
  have hend : tokens.getLast?.map Token.kind = some .endOfInput := by decide
  have hcall : c.control = .call .primary := by decide +kernel
  have hret : d.control = .ret ⟨.ident "a", 1⟩ := by decide +kernel
  have hstack : d.stack = c.stack := by decide +kernel
  have hparse : parse tokens = .ok ⟨[.ident "a"]⟩ := by decide +kernel
  obtain ⟨-, hreturns, hdone⟩ := iterate_step_descends hend
  refine ⟨hend, ⟨hcall, hret, hstack, hreturns 5 12 .primary _ hcall hret hstack⟩, ?_⟩
  rw [← hparse]
  exact hdone 81 (by decide +kernel)

end Abacus.Descent
