import Abacus.Proofs.Grammar.Acceptance

/-!
# Parsing by descent

The grammar can be followed rule by rule: a statement calls the rule of expressions, a sum that of
its products, a product that of its operands, and an operand in parentheses that of expressions
again. A descent is such a parser with its calls written out. It has a position in the tokens, a
count of open parentheses, the statements that are complete, and the rules that wait for the one
that runs, innermost first. A position behind the tokens and a count below zero leave it stuck.

Between two tokens only so much can happen: rules are called down to an operand, or return up to
the program. Each operation lowers a bound that counts the tokens to come, the rules that wait and
what is done next, and each rule that returns has taken a token for its value.
-/

namespace Abacus

open Abacus.Parser Grammar

namespace Descent

/-- The rules that call each other. -/
inductive Rule
  | statement
  | expression
  | additive
  | multiplicative
  | primary
  deriving DecidableEq

/-- A rule that waits for the value of another. -/
inductive Frame
  /-- The statements before the one that is due. -/
  | program
  | statement
  | expression
  /-- A sum, with what it has so far. -/
  | additive (left : Option Pending)
  /-- A product, with what it has so far. -/
  | multiplicative (left : Option Pending)
  /-- An operand in parentheses. -/
  | group (openedAt : Span)
  deriving DecidableEq

/-- What a descent does next. -/
inductive Control
  /-- It looks for another statement. -/
  | program
  /-- It begins a rule. -/
  | call (rule : Rule)
  /-- It looks for another product of a sum. -/
  | additive (value : Value)
  /-- It looks for another operand of a product. -/
  | multiplicative (value : Value)
  /-- It expects the closing parenthesis of a group. -/
  | close (openedAt : Span) (value : Value)
  /-- It returns from a rule with a value. -/
  | ret (value : Value)
  /-- It leaves a rule with an error. -/
  | fail (error : Error)
  /-- The tokens are parsed or refused. -/
  | done (result : Except Error Program)
  /-- It looked behind the tokens or closed a parenthesis that was not counted. -/
  | stuck
  deriving DecidableEq

end Descent

/-- A descent. The statements already complete come latest first. -/
structure Descent where
  control : Descent.Control
  stack : List Descent.Frame
  pos : Nat
  depth : Nat
  body : List Expr

namespace Descent

/-- A descent in front of the tokens. -/
def start : Descent := ⟨.program, [], 0, 0, []⟩

/-- Goes on with something else. -/
def goto (c : Descent) (control : Control) : Descent := { c with control }

/-- Calls a rule and waits for its value. -/
def call (c : Descent) (rule : Rule) (frame : Frame) : Descent :=
  { c with control := .call rule, stack := frame :: c.stack }

/-- Takes a token, unless it is the end of input. -/
def advance (c : Descent) (t : Token) : Descent :=
  if t.kind = .endOfInput then c else { c with pos := c.pos + 1 }

/-- Counts a parenthesis. -/
def raise (c : Descent) : Descent := { c with depth := c.depth + 1 }

/-- Counts a parenthesis no longer and goes on with something else. -/
def lower (c : Descent) (control : Control) : Descent :=
  match c.depth with
  | 0 => c.goto .stuck
  | depth + 1 => { c with depth, control }

/-- Begins an operand at a token. -/
def primary (c : Descent) (t : Token) : Descent :=
  match t.kind with
  | .number =>
    match Binary64.ofText? t.text with
    | some x => (c.advance t).goto (.ret ⟨.number x, 1⟩)
    | none => (c.advance t).goto (.fail ⟨.invalidNumber t.text, t.span⟩)
  | .identifier => (c.advance t).goto (.ret ⟨.ident t.text, 1⟩)
  | .punctuation .openParen =>
    if c.depth < nestingLimit then ((c.advance t).call .expression (.group t.span)).raise
    else c.goto (.fail (tooDeep t.span))
  | kind => c.goto (.fail ⟨.unexpectedToken kind t.text, t.span⟩)

/-- Begins a statement at a token. -/
def statement (c : Descent) (t : Token) : Descent :=
  match t.kind with
  | .keyword .binding | .punctuation .equals =>
    c.goto (.fail ⟨.invalidStatement t.kind, t.span⟩)
  | _ => c.call .expression .statement

/-- Begins a rule at a token. -/
def enter (c : Descent) (t : Token) : Rule → Descent
  | .statement => c.statement t
  | .expression => c.call .additive .expression
  | .additive => c.call .multiplicative (.additive none)
  | .multiplicative => c.call .primary (.multiplicative none)
  | .primary => c.primary t

/-- Gives a sum or a product a further part. -/
def fold (c : Descent) (left : Option Pending) (value : Value) (next : Value → Control) : Descent :=
  match complete left value with
  | .ok total => c.goto (next total)
  | .error e => c.goto (.fail e)

/-- Returns a value to a rule that waited. -/
def resume (c : Descent) (value : Value) : Frame → Descent
  | .program => { c with body := value.expr :: c.body, control := .program }
  | .statement | .expression => c.goto (.ret value)
  | .additive left => c.fold left value .additive
  | .multiplicative left => c.fold left value .multiplicative
  | .group openedAt => c.lower (.close openedAt value)

/-- Passes an error to a rule that waited. -/
def unwind (c : Descent) (error : Error) : Frame → Descent
  | .program => c.goto (.done (.error error))
  | .group _ => c.lower (.fail error)
  | _ => c.goto (.fail error)

/-- Leaves the frame that waits. -/
def leave (c : Descent) (back : Descent → Frame → Descent) : Descent :=
  match c.stack with
  | [] => c.goto .stuck
  | frame :: stack => back { c with stack } frame

/-- One operation, with a token in sight. -/
def next (c : Descent) (t : Token) : Descent :=
  match c.control with
  | .done _ | .stuck => c
  | .program =>
    if t.kind = .endOfInput then c.goto (.done (.ok ⟨c.body.reverse⟩))
    else c.call .statement .program
  | .call rule => c.enter t rule
  | .additive value =>
    match t.kind.additive? with
    | some op => (c.advance t).call .multiplicative (.additive (some ⟨value, op, t.span⟩))
    | none => c.goto (.ret value)
  | .multiplicative value =>
    match t.kind.multiplicative? with
    | some op => (c.advance t).call .primary (.multiplicative (some ⟨value, op, t.span⟩))
    | none => c.goto (.ret value)
  | .close openedAt value =>
    if t.kind = .punctuation .closeParen then (c.advance t).goto (.ret value)
    else c.goto (.fail ⟨.unclosedParenthesis t.kind openedAt, t.span⟩)
  | .ret value => c.leave fun c => c.resume value
  | .fail error => c.leave fun c => c.unwind error

/-- One operation of a descent over tokens. One that is done or stuck stays as it is. -/
def step (tokens : List Token) (c : Descent) : Descent :=
  match tokens[c.pos]? with
  | some t => c.next t
  | none => c.goto .stuck

section Progress

variable {size : Nat} {c d : Descent} {t : Token} {control : Control} {rule : Rule} {frame : Frame}

/-- How much may still happen before a token is taken or a frame is left. -/
def Control.rank : Control → Nat
  -- A frame on the stack weighs two, so a rule ranks three above the one it calls, and what a value
  -- is returned to may rank one above the return.
  | .done _ | .stuck => 0
  | .fail _ => 1
  | .call .primary => 2
  | .call .multiplicative => 5
  | .call .additive => 8
  | .call .expression => 11
  | .call .statement => 14
  | .ret _ => 16
  | .program | .additive _ | .multiplicative _ | .close _ _ => 17

/-- One for a token that is taken and belongs to no complete statement yet. -/
def Control.credit : Control → Nat
  | .ret _ | .additive _ | .multiplicative _ | .close _ _ => 1
  | _ => 0

/-- A bound on the operations to come, if there are so many tokens. -/
def weight (size : Nat) (c : Descent) : Nat :=
  16 * (size - c.pos) + 2 * c.stack.length + c.control.rank

/-- What any number of operations does: no statement is lost, and none is completed without a token
of its own. -/
structure Grows (c d : Descent) : Prop where
  body_le : c.body.length ≤ d.body.length
  credit_le : d.body.length + d.control.credit + c.pos ≤
    c.body.length + c.control.credit + d.pos

theorem Grows.refl (c : Descent) : Grows c c := ⟨Nat.le_refl _, Nat.le_refl _⟩

theorem Grows.trans {e : Descent} (h : Grows c d) (h' : Grows d e) : Grows c e := by
  refine ⟨h.body_le.trans h'.body_le, ?_⟩
  have := h.credit_le
  have := h'.credit_le
  omega

/-- A rule that returns has taken a token since it was called. -/
theorem Grows.pos_lt (h : Grows c d) (hc : c.control.credit = 0) (hd : d.control.credit = 1) :
    c.pos < d.pos := by
  have := h.body_le
  have := h.credit_le
  omega

/-- From the start on, every complete statement has a token of its own. -/
theorem Grows.body_le_pos (h : Grows start c) : c.body.length ≤ c.pos := by
  have hle : c.body.length + c.control.credit + 0 ≤ 0 + 0 + c.pos := h.credit_le
  omega

/-- What one operation does besides: it lowers the bound. -/
structure Moves (size : Nat) (c d : Descent) : Prop extends Grows c d where
  weight_lt : d.weight size < c.weight size

/-- An operation that completes no statement, with the number of tokens it takes. -/
theorem Moves.of_body_eq (taken : Nat) (hbody : d.body = c.body) (hpos : d.pos = c.pos + taken)
    (hsize : c.pos + taken ≤ size) (hcredit : d.control.credit ≤ c.control.credit + taken)
    (hrank : 2 * d.stack.length + d.control.rank <
      2 * c.stack.length + c.control.rank + 16 * taken) : Moves size c d := by
  refine ⟨⟨by rw [hbody], by rw [hbody, hpos]; omega⟩, ?_⟩
  rw [weight, weight, hpos]
  omega

theorem advance_of_ne (h : t.kind ≠ .endOfInput) : c.advance t = { c with pos := c.pos + 1 } :=
  if_neg h

theorem Control.credit_le (control : Control) : control.credit ≤ 1 := by
  cases control <;> simp [credit]

theorem Control.rank_call_le (rule : Rule) : (Control.call rule).rank ≤ 14 := by
  cases rule <;> decide

theorem Control.rank_le (control : Control) : control.rank ≤ 17 := by
  cases control with
  | call rule => exact (rank_call_le rule).trans (by decide)
  | _ => simp [rank]

/-- Going on with something of a lower rank. -/
theorem moves_goto (hpos : c.pos < size) (hcredit : control.credit ≤ c.control.credit)
    (hrank : control.rank < c.control.rank) : Moves size c (c.goto control) :=
  .of_body_eq 0 rfl rfl hpos.le hcredit (Nat.add_lt_add_left hrank _)

/-- Calling a rule further down. -/
theorem moves_call (hpos : c.pos < size) (hrank : (Control.call rule).rank + 2 < c.control.rank) :
    Moves size c (c.call rule frame) :=
  .of_body_eq 0 rfl rfl hpos.le (Nat.zero_le _) (by simp only [call, List.length_cons]; omega)

/-- Taking a token and going on. -/
theorem moves_take (hpos : c.pos < size) (ht : t.kind ≠ .endOfInput)
    (hrank : control.rank < c.control.rank + 16) : Moves size c ((c.advance t).goto control) := by
  rw [advance_of_ne ht]
  refine .of_body_eq 1 rfl rfl hpos ?_ ?_
  · exact (Control.credit_le control).trans (Nat.le_add_left _ _)
  · simp only [goto]
    omega

/-- Taking a token and calling a rule. -/
theorem moves_take_call (hpos : c.pos < size) (ht : t.kind ≠ .endOfInput)
    (hrank : 0 < c.control.rank) : Moves size c ((c.advance t).call rule frame) := by
  rw [advance_of_ne ht]
  refine .of_body_eq 1 rfl rfl hpos (Nat.zero_le _) ?_
  have hle := Control.rank_call_le rule
  simp only [call, List.length_cons]
  omega

theorem Moves.raise (h : Moves size c d) : Moves size c d.raise :=
  ⟨⟨h.body_le, h.credit_le⟩, h.weight_lt⟩

theorem moves_primary (hpos : c.pos < size) (hc : c.control = .call .primary) :
    Moves size c (c.primary t) := by
  have hfail (e : Error) : Moves size c (c.goto (.fail e)) :=
    moves_goto hpos (Nat.zero_le _) (by simp [hc, Control.rank])
  unfold primary
  split
  · next hk =>
    split
    · exact moves_take hpos (by simp [hk]) (by simp [hc, Control.rank])
    · exact moves_take hpos (by simp [hk]) (by simp [hc, Control.rank])
  · next hk => exact moves_take hpos (by simp [hk]) (by simp [hc, Control.rank])
  · next hk =>
    split
    · exact (moves_take_call hpos (by simp [hk]) (by simp [hc, Control.rank])).raise
    · exact hfail _
  · exact hfail _

theorem moves_enter (hpos : c.pos < size) (hc : c.control = .call rule) :
    Moves size c (c.enter t rule) := by
  cases rule with
  | statement =>
    simp only [enter, statement]
    split
    · exact moves_goto hpos (Nat.zero_le _) (by simp [hc, Control.rank])
    · exact moves_goto hpos (Nat.zero_le _) (by simp [hc, Control.rank])
    · exact moves_call hpos (by simp [hc, Control.rank])
  | expression | additive | multiplicative => exact moves_call hpos (by simp [hc, Control.rank])
  | primary => exact moves_primary hpos hc

/-- Leaving a frame for something whose rank is hardly higher. -/
theorem moves_pop {stack : List Frame} (hpos : c.pos < size) (hstack : c.stack = frame :: stack)
    (hbody : d.body = c.body) (hd : d.pos = c.pos) (hdstack : d.stack = stack)
    (hcredit : d.control.credit ≤ c.control.credit)
    (hrank : d.control.rank ≤ c.control.rank + 1) : Moves size c d := by
  refine .of_body_eq 0 hbody hd hpos.le hcredit ?_
  rw [hdstack, hstack, List.length_cons]
  omega

theorem moves_resume {value : Value} (hpos : c.pos < size) (hc : c.control = .ret value) :
    Moves size c (c.leave fun c => c.resume value) := by
  have hcredit : c.control.credit = 1 := by rw [hc]; rfl
  have hrank : c.control.rank = 16 := by rw [hc]; rfl
  unfold leave
  split
  · exact moves_goto hpos (Nat.zero_le _) (by rw [hrank]; decide)
  · next frame stack hstack =>
    -- Whatever a value is returned to, its frame is left.
    have hpop {d : Descent} (hbody : d.body = c.body) (hd : d.pos = c.pos)
        (hdstack : d.stack = stack) : Moves size c d :=
      moves_pop hpos hstack hbody hd hdstack (by rw [hcredit]; exact d.control.credit_le)
        (by rw [hrank]; exact d.control.rank_le)
    cases frame with
    | program =>
      refine ⟨⟨Nat.le_succ _, ?_⟩, ?_⟩
      · rw [hcredit]
        exact Nat.le_refl _
      · rw [weight, weight, hstack, hrank, List.length_cons]
        simp only [resume, Control.rank]
        omega
    | statement | expression => exact hpop rfl rfl rfl
    | additive left | multiplicative left =>
      simp only [resume, fold]
      split
      · exact hpop rfl rfl rfl
      · exact hpop rfl rfl rfl
    | group openedAt =>
      simp only [resume, lower]
      split
      · exact hpop rfl rfl rfl
      · exact hpop rfl rfl rfl

theorem moves_unwind {error : Error} (hpos : c.pos < size) (hc : c.control = .fail error) :
    Moves size c (c.leave fun c => c.unwind error) := by
  have hrank : c.control.rank = 1 := by rw [hc]; rfl
  unfold leave
  split
  · exact moves_goto hpos (Nat.zero_le _) (by rw [hrank]; decide)
  · next frame stack hstack =>
    have hpop {d : Descent} (hbody : d.body = c.body) (hd : d.pos = c.pos)
        (hdstack : d.stack = stack) (hcredit : d.control.credit = 0)
        (hle : d.control.rank ≤ 1) : Moves size c d :=
      moves_pop hpos hstack hbody hd hdstack (by omega) (by omega)
    cases frame with
    | program => exact hpop rfl rfl rfl rfl (Nat.zero_le 1)
    | group openedAt =>
      simp only [unwind, lower]
      split
      · exact hpop rfl rfl rfl rfl (Nat.zero_le 1)
      · exact hpop rfl rfl rfl rfl (Nat.le_refl 1)
    | statement | expression | additive left | multiplicative left =>
      exact hpop rfl rfl rfl rfl (Nat.le_refl 1)

/-- Every operation with a token in sight moves a descent that has not stopped. -/
theorem moves_next (hpos : c.pos < size) (hc : c.control.rank ≠ 0) :
    Moves size c (c.next t) := by
  unfold next
  split
  · next h => exact absurd (by rw [h]; rfl) hc
  · next h => exact absurd (by rw [h]; rfl) hc
  · next h =>
    split
    · exact moves_goto hpos (Nat.zero_le _) (by simp [h, Control.rank])
    · exact moves_call hpos (by simp [h, Control.rank])
  · next h => exact moves_enter hpos h
  · next h =>
    split
    · next hop =>
      have hk := (additive?_eq_some hop).1
      exact moves_take_call hpos (by simp [hk]) (Nat.pos_of_ne_zero hc)
    · exact moves_goto hpos (by simp [h, Control.credit]) (by simp [h, Control.rank])
  · next h =>
    split
    · next hop =>
      have hk := (multiplicative?_eq_some hop).1
      exact moves_take_call hpos (by simp [hk]) (Nat.pos_of_ne_zero hc)
    · exact moves_goto hpos (by simp [h, Control.credit]) (by simp [h, Control.rank])
  · next h =>
    split
    · next hk => exact moves_take hpos (by simp [hk]) (by simp [h, Control.rank])
    · exact moves_goto hpos (Nat.zero_le _) (by simp [h, Control.rank])
  · next h => exact moves_resume hpos h
  · next h => exact moves_unwind hpos h

/-- A descent that has stopped stays as it is. -/
theorem next_eq_self (h : c.control.rank = 0) : c.next t = c := by
  unfold next
  split
  · rfl
  · rfl
  · next hcontrol => simp [hcontrol, Control.rank] at h
  · next rule hcontrol =>
    rw [hcontrol] at h
    cases rule <;> cases h
  all_goals
    next hcontrol => simp [hcontrol, Control.rank] at h

end Progress

end Descent
end Abacus
