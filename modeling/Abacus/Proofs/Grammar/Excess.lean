import Abacus.Proofs.Grammar.Correspondence
import Abacus.Proofs.Grammar.Traversal
import Abacus.Proofs.Program.Canonical

/-!
# The first parenthesis too many

The parser counts the groups that are open. Derived tokens that are readable and within the height
limit are refused for their parentheses only, and then at the first parenthesis that is opened
although no more may be open. The induction follows the derivation with the room that is left: an
opening parenthesis takes one of it, and balanced tokens leave it as it was.
-/

namespace Abacus.Grammar

open Abacus.Parser

section Depth

variable {ts us before after : List Token} {t opening : Token} {bound : Nat}

/-- Tokens split at the first parenthesis that is opened although as many are open as the bound
allows. -/
structure FirstExcess (bound : Nat) (ts before : List Token) (t : Token) (after : List Token) :
    Prop where
  split : ts = before ++ t :: after
  opening : t.kind = .punctuation .openParen
  full : opens before = closes before + bound
  fits : OpensAtMost bound before

namespace FirstExcess

theorem cons_open (h : FirstExcess bound ts before t after)
    (hopen : opening.kind = .punctuation .openParen) :
    FirstExcess (bound + 1) (opening :: ts) (opening :: before) t after where
  split := by rw [h.split, List.cons_append]
  opening := h.opening
  full := by
    simp [opens_cons, closes_cons, hopen, h.full]
    omega
  fits := h.fits.cons_open hopen

theorem append (h : FirstExcess bound ts before t after) (us : List Token) :
    FirstExcess bound (ts ++ us) before t (after ++ us) where
  split := by rw [h.split, List.append_assoc, List.cons_append]
  opening := h.opening
  full := h.full
  fits := h.fits

/-- Balanced tokens in front that stay below the bound leave the room as it was. -/
theorem prepend (h : FirstExcess bound ts before t after) (hus : OpensAtMost bound us)
    (hbalanced : opens us = closes us) : FirstExcess bound (us ++ ts) (us ++ before) t after where
  split := by rw [h.split, List.append_assoc]
  opening := h.opening
  full := by
    rw [opens_append, closes_append, h.full]
    omega
  fits := hus.append hbalanced h.fits

/-- No parenthesis that is too many stands before the first one. -/
theorem length_le (h : FirstExcess bound ts before t after) {before' after' : List Token}
    {t' : Token} (hsplit : ts = before' ++ t' :: after')
    (hopen : t'.kind = .punctuation .openParen)
    (hfull : opens before' = closes before' + bound) : before.length ≤ before'.length := by
  rcases append_cons_cases (h.split.symm.trans hsplit) with ⟨mid, rfl, -⟩ | ⟨rfl, -⟩ | ⟨mid, rfl, -⟩
  · have hprefix : before' ++ [t'] <+: before' ++ t' :: mid := ⟨mid, by simp⟩
    have hle := h.fits _ hprefix
    simp [opens_cons, closes_cons, hopen] at hle
    omega
  · exact Nat.le_refl _
  · simp

end FirstExcess

/-- The result is the error of the first parenthesis too many. -/
def StopsAtExcess (bound : Nat) (ts : List Token) {α : Type} (result : Except Error α) : Prop :=
  ∃ before t after, FirstExcess bound ts before t after ∧ result = .error (tooDeep t.span)

namespace StopsAtExcess

variable {left right : List Token} {op : Operator} {α β : Type} {result : Except Error α}

/-- What would follow is not reached. -/
theorem bind (h : StopsAtExcess bound ts result) (f : α → Except Error β) :
    StopsAtExcess bound ts (result.bind f) := by
  obtain ⟨before, t, after, hfirst, rfl⟩ := h
  exact ⟨before, t, after, hfirst, rfl⟩

theorem ofGroup (h : StopsAtExcess bound ts result) (hopen : opening.kind = .punctuation .openParen)
    (closing : Token) : StopsAtExcess (bound + 1) (opening :: (ts ++ [closing])) result := by
  obtain ⟨before, t, after, hfirst, hresult⟩ := h
  exact ⟨_, t, _, (hfirst.append [closing]).cons_open hopen, hresult⟩

theorem ofLeft (h : StopsAtExcess bound left result) (t : Token) (right : List Token) :
    StopsAtExcess bound (left ++ t :: right) result := by
  obtain ⟨before, u, after, hfirst, hresult⟩ := h
  exact ⟨before, u, _, hfirst.append (t :: right), hresult⟩

theorem ofRight (h : StopsAtExcess bound right result) (hfits : OpensAtMost bound left)
    (hbalanced : opens left = closes left) (hk : t.kind = .operator op) :
    StopsAtExcess bound (left ++ t :: right) result := by
  obtain ⟨before, u, after, hfirst, hresult⟩ := h
  have hoperator : OpensAtMost bound [t] := opensAtMost_of_opens_eq_zero (by simp [opens_cons, hk])
  have hchain := hfirst.prepend (hfits.append hbalanced hoperator)
    (by simp [opens_cons, closes_cons, hk, hbalanced])
  rw [List.append_assoc] at hchain
  exact ⟨_, u, after, hchain, hresult⟩

end StopsAtExcess

end Depth

/-- Readable tokens within the limits have no fault. -/
theorem Refuses.exceeds {already bound : Nat} {ts : List Token} {e : Expr} {α : Type}
    {result : Except Error α} (h : Refuses already ts e.operations result)
    (hbound : already + bound = nestingLimit) (hread : ∀ t ∈ ts, IsReadable t)
    (hheight : e.height ≤ nestingLimit) : ¬ OpensAtMost bound ts := by
  intro hfits
  obtain ⟨error, hfault, -⟩ := h
  rcases (hfault.exceeds hread).1 with hdepth | ⟨d, hd, hhigh⟩
  · refine hdepth fun start hs => ?_
    have := hfits start hs
    omega
  · have := Expr.height_le_of_mem_operations hd
    omega

section Within

variable {ts : List Token} {e : Expr} {groups : List Group} {bound : Nat}

/-- A product within the limits is complete behind its tokens. -/
theorem Derives.run_product (h : Derives .product ts e) (hread : ∀ t ∈ ts, IsReadable t)
    (hheight : e.height ≤ nestingLimit) (hbound : groups.length + bound = nestingLimit)
    (hfits : OpensAtMost bound ts) (body : List Expr) (sum : Option Pending) :
    run (.operand body groups sum none) ts = .ok (.operator body groups sum ⟨e, e.height⟩) := by
  rcases h.takes body groups sum (by omega) with ⟨-, hrun⟩ | hrefuses
  · exact hrun
  · exact absurd hfits (hrefuses.exceeds hbound hread hheight)

/-- A sum within the limits is complete once its last product joins it. -/
theorem Derives.run_sum (h : Derives .sum ts e) (hread : ∀ t ∈ ts, IsReadable t)
    (hheight : e.height ≤ nestingLimit) (hbound : groups.length + bound = nestingLimit)
    (hfits : OpensAtMost bound ts) (body : List Expr) :
    ∃ sum v, run (.operand body groups none none) ts = .ok (.operator body groups sum v) ∧
      complete sum v = .ok ⟨e, e.height⟩ := by
  rcases h.takes body groups (by omega) with ⟨sum, v, hrun, ⟨-, htotal⟩ | hrefuses⟩ | hrefuses
  · exact ⟨sum, v, hrun, htotal⟩
  · exact absurd hfits (hrefuses.exceeds hbound hread hheight)
  · exact absurd hfits (hrefuses.exceeds hbound hread hheight)

end Within

/-- Derived tokens that are readable and no higher than the limit stop the parser at the first
parenthesis for which there is no room among the groups already open. -/
theorem Derives.stopsAtExcess {level : Level} {ts : List Token} {e : Expr} (h : Derives level ts e)
    (hread : ∀ t ∈ ts, IsReadable t) (hheight : e.height ≤ nestingLimit) (body : List Expr)
    (groups : List Group) (sum product : Option Pending) (bound : Nat)
    (hbound : groups.length + bound = nestingLimit) (hproduct : level ≠ .operand → product = none)
    (hsum : level = .sum → sum = none) (hexceeds : ¬ OpensAtMost bound ts) :
    StopsAtExcess bound ts (run (.operand body groups sum product) ts) := by
  induction h generalizing groups sum product bound with
  | number hk | ident hk =>
    exact absurd (opensAtMost_of_opens_eq_zero (by simp [opens_cons, hk])) hexceeds
  | @group opening closing ts e hopen hclose hd ih =>
    rw [run_cons, step_open _ _ _ _ hopen]
    cases bound with
    | zero =>
      -- No room is left: this parenthesis is the one.
      rw [if_neg (by omega)]
      exact ⟨[], opening, _, ⟨rfl, hopen, rfl, opensAtMost_of_opens_eq_zero rfl⟩, rfl⟩
    | succ bound =>
      rw [if_pos (by omega), Except.bind, run_append]
      have hinner : ¬ OpensAtMost bound ts :=
        fun hfits => hexceeds (hfits.group hd.balanced hopen hclose)
      have hstops := ih (fun t ht => hread t (by simp [ht])) hheight
        (⟨opening.span, sum, product⟩ :: groups) none none bound
        (by rw [List.length_cons]; omega) (fun _ => rfl) (fun _ => rfl) hinner
      exact (hstops.bind _).ofGroup hopen closing
  | ofOperand _ ih =>
    exact ih hread hheight groups sum product bound hbound (by simp) (by simp) hexceeds
  | ofProduct _ ih =>
    exact ih hread hheight groups sum product bound hbound (fun _ => hproduct (by simp)) (by simp)
      hexceeds
  | @multiply left right t op l r hop hk hl hr ihl ihr =>
    obtain rfl := hproduct (by simp)
    obtain ⟨hlow, hlow'⟩ := Expr.height_le_of_binary hheight
    have hreadl : ∀ u ∈ left, IsReadable u := fun u hu => hread u (by simp [hu])
    have hreadr : ∀ u ∈ right, IsReadable u := fun u hu => hread u (by simp [hu])
    rw [run_append]
    -- The parenthesis stands in the left operand, or that one is taken and the room is as it was.
    by_cases hfits : OpensAtMost bound left
    · have hright : ¬ OpensAtMost bound right :=
        fun hright => hexceeds (hfits.append hl.balanced (hright.cons_operator hk))
      rw [hl.run_product hreadl hlow hbound hfits, Except.bind, run_cons,
        step_multiply _ _ _ _ hop hk, Except.bind]
      have hstops := ihr hreadr hlow' groups sum (some ⟨⟨l, l.height⟩, op, t.span⟩) bound hbound
        (by simp) (by simp) hright
      exact hstops.ofRight hfits hl.balanced hk
    · have hstops := ihl hreadl hlow groups sum none bound hbound (fun _ => rfl) (by simp) hfits
      exact (hstops.bind _).ofLeft t right
  | @add left right t op l r hop hk hl hr ihl ihr =>
    obtain rfl := hproduct (by simp)
    obtain rfl := hsum rfl
    obtain ⟨hlow, hlow'⟩ := Expr.height_le_of_binary hheight
    have hreadl : ∀ u ∈ left, IsReadable u := fun u hu => hread u (by simp [hu])
    have hreadr : ∀ u ∈ right, IsReadable u := fun u hu => hread u (by simp [hu])
    rw [run_append]
    by_cases hfits : OpensAtMost bound left
    · have hright : ¬ OpensAtMost bound right :=
        fun hright => hexceeds (hfits.append hl.balanced (hright.cons_operator hk))
      obtain ⟨sum, v, hrun, htotal⟩ := hl.run_sum hreadl hlow hbound hfits body
      rw [hrun, Except.bind, run_cons, step_add _ _ _ _ hop hk, htotal, Except.map, Except.bind]
      have hstops := ihr hreadr hlow' groups (some ⟨⟨l, l.height⟩, op, t.span⟩) none bound hbound
        (fun _ => rfl) (by simp) hright
      exact hstops.ofRight hfits hl.balanced hk
    · have hstops := ihl hreadl hlow groups none none bound hbound (fun _ => rfl) (fun _ => rfl)
        hfits
      exact (hstops.bind _).ofLeft t right

/-- One statement that is readable and no higher than the limit is parsed if its parentheses are
within the limit, and is refused at the first parenthesis too many otherwise. -/
theorem Derives.parse_statement {ts : List Token} {e : Expr} (h : Derives .sum ts e)
    (hend : ∀ t ∈ ts, t.kind ≠ .endOfInput) (hread : ∀ t ∈ ts, IsReadable t)
    (hheight : e.height ≤ nestingLimit) (offset : Nat) :
    (OpensAtMost nestingLimit ts → parse (ts ++ [.endOfInput offset]) = .ok ⟨[e]⟩) ∧
      (¬ OpensAtMost nestingLimit ts →
        StopsAtExcess nestingLimit ts (parse (ts ++ [.endOfInput offset]))) := by
  constructor
  · intro hfits
    have hdepth : FitsDepth 0 ts := fun start hs => by simpa using hfits start hs
    exact (h.spellsStatement hend hread hdepth hheight).parse_eq offset
  · intro hexceeds
    obtain ⟨t, rest, hts, ht⟩ := h.exists_head
    have hstops := h.stopsAtExcess hread hheight [] [] none none nestingLimit (Nat.zero_add _)
      (fun _ => rfl) (fun _ => rfl) hexceeds
    have hbetween : run (.between []) ts = run (.operand [] [] none none) ts := by
      rw [hts, run_between_of_startsOperand ht]
    rw [parse_concat hend, run_append, hbetween]
    obtain ⟨before, u, after, hfirst, hrun⟩ := hstops
    exact ⟨before, u, after, hfirst, by rw [hrun]; rfl⟩

end Abacus.Grammar
