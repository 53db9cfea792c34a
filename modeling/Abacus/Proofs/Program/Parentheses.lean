import Abacus.Proofs.Program.RoundTrip

/-!
# The fewest parentheses

Among all tokens that derive an expression, those of its canonical text have the fewest opening
parentheses, and tokens that have as few are of the same kinds. The induction follows the
derivation: only a group adds parentheses, and a group around an expression that may stand without
one adds a parenthesis too many.
-/

namespace Abacus

open Grammar

/-- The same kinds, or fewer opening parentheses among them. -/
def SparesParens (ks ls : List Kind) : Prop :=
  ks = ls ∨ ks.count (.punctuation .openParen) < ls.count (.punctuation .openParen)

namespace SparesParens

variable {ks ls ms ns : List Kind}

theorem refl (ks : List Kind) : SparesParens ks ks := .inl rfl

theorem count_le (h : SparesParens ks ls) :
    ks.count (.punctuation .openParen) ≤ ls.count (.punctuation .openParen) := by
  rcases h with rfl | hlt
  · exact Nat.le_refl _
  · exact Nat.le_of_lt hlt

theorem trans (h : SparesParens ks ls) (h' : SparesParens ls ms) : SparesParens ks ms := by
  rcases h with rfl | hlt
  · exact h'
  · exact .inr (hlt.trans_le h'.count_le)

theorem append (h : SparesParens ks ls) (h' : SparesParens ms ns) :
    SparesParens (ks ++ ms) (ls ++ ns) := by
  have hle := h.count_le
  have hle' := h'.count_le
  rcases h with rfl | hlt
  · rcases h' with rfl | hlt
    · exact .refl _
    · refine .inr ?_
      rw [List.count_append, List.count_append]
      omega
  · refine .inr ?_
    rw [List.count_append, List.count_append]
    omega

/-- Parentheses around both keep the comparison. -/
theorem group (h : SparesParens ks ls) :
    SparesParens (.punctuation .openParen :: (ks ++ [.punctuation .closeParen]))
      (.punctuation .openParen :: (ls ++ [.punctuation .closeParen])) :=
  append (.refl [.punctuation .openParen]) (h.append (.refl [.punctuation .closeParen]))

/-- Parentheses around the second are one too many. -/
theorem ungroup (h : SparesParens ks ls) :
    SparesParens ks (.punctuation .openParen :: (ls ++ [.punctuation .closeParen])) := by
  have hle := h.count_le
  refine .inr ?_
  simp
  omega

end SparesParens

namespace Expr

/-- The kinds of an expression written at a level: in parentheses if it is too loose. -/
def kindsAt (level : Level) (e : Expr) : List Kind :=
  (wrapContents (decide (level.rank < e.level.rank)) e.contents).map Prod.fst

variable {level level' : Level} {e : Expr}

theorem kindsAt_of_rank_le (h : e.level.rank ≤ level.rank) :
    e.kindsAt level = e.contents.map Prod.fst := by
  simp [kindsAt, wrapContents, Nat.not_lt.mpr h]

theorem kindsAt_of_rank_lt (h : level.rank < e.level.rank) :
    e.kindsAt level =
      .punctuation .openParen :: (e.contents.map Prod.fst ++ [.punctuation .closeParen]) := by
  simp [kindsAt, wrapContents, h]

/-- At a looser level an expression needs no more parentheses. -/
theorem sparesParens_loosen (e : Expr) (h : level.rank ≤ level'.rank) :
    SparesParens (e.kindsAt level') (e.kindsAt level) := by
  by_cases hlevel : e.level.rank ≤ level.rank
  · rw [kindsAt_of_rank_le hlevel, kindsAt_of_rank_le (hlevel.trans h)]
    exact .refl _
  · rw [kindsAt_of_rank_lt (Nat.not_le.mp hlevel)]
    by_cases hlevel' : e.level.rank ≤ level'.rank
    · rw [kindsAt_of_rank_le hlevel']
      exact (SparesParens.refl _).ungroup
    · rw [kindsAt_of_rank_lt (Nat.not_le.mp hlevel')]
      exact .refl _

/-- An operation is written with its left operand at its own level and the right one at the next
tighter level. -/
theorem kindsAt_binary {op : BinaryOp} {inner : Level} (l r : Expr)
    (hinner : inner.rank + 1 = op.level.rank) :
    (binary op l r).kindsAt op.level =
      l.kindsAt op.level ++ .operator op.operator :: r.kindsAt inner := by
  have hleft : l.needsParens op .left = decide (op.level.rank < l.level.rank) := by
    rw [Bool.eq_iff_iff, needsParens_left_iff, decide_eq_true_iff]
  have hright : r.needsParens op .right = decide (inner.rank < r.level.rank) := by
    rw [Bool.eq_iff_iff, needsParens_right_iff, decide_eq_true_iff]
    omega
  have hbare : (binary op l r).kindsAt op.level = (binary op l r).contents.map Prod.fst :=
    kindsAt_of_rank_le (Nat.le_refl _)
  rw [hbare, contents, hleft, hright, List.map_append, List.map_cons]
  rfl

end Expr

/-- Canonical text spares parentheses among all tokens that derive the expression at a level. -/
theorem Grammar.Derives.sparesParens {level : Level} {ts : List Token} {e : Expr}
    (h : Derives level ts e) : SparesParens (e.kindsAt level) (ts.map Token.kind) := by
  induction h with
  | number ht => exact .inl (congrArg (· :: []) ht.symm)
  | ident ht => exact .inl (congrArg (· :: []) ht.symm)
  | @group opening closing ts e hopen hclose _ ih =>
    rw [Expr.kindsAt_of_rank_le e.level.rank_le_sum] at ih
    rw [List.map_cons, List.map_append, List.map_singleton, hopen, hclose]
    by_cases htight : e.level.rank ≤ Level.operand.rank
    · rw [Expr.kindsAt_of_rank_le htight]
      exact ih.ungroup
    · rw [Expr.kindsAt_of_rank_lt (Nat.not_le.mp htight)]
      exact ih.group
  | @ofOperand ts e _ ih => exact (e.sparesParens_loosen (by decide)).trans ih
  | @ofProduct ts e _ ih => exact (e.sparesParens_loosen (by decide)).trans ih
  | @multiply left right t op l r hop ht _ _ ihl ihr =>
    have hlevel : op.level = .product := by cases op <;> simp_all [BinaryOp.level]
    have hkinds := Expr.kindsAt_binary l r (by rw [hlevel]; rfl : Level.operand.rank + 1 = _)
    rw [hlevel] at hkinds
    rw [hkinds, List.map_append, List.map_cons, ht]
    exact ihl.append (SparesParens.append (.refl [_]) ihr)
  | @add left right t op l r hop ht _ _ ihl ihr =>
    have hlevel : op.level = .sum := by cases op <;> simp_all [BinaryOp.level]
    have hkinds := Expr.kindsAt_binary l r (by rw [hlevel]; rfl : Level.product.rank + 1 = _)
    rw [hlevel] at hkinds
    rw [hkinds, List.map_append, List.map_cons, ht]
    exact ihl.append (SparesParens.append (.refl [_]) ihr)

/-- Canonical text spares parentheses among all tokens that derive the program. -/
theorem Grammar.DerivesBody.sparesParens {ts : List Token} {body : List Expr}
    (h : DerivesBody ts body) :
    SparesParens ((Program.contents ⟨body⟩).map Prod.fst) (ts.map Token.kind) := by
  induction h with
  | nil => exact .refl []
  | @cons ts rest e body hd _ ih =>
    have he := hd.sparesParens
    rw [Expr.kindsAt_of_rank_le e.level.rank_le_sum] at he
    rw [List.map_append]
    simpa [Program.contents] using he.append ih

theorem opens_eq_count (ts : List Token) :
    opens ts = (ts.map Token.kind).count (.punctuation .openParen) := by
  rw [opens, List.count, List.countP_map]
  rfl

/-- Canonical text has the fewest parentheses: its tokens have at most as many opening parentheses
as the tokens of any text that means the same program, and where they have as many, both texts have
the same kinds of tokens in the same order. -/
theorem opens_render_le (source : String) (p : Program) (h : parseSource source = .ok p)
    (indent : Nat) :
    ∃ ts us, tokenize source = .ok ts ∧ tokenize (p.render ⟨indent, .source⟩) = .ok us ∧
      opens us ≤ opens ts ∧ (opens us = opens ts → us.map Token.kind = ts.map Token.kind) := by
  obtain ⟨tokens, htokens, hp⟩ := parseSource_eq_ok_iff.mp h
  obtain ⟨ts, last, rfl, hend⟩ := exists_tokens_of_tokenize htokens
  obtain ⟨us, last', hus, hrender⟩ :=
    (Program.scans_source (hasValidLeaves_of_parseSource h).1).tokenize_eq
  rw [← p.render_source indent] at hrender
  have hd := (derives_of_parse_eq_ok (getLast?_of_parse_eq_ok hp) hp).1
  rw [sentence_concat fun t ht => (hend t ht).1] at hd
  have hkinds : us.map Token.kind = p.contents.map Prod.fst := by
    rw [← hus, List.map_map]
    rfl
  have hspares : SparesParens ((us ++ [Token.endOfInput last']).map Token.kind)
      ((ts ++ [Token.endOfInput last]).map Token.kind) := by
    rw [List.map_append, List.map_append, hkinds]
    exact (DerivesBody.sparesParens hd).append (.refl [.endOfInput])
  refine ⟨_, _, htokens, hrender, ?_, fun heq => ?_⟩
  · rw [opens_eq_count, opens_eq_count]
    exact hspares.count_le
  · rw [opens_eq_count, opens_eq_count] at heq
    rcases hspares with hsame | hfewer
    · exact hsame
    · omega

/-- Two texts of one program, one with needless parentheses and one without: the canonical text has
no more parentheses than the first and the same kinds of tokens as the second. -/
theorem opens_render_le_needless :
    let needless := "((a))-((b - 1)*2)"
    let spare := "a-(b-1)*2"
    let p : Program := ⟨[.binary .sub (.ident "a")
      (.binary .mul (.binary .sub (.ident "b") (.number (.ofBits 0x3ff0000000000000)))
        (.number (.ofBits 0x4000000000000000)))]⟩
    (parseSource needless = .ok p ∧ ∃ ts us, tokenize needless = .ok ts ∧
        tokenize (p.render ⟨2, .source⟩) = .ok us ∧ opens us ≤ opens ts) ∧
      parseSource spare = .ok p ∧ ∃ ts us, tokenize spare = .ok ts ∧
        tokenize (p.render ⟨2, .source⟩) = .ok us ∧ us.map Token.kind = ts.map Token.kind := by
  intro needless spare p
  have hneedless : parseSource needless = .ok p := by decide +kernel
  have hspare : parseSource spare = .ok p := by decide +kernel
  obtain ⟨ts, us, hts, hus, hle, -⟩ := opens_render_le needless p hneedless 2
  obtain ⟨ts', us', hts', hus', -, hsame⟩ := opens_render_le spare p hspare 2
  have hopens : (tokenize spare).map opens = (tokenize (p.render ⟨2, .source⟩)).map opens := by
    decide +kernel
  rw [hts', hus'] at hopens
  exact ⟨⟨hneedless, ts, us, hts, hus, hle⟩, hspare, ts', us', hts', hus',
    hsame (Except.ok.inj hopens).symm⟩

end Abacus
