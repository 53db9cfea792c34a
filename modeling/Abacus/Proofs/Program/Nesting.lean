import Abacus.Proofs.Program.Outline
import Abacus.Proofs.Program.RoundTrip
import Abacus.Proofs.Token.Spacing

/-!
# How deep canonical text nests

The source text of an expression is written content by content: leaves, operators between blanks,
and parentheses around operands that need them. Only an operation is put in parentheses, so that at
most two parentheses fewer than the expression is high are open at once, whatever the leaves are.

A leaf that has no opening parenthesis in its own text adds none to the tokens of the text. Each
start of the tokens is then covered by a start of the text and this by a start of the contents, with
no fewer parentheses open. So the parser meets an opening parenthesis of canonical text with room
for it left, as long as no statement is higher than the limit.
-/

namespace Abacus

open Grammar

/-- How a content is written: an operator between blanks, and anything else as it is. -/
def spaced (c : Kind × String) : String :=
  match c.1 with
  | .operator _ => " " ++ c.2 ++ " "
  | _ => c.2

/-- The number of opening parentheses among contents. -/
def opened (contents : List (Kind × String)) : Nat :=
  contents.countP (·.1 = .punctuation .openParen)

/-- The number of closing parentheses among contents. -/
def closed (contents : List (Kind × String)) : Nat :=
  contents.countP (·.1 = .punctuation .closeParen)

section Counting

variable (xs ys : List (Kind × String))

@[simp] theorem opened_append : opened (xs ++ ys) = opened xs + opened ys := List.countP_append

@[simp] theorem closed_append : closed (xs ++ ys) = closed xs + closed ys := List.countP_append

theorem opens_eq_opened (ts : List Token) : opens ts = opened (ts.map Token.content) := by
  rw [opens, opened, List.countP_map]
  rfl

theorem closes_eq_closed (ts : List Token) : closes ts = closed (ts.map Token.content) := by
  rw [closes, closed, List.countP_map]
  rfl

/-- Tokens with given contents, all at one place. -/
def unplaced (contents : List (Kind × String)) : List Token :=
  contents.map fun c => ⟨c.1, c.2, .origin⟩

theorem map_content_unplaced : (unplaced xs).map Token.content = xs := by
  rw [unplaced, List.map_map]
  exact List.map_id xs

/-- A bound on the open parentheses of tokens is one on those of their contents. -/
theorem OpensAtMost.contents {bound : Nat} {xs : List (Kind × String)}
    (h : OpensAtMost bound (unplaced xs)) {start : List (Kind × String)} (hs : start <+: xs) :
    opened start ≤ closed start + bound := by
  have hle := h (unplaced start) (hs.map _)
  rwa [opens_eq_opened, closes_eq_closed, map_content_unplaced] at hle

end Counting

namespace Expr

/-- Parentheses around contents are written around their text. -/
theorem join_wrapContents (wrap : Bool) (contents : List (Kind × String)) :
    String.join ((wrapContents wrap contents).map spaced) =
      parenthesize wrap (String.join (contents.map spaced)) := by
  cases wrap with
  | false => rfl
  | true =>
    apply String.toList_inj.mp
    simp [wrapContents, parenthesize, spaced, String.toList_join]

/-- The source text of an expression is that of its contents, one behind the other. -/
theorem join_contents (e : Expr) : String.join (e.contents.map spaced) = e.source := by
  induction e with
  | number value => simp [contents, source, spaced, String.join]
  | ident name => simp [contents, source, spaced, String.join]
  | binary op l r ihl ihr =>
    have hl := join_wrapContents (l.needsParens op .left) l.contents
    have hr := join_wrapContents (r.needsParens op .right) r.contents
    rw [ihl] at hl
    rw [ihr] at hr
    rw [source, ← hl, ← hr, contents]
    apply String.toList_inj.mp
    simp [spaced, String.toList_join]

/-- The parentheses written in an expression are open no deeper than two less than its height. -/
theorem opened_le {e : Expr} {start : List (Kind × String)} (hs : start <+: e.contents) :
    opened start ≤ closed start + (e.height - 2) :=
  (opensAtMost_of_contents (map_content_unplaced e.contents)).contents hs

variable {before rest : List (Kind × String)} {c : Kind × String}

/-- An operand in parentheses is an operation, so that those around it hold one. -/
theorem exists_operation_of_operand {parent : BinaryOp} {side : Side} {e : Expr}
    (ih : ∀ {before rest}, e.contents = before ++ c :: rest →
      ∃ op l r, (binary op l r).contents ++ [(.punctuation .closeParen, ")")] <+: rest)
    (h : wrapContents (e.needsParens parent side) e.contents = before ++ c :: rest)
    (hc : c.1 = .punctuation .openParen) :
    ∃ op l r, (binary op l r).contents ++ [(.punctuation .closeParen, ")")] <+: rest := by
  cases hwrap : e.needsParens parent side with
  | false =>
    rw [hwrap] at h
    exact ih h
  | true =>
    simp only [hwrap, wrapContents, if_true] at h
    rcases List.cons_eq_append_iff.mp h with ⟨-, hrest⟩ | ⟨inner, -, hinner⟩
    · obtain ⟨-, rfl⟩ := List.cons.inj hrest
      cases e with
      | number _ | ident _ => cases hwrap
      | binary op l r => exact ⟨op, l, r, List.prefix_refl _⟩
    · rcases append_cons_cases hinner with ⟨mid, hmid, rfl⟩ | ⟨-, rfl, -⟩ | ⟨_, -, hnil⟩
      · obtain ⟨op, l, r, hprefix⟩ := ih hmid
        exact ⟨op, l, r, hprefix.trans (List.prefix_append _ _)⟩
      · cases hc
      · simp at hnil

/-- Behind every parenthesis that is written stands an operation, and then its closing one. -/
theorem exists_operation_of_opening {e : Expr} (h : e.contents = before ++ c :: rest)
    (hc : c.1 = .punctuation .openParen) :
    ∃ op l r, (binary op l r).contents ++ [(.punctuation .closeParen, ")")] <+: rest := by
  induction e generalizing before rest with
  | number value | ident name =>
    rcases List.cons_eq_append_iff.mp h with ⟨-, hleaf⟩ | ⟨_, -, hnil⟩
    · cases hleaf
      cases hc
    · simp at hnil
  | binary op l r ihl ihr =>
    rcases append_cons_cases h with ⟨mid, hmid, rfl⟩ | ⟨-, rfl, -⟩ | ⟨mid, -, hmid⟩
    · obtain ⟨op', l', r', hprefix⟩ := exists_operation_of_operand (fun {_ _} h => ihl h) hmid hc
      exact ⟨op', l', r', hprefix.trans (List.prefix_append _ _)⟩
    · cases hc
    · exact exists_operation_of_operand (fun {_ _} h => ihr h) hmid hc

end Expr

/-- A text that is covered by contents: each start of it by a start of them, and the whole by all,
so that no fewer parentheses are opened among the contents and no more are closed. -/
structure Covers (text : List Char) (contents : List (Kind × String)) : Prop where
  count_opening_le : text.count '(' ≤ opened contents
  closed_le : closed contents ≤ text.count ')'
  exists_front {start : List Char} : start <+: text →
    ∃ front, front <+: contents ∧ start.count '(' ≤ opened front ∧ closed front ≤ start.count ')'

namespace Covers

variable {x y : List Char} {xs ys : List (Kind × String)}

/-- What opens no parenthesis is covered by whatever closes none. -/
theorem of_not_mem (hx : '(' ∉ x) (hxs : closed xs = 0) : Covers x xs where
  count_opening_le := by simp [List.count_eq_zero.mpr hx]
  closed_le := by simp [hxs]
  exists_front {start} hs := by
    have hstart : '(' ∉ start := fun hmem => hx (hs.subset hmem)
    exact ⟨[], List.nil_prefix, by simp [List.count_eq_zero.mpr hstart], Nat.zero_le _⟩

theorem append (hx : Covers x xs) (hy : Covers y ys) : Covers (x ++ y) (xs ++ ys) where
  count_opening_le := by
    rw [List.count_append, opened_append]
    exact Nat.add_le_add hx.count_opening_le hy.count_opening_le
  closed_le := by
    rw [List.count_append, closed_append]
    exact Nat.add_le_add hx.closed_le hy.closed_le
  exists_front {start} hs := by
    rcases prefix_append_cases hs with hs | ⟨more, rfl, hmore⟩
    · obtain ⟨front, hfront, hcounts⟩ := hx.exists_front hs
      exact ⟨front, hfront.trans (List.prefix_append _ _), hcounts⟩
    · obtain ⟨front, hfront, hopened, hclosed⟩ := hy.exists_front hmore
      refine ⟨xs ++ front, (List.prefix_append_right_inj xs).mpr hfront, ?_, ?_⟩
      · rw [List.count_append, opened_append]
        exact Nat.add_le_add hx.count_opening_le hopened
      · rw [List.count_append, closed_append]
        exact Nat.add_le_add hx.closed_le hclosed

/-- A character is covered by a content that opens and closes what it does. -/
theorem of_single {c : Char} {content : Kind × String} (hopened : [c].count '(' = opened [content])
    (hclosed : [c].count ')' = closed [content]) : Covers [c] [content] where
  count_opening_le := hopened.le
  closed_le := hclosed.ge
  exists_front {start} hs := by
    rcases List.prefix_cons_iff.mp hs with rfl | ⟨rest, rfl, hrest⟩
    · exact ⟨[], List.nil_prefix, Nat.le_refl _, Nat.le_refl _⟩
    · rw [List.prefix_nil.mp hrest]
      exact ⟨_, List.prefix_refl _, hopened.le, hclosed.ge⟩

theorem opening : Covers ['('] [(.punctuation .openParen, "(")] := .of_single rfl rfl

theorem closing : Covers [')'] [(.punctuation .closeParen, ")")] := .of_single rfl rfl

/-- Parentheses around a text are covered by those around its contents. -/
theorem parenthesize {text : String} (h : Covers text.toList xs) (wrap : Bool) :
    Covers (Expr.parenthesize wrap text).toList (Expr.wrapContents wrap xs) := by
  cases wrap with
  | false => exact h
  | true => simpa [Expr.parenthesize, Expr.wrapContents] using opening.append (h.append closing)

end Covers

/-- No name in an expression has an opening parenthesis in it. -/
def Expr.NamesOpenNothing (e : Expr) : Prop :=
  ∀ name, .ident name ∈ e.leaves → '(' ∉ name.toList

/-- The source text of an expression is covered by its contents. -/
theorem Expr.covers_source {e : Expr} (h : e.NamesOpenNothing) :
    Covers e.source.toList e.contents := by
  induction e with
  | number value =>
    refine .of_not_mem (fun hmem => ?_) rfl
    rcases Binary64.mem_plainText hmem with hdigit | hmem
    · exact absurd hdigit (by decide)
    · exact absurd hmem (by decide)
  | ident name => exact .of_not_mem (h name (List.mem_singleton_self _)) rfl
  | binary op l r ihl ihr =>
    have hl := ihl fun name hname => h name (List.mem_append_left _ hname)
    have hr := ihr fun name hname => h name (List.mem_append_right _ hname)
    have hop : Covers (" " ++ op.spelling ++ " ").toList
        [(.operator op.operator, op.spelling)] :=
      .of_not_mem (by cases op <;> decide) rfl
    simpa [source, contents] using
      (hl.parenthesize (l.needsParens op .left)).append
        (hop.append (hr.parenthesize (r.needsParens op .right)))

/-- The source text of a program is covered by its contents. -/
theorem Program.covers_source {p : Program} (h : ∀ e ∈ p.body, e.NamesOpenNothing) :
    Covers p.source.toList p.contents := by
  obtain ⟨body⟩ := p
  induction body with
  | nil => exact .of_not_mem (by decide) rfl
  | cons e body ih =>
    obtain ⟨he, hbody⟩ := List.forall_mem_cons.mp h
    have hfeed : Covers ['\n'] [] := .of_not_mem (by decide) rfl
    simpa [Program.source, Program.contents] using
      (Expr.covers_source he).append (hfeed.append (ih hbody))

section Tokens

/-- A punctuation mark stands in the tokens of its kind only, and there alone. -/
theorem Matches.count_symbol {kind : Kind} {text : List Char} (h : Matches (some kind) text)
    (mark : Punctuation) :
    text.count mark.symbol = if kind = .punctuation mark then 1 else 0 := by
  have hmark : isWordPart mark.symbol = false ∧ mark.symbol ≠ '.' := by cases mark <;> decide
  -- Neither a word nor a number has a character other than word parts and the point.
  have hzero (hparts : ∀ c ∈ text, isWordPart c = true ∨ c = '.') : text.count mark.symbol = 0 := by
    rw [List.count_eq_zero]
    intro hmem
    rcases hparts _ hmem with hpart | hpoint
    · rw [hmark.1] at hpart
      cases hpart
    · exact hmark.2 hpoint
  have hword (hw : IsWord text) : text.count mark.symbol = 0 := by
    obtain ⟨c, cs, rfl, hc, hcs⟩ := hw
    exact hzero (List.forall_mem_cons.mpr
      ⟨.inl (isWordPart_of_isWordStart hc), fun d hd => .inl (hcs d hd)⟩)
  cases h with
  | punctuation mark' => cases mark <;> cases mark' <;> decide
  | operator op => cases mark <;> cases op <;> decide
  | number hn =>
    rw [if_neg (by simp)]
    exact hzero fun c hc => (hn.isDigit_or_eq c hc).imp_left isWordPart_of_isDigit
  | binding hw _ => rw [if_neg (by simp), hword hw]
  | identifier hw _ => rw [if_neg (by simp), hword hw]

/-- A punctuation mark stands in the pieces whose token it is. -/
theorem Tiles.count_chars {offset : Nat} {pieces : List Piece} (h : Tiles offset pieces)
    {p : Piece} (hp : p ∈ pieces) (mark : Punctuation) :
    p.chars.count mark.symbol = if p.token.kind = .punctuation mark then 1 else 0 := by
  have hgap : p.gap.count mark.symbol = 0 := by
    rw [List.count_eq_zero]
    intro hmem
    have hblank := h.isGap_of_mem_gap hp _ hmem
    cases mark <;> exact absurd hblank (by decide)
  rw [Piece.chars, List.count_append, hgap, Nat.zero_add]
  obtain ⟨ts, hts, hmatches⟩ := h.exists_tokens
  have htoken : p.token ∈ ts ++ [_] := hts ▸ List.mem_map_of_mem hp
  rcases List.mem_append.mp htoken with ht | ht
  · exact (hmatches _ ht).count_symbol mark
  · rw [List.mem_singleton.mp ht]
    rfl

/-- A punctuation mark stands in a text as often as it is one of the tokens. -/
theorem Tiles.count_written {offset : Nat} {pieces : List Piece} (h : Tiles offset pieces)
    {front : List Piece} (hfront : front ⊆ pieces) (mark : Punctuation) :
    (written front).count mark.symbol =
      (front.map Piece.token).countP (·.kind = .punctuation mark) := by
  induction front with
  | nil => rfl
  | cons p front ih =>
    obtain ⟨hp, hfront⟩ := List.cons_subset.mp hfront
    rw [written, List.flatMap_cons, List.count_append, h.count_chars hp mark, ← written, ih hfront,
      List.map_cons, List.countP_cons, Nat.add_comm]
    simp

/-- The first tokens of a text are read from a start of it with the same parentheses. -/
theorem exists_front_of_tokenize {source : String} {tokens start : List Token}
    (h : tokenize source = .ok tokens) (hs : start <+: tokens) :
    ∃ front, front <+: source.toList ∧ front.count '(' = opens start ∧
      front.count ')' = closes start := by
  obtain ⟨pieces, htiles, rfl, hwritten⟩ := exists_tiles_of_tokenize h
  obtain ⟨rest, hrest⟩ := hs
  obtain ⟨front, back, rfl, rfl, -⟩ := List.map_eq_append_iff.mp hrest.symm
  have hfront : front ⊆ front ++ back := List.subset_append_left front back
  refine ⟨written front, ⟨written back, ?_⟩, htiles.count_written hfront .openParen,
    htiles.count_written hfront .closeParen⟩
  rw [← hwritten, written, written, written, List.flatMap_append]

/-- The tokens of canonical text open no more parentheses at once than the printer does, as long as
no name opens one. -/
theorem Program.opensAtMost_of_tokenize {p : Program} {height : Nat} {tokens : List Token}
    (hheight : ∀ e ∈ p.body, e.height ≤ height) (hnames : ∀ e ∈ p.body, e.NamesOpenNothing)
    (h : tokenize p.source = .ok tokens) : OpensAtMost (height - 2) tokens := by
  intro start hs
  obtain ⟨text, htext, hopens, hcloses⟩ := exists_front_of_tokenize h hs
  obtain ⟨front, hfront, hopened, hclosed⟩ := (covers_source hnames).exists_front htext
  have hle := (opensAtMost_of_contents hheight (map_content_unplaced p.contents)).contents hfront
  omega

end Tokens

/-- Wherever the parser meets an opening parenthesis of a stream, fewer groups than the bound are
open. -/
def HasRoom (bound : Nat) (tokens : List Token) : Prop :=
  ∀ before opening after state, tokens = before ++ opening :: after →
    (∀ t ∈ before, t.kind ≠ .endOfInput) → opening.kind = .punctuation .openParen →
    Parser.run (.between []) before = .ok state → (openGroups state).length < bound

/-- The groups that are open are parentheses, so a bound on these leaves room for one more. -/
theorem OpensAtMost.hasRoom {bound : Nat} {tokens : List Token} (h : OpensAtMost bound tokens) :
    HasRoom bound tokens := by
  rintro before opening after state rfl hend hopening hrun
  have hgroups := (reads_of_run hend hrun).1.opens_eq.1
  have hle := h (before ++ [opening]) ⟨after, by simp⟩
  rw [opens_append, closes_append, opens_cons, closes_cons] at hle
  simp [hopening] at hle
  omega

/-- The printer nests no deeper than the tree. It writes the contents of an expression one after the
other, with two parentheses fewer open at once than the expression is high, whatever its leaves are,
and behind each of them an operation with its closing parenthesis, so that no leaf is wrapped. The
parentheses of statements within the limit of 256 are therefore open at most 254 deep, and the
parser that takes them has room for each. Its room does not run out over the text either, if no name
has an opening parenthesis in it; and if the leaves are valid, the text is accepted and means what
was printed. -/
theorem source_nesting_le :
    (∀ e : Expr, (∀ w : Text.Writer, e.writeSource w = (e.contents.map spaced).foldl .write w) ∧
      (2 ≤ e.height → ∀ start, start <+: e.contents →
        opened start ≤ closed start + (e.height - 2)) ∧
      ∀ before c rest, e.contents = before ++ c :: rest → c.1 = .punctuation .openParen →
        ∃ op l r, (Expr.binary op l r).contents ++ [(.punctuation .closeParen, ")")] <+: rest) ∧
    ∀ p : Program, (∀ e ∈ p.body, e.height ≤ 256) →
      (∀ ts : List Token, ts.map Token.content = p.contents →
        OpensAtMost 254 ts ∧ HasRoom 254 ts) ∧
      ((∀ e ∈ p.body, e.NamesOpenNothing) →
        ∀ indent tokens, tokenize (p.render ⟨indent, .source⟩) = .ok tokens →
          OpensAtMost 254 tokens ∧ HasRoom 254 tokens) ∧
      (p.HasValidLeaves → ∀ indent, parseSource (p.render ⟨indent, .source⟩) = .ok p) := by
  refine ⟨fun e => ⟨fun w => ?_, fun _ start hs => Expr.opened_le hs,
    fun before c rest h hc => Expr.exists_operation_of_opening h hc⟩, ?_⟩
  · rw [e.writeSource_eq, Text.Writer.foldl_write, e.join_contents]
  intro p hheight
  refine ⟨fun ts hts => ?_, fun hnames indent tokens htokens => ?_, fun hleaves indent => ?_⟩
  · have hopens := Program.opensAtMost_of_contents hheight hts
    exact ⟨hopens, hopens.hasRoom⟩
  · rw [p.render_source] at htokens
    have hopens := Program.opensAtMost_of_tokenize hheight hnames htokens
    exact ⟨hopens, hopens.hasRoom⟩
  · rw [p.render_source]
    rcases Program.parseSource_source hleaves with ⟨hparse, -⟩ | ⟨⟨e, he, hhigh⟩, -⟩
    · exact hparse
    · exact absurd (hheight e he) (Nat.not_le.mpr hhigh)

/-- Differences that group to the right, as deep as their height allows: both parentheses are open
in front of the third name, and the parser has room for them. -/
theorem source_nesting_le_differences :
    let e : Expr := .binary .sub (.ident "a")
      (.binary .sub (.ident "b") (.binary .sub (.ident "c") (.ident "d")))
    let tokens : List Token :=
      [⟨.identifier, "a", ⟨0, 1⟩⟩, ⟨.operator .minus, "-", ⟨2, 3⟩⟩,
        ⟨.punctuation .openParen, "(", ⟨4, 5⟩⟩, ⟨.identifier, "b", ⟨5, 6⟩⟩,
        ⟨.operator .minus, "-", ⟨7, 8⟩⟩, ⟨.punctuation .openParen, "(", ⟨9, 10⟩⟩,
        ⟨.identifier, "c", ⟨10, 11⟩⟩, ⟨.operator .minus, "-", ⟨12, 13⟩⟩,
        ⟨.identifier, "d", ⟨14, 15⟩⟩, ⟨.punctuation .closeParen, ")", ⟨15, 16⟩⟩,
        ⟨.punctuation .closeParen, ")", ⟨16, 17⟩⟩, .endOfInput 18]
    e.source = "a - (b - (c - d))" ∧ 2 ≤ e.height ∧ e.height ≤ 256 ∧
      (∀ start, start <+: e.contents → opened start ≤ closed start + (e.height - 2)) ∧
      opened (e.contents.take 6) = closed (e.contents.take 6) + (e.height - 2) ∧
      tokenize ((Program.mk [e]).render ⟨2, .source⟩) = .ok tokens ∧ OpensAtMost 254 tokens ∧
      HasRoom 254 tokens ∧ parseSource ((Program.mk [e]).render ⟨2, .source⟩) = .ok ⟨[e]⟩ := by
  intro e tokens
  have hheight : 2 ≤ e.height := by decide
  have hlow : ∀ d ∈ (Program.mk [e]).body, d.height ≤ 256 := by decide
  have hname (name : String) (h : name ∈ ["a", "b", "c", "d"]) :
      IsName name ∧ '(' ∉ name.toList := by
    simp only [List.mem_cons, List.not_mem_nil, or_false] at h
    rcases h with rfl | rfl | rfl | rfl <;>
      exact ⟨⟨⟨_, [], rfl, by decide, by simp⟩, fun word => by cases word; decide⟩, by decide⟩
  have hleaf (name : String) (h : .ident name ∈ e.leaves) : name ∈ ["a", "b", "c", "d"] := by
    simpa [e, Expr.leaves] using h
  have hnames : ∀ d ∈ (Program.mk [e]).body, d.NamesOpenNothing := by
    intro d hd
    obtain rfl := List.mem_singleton.mp hd
    exact fun name h => (hname name (hleaf name h)).2
  have hvalid : (Program.mk [e]).HasValidLeaves := by
    intro d hd
    obtain rfl := List.mem_singleton.mp hd
    exact e.hasValidLeaves_iff.mpr
      ⟨fun x h => by simp [e, Expr.leaves] at h, fun name h => (hname name (hleaf name h)).1⟩
  have htokens : tokenize ((Program.mk [e]).render ⟨2, .source⟩) = .ok tokens := by decide +kernel
  obtain ⟨-, htext, hparse⟩ := source_nesting_le.2 _ hlow
  obtain ⟨hopens, hroom⟩ := htext hnames 2 tokens htokens
  exact ⟨by decide +kernel, hheight, by decide, (source_nesting_le.1 e).2.1 hheight, by decide,
    htokens, hopens, hroom, hparse hvalid 2⟩

/-- A name may bring more parentheses than any tree: the text of one leaf, whose name is spelled
with 257 of them, is refused at the last one, which finds 256 groups open. -/
theorem parseSource_name_of_parentheses :
    let p : Program := ⟨[.ident (String.ofList (List.replicate 257 '('))]⟩
    let text := p.render ⟨2, .source⟩
    (∀ e ∈ p.body, e.height = 1) ∧ text.toList = List.replicate 257 '(' ++ ['\n'] ∧
      parseSource text = .error ⟨.nestingTooDeep 256, ⟨256, 257⟩⟩ := by
  intro p text
  have hheight : ∀ e ∈ p.body, e.height = 1 := by decide
  have hsource (name : String) :
      (Program.render ⟨[.ident name]⟩ ⟨2, .source⟩).toList = name.toList ++ ['\n'] := by
    simp [Program.render_source, Program.source, Expr.source]
  have htext : text.toList = List.replicate 257 '(' ++ ['\n'] := by
    rw [hsource, String.toList_ofList]
  refine ⟨hheight, htext, ?_⟩
  rw [parseSource, tokenize, htext]
  decide +kernel

end Abacus
