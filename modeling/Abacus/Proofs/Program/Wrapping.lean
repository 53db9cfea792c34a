import Abacus.Proofs.Grammar.Excess
import Abacus.Proofs.Program.Juxtaposition
import Mathlib.Data.List.Infix

/-!
# Needless parentheses

A pair of parentheses around a text that means one statement is read around its tokens, which move
by one byte. The tokens derive the same expression, and one parenthesis more is open at once. So any
number of pairs leaves the meaning alone as long as no more parentheses are open than the limit, and
beyond it the text is refused at the first parenthesis too many.
-/

namespace Abacus

open Grammar Abacus.Parser
open String (utf8Len utf8Len_toList)

section Depth

variable {ts : List Token} {depth : Nat}

/-- At most so many parentheses are open at once, and at some point that many are. -/
structure HasDepth (ts : List Token) (depth : Nat) : Prop where
  atMost : OpensAtMost depth ts
  attained : ∃ start, start <+: ts ∧ opens start = closes start + depth

/-- The starts of the tokens decide their depth. -/
theorem hasDepth_iff : HasDepth ts depth ↔
    (∀ start ∈ ts.inits, opens start ≤ closes start + depth) ∧
      ∃ start ∈ ts.inits, opens start = closes start + depth := by
  simp only [List.mem_inits]
  exact ⟨fun h => ⟨h.atMost, h.attained⟩, fun h => ⟨h.1, h.2⟩⟩

instance (ts : List Token) (depth : Nat) : Decidable (HasDepth ts depth) :=
  decidable_of_iff' _ hasDepth_iff

namespace HasDepth

/-- Tokens stay below a bound exactly when their depth does. -/
theorem opensAtMost_iff (h : HasDepth ts depth) {bound : Nat} :
    OpensAtMost bound ts ↔ depth ≤ bound := by
  constructor
  · intro hbound
    obtain ⟨start, hs, hopen⟩ := h.attained
    have := hbound start hs
    omega
  · exact h.atMost.mono

/-- Parentheses around balanced tokens are one deeper. -/
theorem group (h : HasDepth ts depth) (hbalanced : opens ts = closes ts) {opening closing : Token}
    (hopen : opening.kind = .punctuation .openParen)
    (hclose : closing.kind = .punctuation .closeParen) :
    HasDepth (opening :: (ts ++ [closing])) (depth + 1) where
  atMost := h.atMost.group hbalanced hopen hclose
  attained := by
    obtain ⟨start, hs, hcount⟩ := h.attained
    refine ⟨opening :: start, ?_, ?_⟩
    · exact List.cons_prefix_cons.mpr ⟨rfl, hs.trans (List.prefix_append ts [closing])⟩
    · simp [opens_cons, closes_cons, hopen, hcount]
      omega

/-- The end of input behind tokens opens and closes nothing. -/
theorem of_concat {last : Nat} (h : HasDepth (ts ++ [.endOfInput last]) depth) :
    HasDepth ts depth where
  atMost start hs := h.atMost start (hs.trans (List.prefix_append _ _))
  attained := by
    obtain ⟨start, hs, hcount⟩ := h.attained
    rcases List.prefix_concat_iff.mp hs with rfl | hs
    · refine ⟨ts, List.prefix_rfl, ?_⟩
      simpa [opens_cons, closes_cons, Token.endOfInput] using hcount
    · exact ⟨start, hs, hcount⟩

end HasDepth

end Depth

section Shift

variable {ts : List Token}

@[simp] theorem opens_map_shift (n : Nat) (ts : List Token) :
    opens (ts.map (Token.shift n)) = opens ts :=
  List.countP_map

@[simp] theorem closes_map_shift (n : Nat) (ts : List Token) :
    closes (ts.map (Token.shift n)) = closes ts :=
  List.countP_map

/-- The depth of tokens does not depend on their places. -/
theorem HasDepth.shift {depth : Nat} (h : HasDepth ts depth) (n : Nat) :
    HasDepth (ts.map (Token.shift n)) depth where
  atMost start hs := by
    obtain ⟨inner, hinner, rfl⟩ := List.prefix_map_iff.mp hs
    simpa using h.atMost inner hinner
  attained := by
    obtain ⟨start, hs, hcount⟩ := h.attained
    exact ⟨start.map (Token.shift n), hs.map _, by simpa using hcount⟩

/-- What tokens derive does not depend on their places. -/
theorem Grammar.Derives.shift {level : Level} {e : Expr} (h : Derives level ts e) (n : Nat) :
    Derives level (ts.map (Token.shift n)) e := by
  induction h with
  | number hk => exact .number hk
  | ident hk => exact .ident hk
  | group hopen hclose _ ih =>
    rw [List.map_cons, List.map_append]
    exact .group hopen hclose ih
  | ofOperand _ ih => exact .ofOperand ih
  | ofProduct _ ih => exact .ofProduct ih
  | multiply hop hk _ _ ihl ihr =>
    rw [List.map_append, List.map_cons]
    exact .multiply hop hk ihl ihr
  | add hop hk _ _ ihl ihr =>
    rw [List.map_append, List.map_cons]
    exact .add hop hk ihl ihr

end Shift

section Reading

/-- A mark is read as itself, whatever stands behind it. -/
theorem munches_cons_punctuation (mark : Punctuation) {offset : Nat} {rest : List Char}
    {tokens : List Token} (h : Munches (offset + 1) rest (.ok tokens)) :
    Munches offset (mark.symbol :: rest)
      (.ok (⟨.punctuation mark, mark.spelling, ⟨offset, offset + 1⟩⟩ :: tokens)) := by
  have hsize : (String.ofList [mark.symbol]).utf8ByteSize = 1 := by cases mark <;> decide
  have hmatch : Matches (some (.punctuation mark)) [mark.symbol] := by
    simpa [Punctuation.spelling] using Matches.punctuation mark
  have hlongest : IsLongest ([mark.symbol] ++ rest) (some (.punctuation mark)) [mark.symbol] rest :=
    hmatch.isLongest fun d _ => by simp [Kind.continues, Kind.isWord]
  have hrest : Munches (offset + (String.ofList [mark.symbol]).utf8ByteSize) rest (.ok tokens) := by
    rwa [hsize]
  have hm := Munches.token hlongest hrest
  rw [hsize] at hm
  exact hm

/-- A pair of parentheses around a text is read around its tokens. -/
theorem tokenize_parenthesized {source : String} {ts : List Token} {last : Nat}
    (h : tokenize source = .ok (ts ++ [.endOfInput last])) :
    ∃ opening closing : Token, ∃ last', opening.kind = .punctuation .openParen ∧
      closing.kind = .punctuation .closeParen ∧
      tokenize ("(" ++ source ++ ")") =
        .ok (opening :: (ts.map (Token.shift 1) ++ [closing]) ++ [.endOfInput last']) := by
  have hsource : Munches (0 + 1) source.toList
      (.ok (ts.map (Token.shift 1) ++ [.endOfInput (last + 1)])) := by
    have hshift := (h ▸ munches_tokenize source).shift 1
    rwa [shiftRead, List.map_append] at hshift
  let behind := 0 + 1 + utf8Len source.toList
  have hclose := munches_cons_punctuation .closeParen (Munches.finish (behind + 1))
  have hinner := hsource.append_cons (continues_of_ofSymbol? rfl) hclose
  have hwhole := munches_cons_punctuation .openParen hinner
  refine ⟨⟨.punctuation .openParen, Punctuation.openParen.spelling, ⟨0, 1⟩⟩,
    ⟨.punctuation .closeParen, Punctuation.closeParen.spelling, ⟨behind, behind + 1⟩⟩, behind + 1,
    rfl, rfl, Munches.tokenize_eq ?_⟩
  simpa [Punctuation.symbol] using hwhole

end Reading

/-- Readable tokens of one statement with the depth of their parentheses. -/
structure IsStatement (ts : List Token) (e : Expr) (depth : Nat) : Prop where
  derives : Derives .sum ts e
  kind_ne : ∀ t ∈ ts, t.kind ≠ .endOfInput
  readable : ∀ t ∈ ts, IsReadable t
  hasDepth : HasDepth ts depth

/-- The text is read as the tokens of one statement. -/
def Spells (source : String) (e : Expr) (depth : Nat) : Prop :=
  ∃ ts last, tokenize source = .ok (ts ++ [.endOfInput last]) ∧ IsStatement ts e depth

/-- The text within a number of pairs of parentheses. -/
def wrapped (k : Nat) (source : String) : String :=
  String.ofList (List.replicate k '(') ++ source ++ String.ofList (List.replicate k ')')

theorem wrapped_succ (k : Nat) (source : String) :
    wrapped (k + 1) source = "(" ++ wrapped k source ++ ")" := by
  rw [← String.toList_inj]
  simp [wrapped, List.replicate_succ, ← List.replicate_succ']

section Statements

variable {source : String} {ts : List Token} {e : Expr} {depth : Nat}

theorem IsStatement.shift (h : IsStatement ts e depth) (n : Nat) :
    IsStatement (ts.map (Token.shift n)) e depth where
  derives := h.derives.shift n
  kind_ne := List.forall_mem_map.mpr h.kind_ne
  readable := List.forall_mem_map.mpr h.readable
  hasDepth := h.hasDepth.shift n

theorem IsStatement.group (h : IsStatement ts e depth) {opening closing : Token}
    (hopen : opening.kind = .punctuation .openParen)
    (hclose : closing.kind = .punctuation .closeParen) :
    IsStatement (opening :: (ts ++ [closing])) e (depth + 1) where
  derives := .ofProduct (.ofOperand (.group hopen hclose h.derives))
  kind_ne := by simpa [or_imp, forall_and, hopen, hclose] using h.kind_ne
  readable := by
    have hmarks : IsReadable opening ∧ IsReadable closing :=
      ⟨isReadable_of_ne (by simp [hopen]), isReadable_of_ne (by simp [hclose])⟩
    simpa [or_imp, forall_and, hmarks] using h.readable
  hasDepth := h.hasDepth.group h.derives.balanced hopen hclose

/-- A pair of parentheses leaves the statement alone and adds one to the depth. -/
theorem Spells.parenthesized (h : Spells source e depth) :
    Spells ("(" ++ source ++ ")") e (depth + 1) := by
  obtain ⟨ts, last, htokens, hts⟩ := h
  obtain ⟨opening, closing, last', hopen, hclose, hwhole⟩ := tokenize_parenthesized htokens
  exact ⟨_, last', hwhole, (hts.shift 1).group hopen hclose⟩

/-- Any number of pairs of parentheses leaves the statement alone and adds to the depth. -/
theorem Spells.wrapped (h : Spells source e depth) (k : Nat) :
    Spells (wrapped k source) e (k + depth) := by
  induction k with
  | zero => simpa [Abacus.wrapped] using h
  | succ k ih =>
    rw [wrapped_succ, Nat.add_right_comm]
    exact ih.parenthesized

/-- Tokens that derive one statement derive its expression. -/
theorem Grammar.DerivesProgram.derives_of_single (h : DerivesProgram ts ⟨[e]⟩) :
    Derives .sum ts e := by
  cases h with
  | cons hd hrest =>
    cases hrest with
    | nil => rwa [List.append_nil]

/-- A text that means one statement spells it with the depth of its tokens. -/
theorem spells_of_parseSource {tokens : List Token} (hp : parseSource source = .ok ⟨[e]⟩)
    (htokens : tokenize source = .ok tokens) (hdepth : HasDepth tokens depth) :
    Spells source e depth := by
  obtain ⟨ts, last, rfl, hts⟩ := exists_tokens_of_tokenize htokens
  rw [parseSource_of_ok htokens] at hp
  have hend : ∀ t ∈ ts, t.kind ≠ .endOfInput := fun t ht => (hts t ht).1
  obtain ⟨hd, hread, -⟩ := derives_of_parse_eq_ok (kind_getLast?_concat ts last) hp
  rw [sentence_concat hend] at hd hread
  exact ⟨ts, last, htokens, hd.derives_of_single, hend, hread, hdepth.of_concat⟩

end Statements

/-- Needless parentheses are transparent up to the limit. A text that means one statement and opens
at most `m` parentheses at once, at some point that many, means the same within `k` pairs of
parentheses if `k + m` is at most 256. Otherwise it is refused for its nesting, and the error stands
at the first opening parenthesis, in the order of the tokens, before which 256 are open. -/
theorem parseSource_wrapped (source : String) (e : Expr) (hp : parseSource source = .ok ⟨[e]⟩)
    (tokens : List Token) (htokens : tokenize source = .ok tokens) (m : Nat)
    (hm : HasDepth tokens m) (k : Nat) :
    (k + m ≤ 256 → parseSource (wrapped k source) = .ok ⟨[e]⟩) ∧
      (256 < k + m → ∃ before t after, tokenize (wrapped k source) = .ok (before ++ t :: after) ∧
        t.kind = .punctuation .openParen ∧ opens before = closes before + 256 ∧
        (∀ before' t' after', before ++ t :: after = before' ++ t' :: after' →
          t'.kind = .punctuation .openParen → opens before' = closes before' + 256 →
          before.length ≤ before'.length) ∧
        parseSource (wrapped k source) = .error ⟨.nestingTooDeep 256, t.span⟩) := by
  have hheight : e.height ≤ nestingLimit :=
    (hasValidLeaves_of_parseSource hp).2 e (List.mem_singleton_self e)
  obtain ⟨ts, last, hread, hts⟩ := (spells_of_parseSource hp htokens hm).wrapped k
  have hparse := hts.derives.parse_statement hts.kind_ne hts.readable hheight last
  rw [hts.hasDepth.opensAtMost_iff, nestingLimit] at hparse
  rw [parseSource_of_ok hread]
  refine ⟨hparse.1, fun hexceeds => ?_⟩
  obtain ⟨before, t, after, hfirst, herror⟩ := hparse.2 (Nat.not_le.mpr hexceeds)
  have hclosed := hfirst.append [.endOfInput last]
  have hsplit := hclosed.split
  refine ⟨before, t, after ++ [.endOfInput last], hsplit ▸ hread, hfirst.opening, hfirst.full, ?_,
    herror⟩
  intro before' t' after' hother hopen hfull
  exact hclosed.length_le (hsplit.trans hother) hopen hfull

/-- Two groups, one inside the other, in a product: the text has depth two, means the same within
254 pairs of parentheses and is refused within 255. -/
theorem parseSource_wrapped_product :
    let source := "a*((b-1))"
    let e : Expr := .binary .mul (.ident "a")
      (.binary .sub (.ident "b") (.number (.ofBits 0x3ff0000000000000)))
    parseSource source = .ok ⟨[e]⟩ ∧
      (∃ tokens, tokenize source = .ok tokens ∧ HasDepth tokens 2) ∧
      parseSource (wrapped 254 source) = .ok ⟨[e]⟩ ∧
      ∃ span, parseSource (wrapped 255 source) = .error ⟨.nestingTooDeep 256, span⟩ := by
  intro source e
  have hp : parseSource source = .ok ⟨[e]⟩ := by decide +kernel
  let tokens : List Token :=
    [⟨.identifier, "a", ⟨0, 1⟩⟩, ⟨.operator .star, "*", ⟨1, 2⟩⟩,
      ⟨.punctuation .openParen, "(", ⟨2, 3⟩⟩, ⟨.punctuation .openParen, "(", ⟨3, 4⟩⟩,
      ⟨.identifier, "b", ⟨4, 5⟩⟩, ⟨.operator .minus, "-", ⟨5, 6⟩⟩, ⟨.number, "1", ⟨6, 7⟩⟩,
      ⟨.punctuation .closeParen, ")", ⟨7, 8⟩⟩, ⟨.punctuation .closeParen, ")", ⟨8, 9⟩⟩,
      .endOfInput 9]
  have htokens : tokenize source = .ok tokens := by decide +kernel
  have hdepth : HasDepth tokens 2 := by decide +kernel
  have hwithin := parseSource_wrapped source e hp tokens htokens 2 hdepth 254
  have hbeyond := parseSource_wrapped source e hp tokens htokens 2 hdepth 255
  obtain ⟨-, t, -, -, -, -, -, herror⟩ := hbeyond.2 (by decide)
  exact ⟨hp, ⟨tokens, htokens, hdepth⟩, hwithin.1 (by decide), t.span, herror⟩

end Abacus
