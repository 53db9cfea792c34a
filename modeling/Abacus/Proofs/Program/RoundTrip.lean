import Abacus.Proofs.Grammar.Acceptance
import Abacus.Proofs.Program.Canonical
import Abacus.Proofs.Program.Writer
import Abacus.Proofs.Token.Tiling

/-!
# Canonical text and back

The canonical text of a program is parsed to the program itself, as long as no statement is higher
than the limit, and to the error of excessive nesting otherwise. Every program that a text means has
the leaves that canonical text can carry and stays within the limit, so that formatting keeps the
meaning of a text and its results are exactly the texts it leaves alone. Conversely each program
with such leaves and heights is meant by its canonical text, which gives the image of the front end.
-/

namespace Abacus

open Grammar

section Reading

/-- A text that is read means what its tokens are parsed to. -/
theorem parseSource_of_ok {source : String} {tokens : List Token}
    (h : tokenize source = .ok tokens) : parseSource source = parse tokens := by
  rw [parseSource, h]
  rfl

/-- A text that is not read is refused with the error of reading it. -/
theorem parseSource_of_error {source : String} {e : Error} (h : tokenize source = .error e) :
    parseSource source = .error e := by
  rw [parseSource, h]
  rfl

/-- A text means a program exactly when its tokens are parsed to it. -/
theorem parseSource_eq_ok_iff {source : String} {p : Program} :
    parseSource source = .ok p ↔
      ∃ tokens, tokenize source = .ok tokens ∧ parse tokens = .ok p := by
  cases htokens : tokenize source with
  | error e => simp [parseSource_of_error htokens]
  | ok tokens => simp [parseSource_of_ok htokens]

/-- The only end of input of a text closes its tokens, and the others belong to their classes. -/
theorem exists_tokens_of_tokenize {source : String} {tokens : List Token}
    (h : tokenize source = .ok tokens) :
    ∃ ts last, tokens = ts ++ [.endOfInput last] ∧
      ∀ t ∈ ts, t.kind ≠ .endOfInput ∧ Matches (some t.kind) t.text.toList := by
  obtain ⟨pieces, htiles, rfl, -⟩ := exists_tiles_of_tokenize h
  obtain ⟨ts, hts, hmatches⟩ := htiles.exists_tokens
  exact ⟨ts, _, hts, fun t ht => ⟨(hmatches t ht).ne_of_some.1, hmatches t ht⟩⟩

/-- Every token of a text but the end of input belongs to the class of its kind. -/
theorem matches_of_mem_tokenize {source : String} {tokens : List Token}
    (h : tokenize source = .ok tokens) {t : Token} (ht : t ∈ tokens) (hk : t.kind ≠ .endOfInput) :
    Matches (some t.kind) t.text.toList := by
  obtain ⟨ts, last, rfl, hts⟩ := exists_tokens_of_tokenize h
  rcases List.mem_append.mp ht with ht | ht
  · exact (hts t ht).2
  · obtain rfl := List.mem_singleton.mp ht
    exact absurd rfl hk

/-- Every identifier among the tokens of a text is a name. -/
theorem isName_of_mem_tokenize {source : String} {tokens : List Token}
    (h : tokenize source = .ok tokens) {t : Token} (ht : t ∈ tokens) (hk : t.kind = .identifier) :
    IsName t.text := by
  have hmatch := matches_of_mem_tokenize h ht (by simp [hk])
  rw [hk] at hmatch
  cases hmatch with
  | identifier hword hne =>
    refine ⟨hword, ?_⟩
    rintro ⟨⟩ heq
    exact hne (congrArg String.toList heq)

/-- The leaves of an expression from left to right. -/
def Expr.leaves : Expr → List Expr
  | number value => [.number value]
  | ident name => [.ident name]
  | binary _ left right => left.leaves ++ right.leaves

/-- The leaves of an expression are valid when each of them is. -/
theorem Expr.hasValidLeaves_iff (e : Expr) :
    e.HasValidLeaves ↔
      (∀ x, .number x ∈ e.leaves → x.IsFinite ∧ x.negative = false) ∧
        ∀ name, .ident name ∈ e.leaves → IsName name := by
  induction e with
  | number value => simp [HasValidLeaves, leaves]
  | ident name => simp [HasValidLeaves, leaves]
  | binary op l r ihl ihr =>
    simp only [HasValidLeaves, leaves, ihl, ihr, List.mem_append, or_imp, forall_and]
    tauto

/-- Every leaf of a derived expression is what one of the tokens stands for. -/
theorem Grammar.Derives.exists_of_mem_leaves {level : Level} {ts : List Token} {d e : Expr}
    (h : Derives level ts e) (hd : d ∈ e.leaves) :
    ∃ t ∈ ts, (t.kind = .number ∧ d = .number (numberOf t)) ∨
      (t.kind = .identifier ∧ d = .ident t.text) := by
  induction h with
  | @number t hk => exact ⟨t, List.mem_singleton_self t, .inl ⟨hk, List.mem_singleton.mp hd⟩⟩
  | @ident t hk => exact ⟨t, List.mem_singleton_self t, .inr ⟨hk, List.mem_singleton.mp hd⟩⟩
  | group _ _ _ ih =>
    obtain ⟨t, ht, hleaf⟩ := ih hd
    exact ⟨t, by simp [ht], hleaf⟩
  | ofOperand _ ih | ofProduct _ ih => exact ih hd
  | multiply _ _ _ _ ihl ihr | add _ _ _ _ ihl ihr =>
    rcases List.mem_append.mp hd with hd | hd
    · obtain ⟨t, ht, hleaf⟩ := ihl hd
      exact ⟨t, by simp [ht], hleaf⟩
    · obtain ⟨t, ht, hleaf⟩ := ihr hd
      exact ⟨t, by simp [ht], hleaf⟩

/-- Every leaf of derived statements is what one of the tokens stands for. -/
theorem Grammar.DerivesBody.exists_of_mem_leaves {ts : List Token} {body : List Expr}
    (h : DerivesBody ts body) {d e : Expr} (he : e ∈ body) (hd : d ∈ e.leaves) :
    ∃ t ∈ ts, (t.kind = .number ∧ d = .number (numberOf t)) ∨
      (t.kind = .identifier ∧ d = .ident t.text) := by
  induction h with
  | nil => cases he
  | cons hfirst _ ih =>
    rcases List.mem_cons.mp he with rfl | he
    · obtain ⟨t, ht, hleaf⟩ := hfirst.exists_of_mem_leaves hd
      exact ⟨t, List.mem_append_left _ ht, hleaf⟩
    · obtain ⟨t, ht, hleaf⟩ := ih he
      exact ⟨t, List.mem_append_right _ ht, hleaf⟩

/-- The statements of an accepted stream are within the limit, their numbers are finite and have no
sign, and their names are the texts of identifiers in the stream. -/
theorem leaves_of_parse_eq_ok {tokens : List Token} {p : Program} (h : parse tokens = .ok p) :
    ∀ e ∈ p.body, e.height ≤ nestingLimit ∧
      (∀ x, .number x ∈ e.leaves → x.IsFinite ∧ x.negative = false) ∧
      ∀ name, .ident name ∈ e.leaves → ∃ t ∈ tokens, t.kind = .identifier ∧ t.text = name := by
  obtain ⟨hd, hread, -, hheight⟩ := derives_of_parse_eq_ok (getLast?_of_parse_eq_ok h) h
  intro e he
  refine ⟨hheight e he, fun x hx => ?_, fun name hname => ?_⟩
  · obtain ⟨t, ht, ⟨hk, hvalue⟩ | ⟨-, hvalue⟩⟩ := DerivesBody.exists_of_mem_leaves hd he hx
    · cases hvalue
      exact Binary64.isFinite_of_ofText? ((isReadable_iff t).mp (hread t ht) hk)
    · cases hvalue
  · obtain ⟨t, ht, ⟨-, hvalue⟩ | ⟨hk, hvalue⟩⟩ := DerivesBody.exists_of_mem_leaves hd he hname
    · cases hvalue
    · cases hvalue
      exact ⟨t, (List.takeWhile_prefix _).subset ht, hk, rfl⟩

/-- Every program that a text means has valid leaves and is no higher than the limit. -/
theorem hasValidLeaves_of_parseSource {source : String} {p : Program}
    (h : parseSource source = .ok p) :
    p.HasValidLeaves ∧ ∀ e ∈ p.body, e.height ≤ nestingLimit := by
  obtain ⟨tokens, htokens, hp⟩ := parseSource_eq_ok_iff.mp h
  have hleaves := leaves_of_parse_eq_ok hp
  refine ⟨fun e he => e.hasValidLeaves_iff.mpr ⟨(hleaves e he).2.1, fun name hname => ?_⟩,
    fun e he => (hleaves e he).1⟩
  obtain ⟨t, ht, hk, rfl⟩ := (hleaves e he).2.2 name hname
  exact isName_of_mem_tokenize htokens ht hk

end Reading

section Writing

/-- A text with the contents of a program is parsed to the program or rejected for its nesting. -/
theorem Program.parseSource_of_scans {p : Program} (hp : p.HasValidLeaves) {source : String}
    (hscans : Scans source.toList p.contents []) :
    (parseSource source = .ok p ∧ ∀ e ∈ p.body, e.height ≤ nestingLimit) ∨
      (∃ e ∈ p.body, nestingLimit < e.height) ∧
        ∃ span, parseSource source = .error (Parser.tooDeep span) := by
  obtain ⟨ts, offset, hts, htokens⟩ := hscans.tokenize_eq
  have hsentence : Parser.sentence (ts ++ [.endOfInput offset]) = ts :=
    sentence_concat (fun t ht => (Program.isReadable_of_contents hp hts ht).2) offset
  have hlast := kind_getLast?_concat ts offset
  have hread : ∀ t ∈ ts, IsReadable t := fun t ht => (Program.isReadable_of_contents hp hts ht).1
  have hd := Program.derives_of_contents hp hts
  rw [parseSource_of_ok htokens]
  rcases parse_of_derives hlast (hsentence.symm ▸ hd) (hsentence.symm ▸ hread) with
    hparse | ⟨hfits, hdeep⟩
  · obtain ⟨-, -, -, hheight⟩ := derives_of_parse_eq_ok hlast hparse
    exact .inl ⟨hparse, hheight⟩
  · refine .inr ⟨?_, hdeep⟩
    -- The parentheses of canonical text stay below the heights, so a height exceeds the limit.
    by_contra hlow
    push Not at hlow
    have hdepth := (Program.opensAtMost_of_contents hlow hts).mono (Nat.sub_le _ 2)
    rw [hsentence] at hfits
    exact hfits ⟨fun start hs => by simpa using hdepth start hs, hlow⟩

/-- Canonical text is parsed to its program or rejected for its nesting. -/
theorem Program.parseSource_source {p : Program} (hp : p.HasValidLeaves) :
    (parseSource p.source = .ok p ∧ ∀ e ∈ p.body, e.height ≤ nestingLimit) ∨
      (∃ e ∈ p.body, nestingLimit < e.height) ∧
        ∃ span, parseSource p.source = .error (Parser.tooDeep span) :=
  parseSource_of_scans hp (scans_source hp)

/-- The source layout of a program with valid leaves is parsed to the same program when no statement
is higher than 256, and rejected for its nesting when one is. -/
theorem Program.parseSource_render (p : Program) (hp : p.HasValidLeaves) (indent : Nat) :
    ((∀ e ∈ p.body, e.height ≤ 256) → parseSource (p.render ⟨indent, .source⟩) = .ok p) ∧
      ((∃ e ∈ p.body, 256 < e.height) →
        ∃ span, parseSource (p.render ⟨indent, .source⟩) = .error ⟨.nestingTooDeep 256, span⟩) := by
  have hrender := p.render_source indent
  rw [hrender]
  rcases Program.parseSource_source hp with ⟨hparse, hlow⟩ | ⟨⟨e, he, hhigh⟩, hdeep⟩
  · refine ⟨fun _ => hparse, ?_⟩
    rintro ⟨e, he, hhigh⟩
    exact absurd (hlow e he) (Nat.not_le.mpr hhigh)
  · refine ⟨?_, fun _ => hdeep⟩
    intro hlow
    exact absurd (hlow e he) (Nat.not_le.mpr hhigh)

/-- A difference inside a product has valid leaves and is parsed back; differences nested one higher
than the limit have valid leaves and are rejected. -/
theorem Program.parseSource_render_nested :
    let low : Program :=
      ⟨[.binary .mul (.ident "π")
        (.binary .sub (.number (.ofBits 0x3fe0000000000000)) (.ident "x"))]⟩
    let high : Program := ⟨[(Expr.binary .sub (.ident "x"))^[256] (.ident "x")]⟩
    (low.HasValidLeaves ∧ parseSource (low.render ⟨2, .source⟩) = .ok low) ∧
      high.HasValidLeaves ∧
        ∃ span, parseSource (high.render ⟨2, .source⟩) = .error ⟨.nestingTooDeep 256, span⟩ := by
  intro low high
  have hx : IsName "x" := ⟨⟨'x', [], rfl, by decide, by simp⟩, fun word => by cases word; decide⟩
  have hpi : IsName "π" := ⟨⟨'π', [], rfl, by decide, by simp⟩, fun word => by cases word; decide⟩
  have hlow : low.HasValidLeaves := by
    simp only [low, HasValidLeaves, List.mem_singleton, forall_eq]
    exact ⟨hpi, ⟨by decide, by decide⟩, hx⟩
  have hnested (n : Nat) :
      ((Expr.binary .sub (.ident "x"))^[n] (.ident "x")).HasValidLeaves ∧
        ((Expr.binary .sub (.ident "x"))^[n] (.ident "x")).height = n + 1 := by
    induction n with
    | zero => exact ⟨hx, rfl⟩
    | succ n ih =>
      rw [Function.iterate_succ_apply']
      refine ⟨⟨hx, ih.1⟩, ?_⟩
      simp only [Expr.height, ih.2]
      omega
  have hhigh : high.HasValidLeaves := by
    simp only [high, HasValidLeaves, List.mem_singleton, forall_eq]
    exact (hnested 256).1
  refine ⟨⟨hlow, (parseSource_render low hlow 2).1 (by decide)⟩, hhigh, ?_⟩
  refine (parseSource_render high hhigh 2).2 ⟨_, List.mem_singleton_self _, ?_⟩
  rw [(hnested 256).2]
  decide

end Writing

section Formatting

/-- A text has a canonical form if it means a program, whose source text it is. -/
theorem formatSource_eq_ok_iff {source formatted : String} :
    formatSource source = .ok formatted ↔
      ∃ p, parseSource source = .ok p ∧ p.source = formatted := by
  unfold formatSource
  cases parseSource source with
  | error e => simp [Except.map]
  | ok p => simp [Except.map, Program.render_source]

/-- The canonical form of a text means what the text means, and is its own canonical form. -/
theorem parseSource_of_formatSource {source formatted : String}
    (h : formatSource source = .ok formatted) :
    parseSource formatted = parseSource source ∧ formatSource formatted = .ok formatted := by
  obtain ⟨p, hp, rfl⟩ := formatSource_eq_ok_iff.mp h
  obtain ⟨hleaves, hheight⟩ := hasValidLeaves_of_parseSource hp
  have hparse : parseSource p.source = .ok p := by
    rcases Program.parseSource_source hleaves with ⟨hparse, -⟩ | ⟨⟨e, he, hhigh⟩, -⟩
    · exact hparse
    · exact absurd (hheight e he) (Nat.not_le.mpr hhigh)
  exact ⟨hparse.trans hp.symm, formatSource_eq_ok_iff.mpr ⟨p, hparse, rfl⟩⟩

/-- A text is in canonical form exactly when formatting leaves it alone. -/
theorem isFormatted_eq_true_iff {source : String} :
    isFormatted source = .ok true ↔ formatSource source = .ok source := by
  unfold isFormatted
  cases formatSource source with
  | error e => simp [Except.map]
  | ok formatted => simpa [Except.map] using eq_comm

/-- Formatting keeps the meaning of a text and brings it into canonical form, and the texts in
canonical form are exactly the results of formatting. -/
theorem formatSource_canonical :
    (∀ source formatted, formatSource source = .ok formatted →
      parseSource formatted = parseSource source ∧ formatSource formatted = .ok formatted ∧
        isFormatted formatted = .ok true) ∧
      ∀ text, isFormatted text = .ok true ↔ ∃ source, formatSource source = .ok text := by
  constructor
  · intro source formatted h
    obtain ⟨hparse, hformat⟩ := parseSource_of_formatSource h
    exact ⟨hparse, hformat, isFormatted_eq_true_iff.mpr hformat⟩
  · intro text
    constructor
    · intro h
      exact ⟨text, isFormatted_eq_true_iff.mp h⟩
    · rintro ⟨source, h⟩
      exact isFormatted_eq_true_iff.mpr (parseSource_of_formatSource h).2

/-- Redundant blanks and parentheses, and a fraction with a trailing zero: formatting succeeds, and
its result means the same program and is left alone. -/
theorem formatSource_canonical_redundant :
    let source := "((1))*(π  - 0.50)\n2"
    let formatted := "1 * (π - 0.5)\n2\n"
    formatSource source = .ok formatted ∧ parseSource formatted = parseSource source ∧
      isFormatted formatted = .ok true := by
  intro source formatted
  have h : formatSource source = .ok formatted := by decide +kernel
  obtain ⟨hparse, -, hformatted⟩ := formatSource_canonical.1 source formatted h
  exact ⟨h, hparse, hformatted⟩

end Formatting

section Image

/-- The programs that texts mean are exactly those with every statement within the height limit,
every number finite and without a sign, and every identifier a name. The programs of arbitrary
streams of tokens are within the same limit and have such numbers, and their identifiers are texts
of identifier tokens. -/
theorem parseSource_image :
    (∀ p : Program, (∃ source, parseSource source = .ok p) ↔
      ∀ e ∈ p.body, e.height ≤ 256 ∧
        (∀ x, .number x ∈ e.leaves → x.IsFinite ∧ x.negative = false) ∧
        ∀ name, .ident name ∈ e.leaves → IsName name) ∧
      ∀ tokens p, parse tokens = .ok p → ∀ e ∈ p.body, e.height ≤ 256 ∧
        (∀ x, .number x ∈ e.leaves → x.IsFinite ∧ x.negative = false) ∧
        ∀ name, .ident name ∈ e.leaves → ∃ t ∈ tokens, t.kind = .identifier ∧ t.text = name := by
  refine ⟨fun p => ⟨?_, fun hp => ?_⟩, fun tokens p => leaves_of_parse_eq_ok⟩
  · rintro ⟨source, h⟩ e he
    obtain ⟨hleaves, hheight⟩ := hasValidLeaves_of_parseSource h
    exact ⟨hheight e he, e.hasValidLeaves_iff.mp (hleaves e he)⟩
  · have hleaves : p.HasValidLeaves := fun e he => e.hasValidLeaves_iff.mpr (hp e he).2
    rcases Program.parseSource_source hleaves with ⟨hparse, -⟩ | ⟨⟨e, he, hhigh⟩, -⟩
    · exact ⟨p.source, hparse⟩
    · exact absurd (hp e he).1 (Nat.not_le.mpr hhigh)

/-- Tokens made by hand, a number in scientific notation and an identifier spelled like the keyword:
they are accepted, the number is finite and the name is the text of a token, but no text means this
program. -/
theorem parseSource_image_keyword :
    let tokens : List Token :=
      [⟨.number, "1e5", ⟨0, 3⟩⟩, ⟨.operator .minus, "-", ⟨3, 4⟩⟩, ⟨.identifier, "let", ⟨4, 7⟩⟩,
        .endOfInput 7]
    let p : Program := ⟨[.binary .sub (.number (.ofBits 0x40f86a0000000000)) (.ident "let")]⟩
    parse tokens = .ok p ∧
      (∀ e ∈ p.body, e.height ≤ 256 ∧
        (∀ x, .number x ∈ e.leaves → x.IsFinite ∧ x.negative = false) ∧
        ∀ name, .ident name ∈ e.leaves → ∃ t ∈ tokens, t.kind = .identifier ∧ t.text = name) ∧
      ¬ ∃ source, parseSource source = .ok p := by
  intro tokens p
  have hparse : parse tokens = .ok p := by decide +kernel
  refine ⟨hparse, parseSource_image.2 tokens p hparse, fun hsource => ?_⟩
  obtain ⟨-, -, hname⟩ := (parseSource_image.1 p).mp hsource _ (List.mem_singleton_self _)
  exact (hname "let" (by simp [Expr.leaves])).2 .binding rfl

end Image

end Abacus
