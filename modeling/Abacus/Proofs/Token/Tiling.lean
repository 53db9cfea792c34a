import Abacus.Proofs.Token.Munch
import Mathlib.Data.List.Chain
import Mathlib.Data.String.Basic

/-!
# Tokens tile their text

Reading a text loses nothing of it. In front of every token stands a gap of blanks, perhaps an empty
one, and the gaps and the texts of the tokens are the whole text, in order. The spans of the tokens
are the places where their texts are written, counted in bytes. A text that is refused is tiled up
to the character at which it is refused.
-/

namespace Abacus

open String (utf8Len utf8Len_append utf8Len_cons utf8Len_toList utf8ByteSize_ofList)

/-- The characters of a source between the ends of a span. -/
def Span.slice (span : Span) (source : String) : String :=
  String.Pos.Raw.extract source ⟨span.start⟩ ⟨span.stop⟩

/-- A span inside a source whose ends lie between characters. -/
structure Span.FitsIn (span : Span) (source : String) : Prop where
  start_le_stop : span.start ≤ span.stop
  stop_le_size : span.stop ≤ source.utf8ByteSize
  isValid_start : String.Pos.Raw.IsValid source ⟨span.start⟩
  isValid_stop : String.Pos.Raw.IsValid source ⟨span.stop⟩

/-- The span is a place where the text stands in a source that starts at an offset. -/
def Span.Locates (span : Span) (offset : Nat) (source text : List Char) : Prop :=
  ∃ before after, source = before ++ (text ++ after) ∧ span.start = offset + utf8Len before ∧
    span.stop = span.start + utf8Len text

namespace Span

theorem isValid_of_append {source : String} {before after : List Char}
    (h : source.toList = before ++ after) : String.Pos.Raw.IsValid source ⟨utf8Len before⟩ := by
  rw [String.Pos.Raw.isValid_iff_exists_append]
  refine ⟨String.ofList before, String.ofList after, ?_, ?_⟩
  · rw [← String.ofList_append, ← h, String.ofList_toList]
  · rw [String.rawEndPos_ofList]

theorem Locates.fitsIn {span : Span} {source : String} {text : List Char}
    (h : span.Locates 0 source.toList text) : span.FitsIn source := by
  obtain ⟨before, after, hsource, hstart, hstop⟩ := h
  have hsize : source.utf8ByteSize = utf8Len before + (utf8Len text + utf8Len after) := by
    rw [← utf8Len_toList, hsource, utf8Len_append, utf8Len_append]
  rw [Nat.zero_add] at hstart
  have hstop' : span.stop = utf8Len (before ++ text) := by rw [hstop, hstart, utf8Len_append]
  refine ⟨by omega, by omega, ?_, ?_⟩
  · rw [hstart]
    exact isValid_of_append hsource
  · rw [hstop']
    exact isValid_of_append (by rw [hsource, List.append_assoc])

theorem Locates.slice_eq {span : Span} {source : String} {text : List Char}
    (h : span.Locates 0 source.toList text) : span.slice source = String.ofList text := by
  obtain ⟨before, after, hsource, hstart, hstop⟩ := h
  rw [Nat.zero_add] at hstart
  rw [slice, hstop, hstart, ← String.ofList_toList (s := source), hsource, ← List.append_assoc]
  exact String.extract_of_valid before text after

/-- A place in a text is a place in the text with others in front of it. -/
theorem Locates.append_left {span : Span} {offset : Nat} {front source text : List Char}
    (h : span.Locates (offset + utf8Len front) source text) :
    span.Locates offset (front ++ source) text := by
  obtain ⟨before, after, hsource, hstart, hstop⟩ := h
  refine ⟨front ++ before, after, by rw [hsource, List.append_assoc], ?_, hstop⟩
  rw [hstart, utf8Len_append, Nat.add_assoc]

end Span

/-- A token with the gap in front of it. -/
structure Piece where
  gap : List Char
  token : Token

/-- The characters of a piece: its gap, then the text of its token. -/
def Piece.chars (p : Piece) : List Char := p.gap ++ p.token.text.toList

/-- The text that pieces make up. -/
def written (pieces : List Piece) : List Char := pieces.flatMap Piece.chars

@[simp] theorem written_nil : written [] = [] := rfl

@[simp] theorem written_cons (p : Piece) (pieces : List Piece) :
    written (p :: pieces) = p.gap ++ (p.token.text.toList ++ written pieces) := by
  simp [written, Piece.chars]

theorem isGap_iff {c : Char} : isGap c = true ↔ c ∈ [' ', '\t', '\r', '\n'] := by
  simp [isGap, or_assoc]

/-- Pieces that tile a text which starts at an offset: every gap is blank, every token belongs to
the class of its kind and has the span of its text, and the end of input closes them. -/
inductive Tiles : Nat → List Piece → Prop
  | finish {offset : Nat} {gap : List Char} : (∀ c ∈ gap, isGap c = true) →
    Tiles offset [⟨gap, .endOfInput (offset + utf8Len gap)⟩]
  | token {offset : Nat} {gap : List Char} {t : Token} {pieces : List Piece} :
    (∀ c ∈ gap, isGap c = true) → Matches (some t.kind) t.text.toList →
    t.span.start = offset + utf8Len gap → t.span.stop = t.span.start + utf8Len t.text.toList →
    Tiles t.span.stop pieces → Tiles offset (⟨gap, t⟩ :: pieces)

namespace Tiles

variable {offset : Nat} {pieces : List Piece}

/-- A blank in front of a tiled text belongs to the first gap. -/
theorem exists_cons_gap {c : Char} (hc : isGap c = true) (h : Tiles (offset + c.utf8Size) pieces) :
    ∃ pieces', Tiles offset pieces' ∧ pieces'.map Piece.token = pieces.map Piece.token ∧
      written pieces' = c :: written pieces := by
  cases h with
  | @finish _ gap hgap =>
    have hoffset : offset + c.utf8Size + utf8Len gap = offset + utf8Len (c :: gap) := by
      rw [utf8Len_cons]
      omega
    rw [hoffset]
    exact ⟨_, .finish (List.forall_mem_cons.mpr ⟨hc, hgap⟩), rfl, rfl⟩
  | @token _ gap t pieces hgap hmatch hstart hstop htail =>
    have hstart' : t.span.start = offset + utf8Len (c :: gap) := by
      rw [hstart, utf8Len_cons]
      omega
    exact ⟨_, .token (List.forall_mem_cons.mpr ⟨hc, hgap⟩) hmatch hstart' hstop htail, rfl, rfl⟩

/-- Every token stands where its span says. -/
theorem locates (h : Tiles offset pieces) {t : Token} (ht : t ∈ pieces.map Piece.token) :
    t.span.Locates offset (written pieces) t.text.toList := by
  induction h with
  | @finish offset gap _ =>
    obtain rfl := List.mem_singleton.mp ht
    exact ⟨gap, [], by simp [Token.endOfInput], rfl, by simp [Token.endOfInput]⟩
  | @token offset gap u pieces _ _ hstart hstop _ ih =>
    rw [written_cons]
    rcases List.mem_cons.mp ht with rfl | ht
    · exact ⟨gap, written pieces, rfl, hstart, hstop⟩
    · rw [← List.append_assoc]
      apply Span.Locates.append_left
      rw [utf8Len_append, ← Nat.add_assoc, ← hstart, ← hstop]
      exact ih ht

/-- No token starts before the one in front of it ends. -/
theorem isChain (h : Tiles offset pieces) :
    (pieces.map Piece.token).IsChain fun t u => t.span.stop ≤ u.span.start := by
  induction h with
  | finish _ => exact .singleton _
  | @token offset gap t pieces _ _ _ _ htail ih =>
    refine ih.cons ?_
    intro u hu
    cases htail with
    | finish _ =>
      obtain rfl : Token.endOfInput _ = u := by simpa using hu
      exact Nat.le_add_right _ _
    | token _ _ hstart _ _ =>
      obtain rfl := by simpa using hu
      exact hstart ▸ Nat.le_add_right _ _

/-- The only end of input stands at the end of the text, behind tokens of their classes. -/
theorem exists_tokens (h : Tiles offset pieces) :
    ∃ ts, pieces.map Piece.token = ts ++ [.endOfInput (offset + utf8Len (written pieces))] ∧
      ∀ t ∈ ts, Matches (some t.kind) t.text.toList := by
  induction h with
  | finish _ => exact ⟨[], by simp [Token.endOfInput], by simp⟩
  | @token offset gap t pieces _ hmatch hstart hstop _ ih =>
    obtain ⟨ts, hts, hmatches⟩ := ih
    refine ⟨t :: ts, ?_, List.forall_mem_cons.mpr ⟨hmatch, hmatches⟩⟩
    have hoffset : t.span.stop + utf8Len (written pieces) =
        offset + utf8Len (written (⟨gap, t⟩ :: pieces)) := by
      simp only [hstop, hstart, written_cons, utf8Len_append]
      omega
    rw [List.map_cons, hts, hoffset, List.cons_append]

theorem isGap_of_mem_gap (h : Tiles offset pieces) {p : Piece} (hp : p ∈ pieces) :
    ∀ c ∈ p.gap, isGap c = true := by
  induction h with
  | finish hgap =>
    obtain rfl := List.mem_singleton.mp hp
    exact hgap
  | token hgap _ _ _ _ ih =>
    rcases List.mem_cons.mp hp with rfl | hp
    · exact hgap
    · exact ih hp

end Tiles

section Reading

/-- A longest match goes on being one when the text behind it is cut short. -/
theorem IsLongest.shorten {text rest more : List Char} {kind : Option Kind} {source : List Char}
    (h : IsLongest source kind text (rest ++ more)) : IsLongest (text ++ rest) kind text rest where
  split := rfl
  ne_nil := h.ne_nil
  matches_text := h.matches_text
  longest other start hs hm := by
    refine h.longest other start ?_ hm
    rw [h.split, ← List.append_assoc]
    exact hs.trans (List.prefix_append _ _)

/-- A text that is read to its end is tiled by its tokens. -/
theorem Munches.exists_tiles {offset : Nat} {text : List Char} {tokens : List Token}
    (h : Munches offset text (.ok tokens)) :
    ∃ pieces, Tiles offset pieces ∧ pieces.map Piece.token = tokens ∧ written pieces = text := by
  generalize hresult : Except.ok tokens = result at h
  induction h generalizing tokens with
  | finish offset =>
    cases hresult
    exact ⟨_, @Tiles.finish offset [] (by simp), rfl, rfl⟩
  | stuck _ => cases hresult
  | @gap offset source text rest result hl _ ih =>
    obtain ⟨pieces, htiles, htokens, hwritten⟩ := ih hresult
    have hmatch := hl.matches_text
    cases hmatch with
    | @gap c hc =>
      rw [utf8ByteSize_ofList, utf8Len_cons, String.utf8Len_nil, Nat.zero_add] at htiles
      obtain ⟨pieces', htiles', htokens', hwritten'⟩ := htiles.exists_cons_gap (isGap_iff.mpr hc)
      refine ⟨pieces', htiles', htokens'.trans htokens, ?_⟩
      rw [hwritten', hwritten, hl.split]
      rfl
  | @token offset source text rest kind result hl _ ih =>
    cases result with
    | error e => cases hresult
    | ok tail =>
      cases hresult
      obtain ⟨pieces, htiles, rfl, rfl⟩ := ih rfl
      refine ⟨⟨[], _⟩ :: pieces, .token (by simp) ?_ rfl ?_ htiles, rfl, ?_⟩
      · simpa using hl.matches_text
      · rw [utf8ByteSize_ofList, String.toList_ofList]
      · simp [hl.split]

/-- A text that is refused is read up to the character at which it is refused. -/
theorem Munches.exists_refused {offset : Nat} {text : List Char} {error : Error}
    (h : Munches offset text (.error error)) :
    ∃ before c after tokens, text = before ++ c :: after ∧
      error = ⟨.unexpectedCharacter c,
        ⟨offset + utf8Len before, offset + utf8Len before + c.utf8Size⟩⟩ ∧
      Munches offset before (.ok tokens) := by
  generalize hresult : Except.error error = result at h
  induction h with
  | finish offset => cases hresult
  | @stuck offset c cs _ =>
    cases hresult
    exact ⟨[], c, cs, _, rfl, rfl, .finish offset⟩
  | @gap offset source text rest result hl _ ih =>
    obtain ⟨before, c, after, tokens, rfl, rfl, hread⟩ := ih hresult
    refine ⟨text ++ before, c, after, tokens, by rw [hl.split, List.append_assoc], ?_,
      .gap hl.shorten hread⟩
    rw [utf8ByteSize_ofList, utf8Len_append, Nat.add_assoc]
  | @token offset source text rest kind result hl _ ih =>
    cases result with
    | ok tail => cases hresult
    | error e =>
      cases hresult
      obtain ⟨before, c, after, tokens, rfl, rfl, hread⟩ := ih rfl
      refine ⟨text ++ before, c, after, _, by rw [hl.split, List.append_assoc], ?_,
        .token hl.shorten hread⟩
      rw [utf8ByteSize_ofList, utf8Len_append, Nat.add_assoc]

/-- The tokens of a text tile it. -/
theorem exists_tiles_of_tokenize {source : String} {tokens : List Token}
    (h : tokenize source = .ok tokens) :
    ∃ pieces, Tiles 0 pieces ∧ pieces.map Piece.token = tokens ∧
      written pieces = source.toList := by
  have hm := munches_tokenize source
  rw [h] at hm
  exact hm.exists_tiles

/-- No text of a class is empty or belongs to the end of input. -/
theorem Matches.ne_of_some {kind : Kind} {text : String} (h : Matches (some kind) text.toList) :
    kind ≠ .endOfInput ∧ text ≠ "" := by
  constructor
  · rintro rfl
    cases h
  · rintro rfl
    obtain ⟨c, tail, htext, -⟩ := h.exists_head
    cases htext

/-- A text that is refused has a character at the refused place, and the text before it is read. -/
theorem exists_refused_of_tokenize {source : String} {error : Error}
    (h : tokenize source = .error error) :
    ∃ c tokens, error.cause = .unexpectedCharacter c ∧
      error.span.Locates 0 source.toList [c] ∧
      tokenize (Span.slice ⟨0, error.span.start⟩ source) = .ok tokens := by
  have hm := munches_tokenize source
  rw [h] at hm
  obtain ⟨before, c, after, tokens, hsource, rfl, hread⟩ := hm.exists_refused
  refine ⟨c, tokens, rfl, ⟨before, after, hsource, rfl, by simp⟩, ?_⟩
  have hbefore : Span.Locates ⟨0, 0 + utf8Len before⟩ 0 source.toList before :=
    ⟨[], c :: after, hsource, rfl, rfl⟩
  rw [hbefore.slice_eq]
  apply Munches.tokenize_eq
  rwa [String.toList_ofList]

end Reading

end Abacus
