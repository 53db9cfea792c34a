import Abacus.Proofs.Token.Scanning
import Abacus.Proofs.Token.Tiling

/-!
# Spacing between tokens

Tokens written with blanks between them are read back exactly when no two of them run together. A
word takes in a word or a number that stands right behind it, and a number takes in a number; all
other neighbours may touch. The reason is that a text of a class is the longest one at its place
unless the character behind it continues it.
-/

namespace Abacus

open String (utf8Len utf8Len_cons utf8ByteSize_ofList)

namespace Kind

/-- The kinds of words. -/
def isWord : Kind → Bool
  | identifier | keyword _ => true
  | _ => false

/-- Whether a character may stand in the texts of a kind behind their first character. -/
def continues (kind : Kind) (c : Char) : Bool :=
  if decide (kind = number) then (c.isDigit || c = '.') else kind.isWord && isWordPart c

/-- Whether texts of the two kinds run together when nothing stands between them. -/
def runsInto (left right : Kind) : Bool :=
  (left.isWord && (right.isWord || right = number)) || (left = number && right = number)

end Kind

section Characters

theorem isWordPart_of_isWordStart {c : Char} (h : isWordStart c = true) : isWordPart c = true := by
  simp only [isWordStart, isWordPart, Bool.or_eq_true] at h ⊢
  tauto

theorem isWordPart_of_isDigit {c : Char} (h : c.isDigit = true) : isWordPart c = true := by
  simp [isWordPart, Text.isNumeric_of_isDigit h]

/-- What neither goes on with a word nor is a point continues nothing. -/
theorem Kind.continues_eq_false {c : Char} (h : isWordPart c = false ∧ c ≠ '.') (left : Kind) :
    left.continues c = false := by
  have hdigit : c.isDigit = false := by
    by_contra hc
    rw [isWordPart_of_isDigit (Bool.not_eq_false _ ▸ hc)] at h
    cases h.1
  simp [continues, hdigit, h.1, h.2]

theorem continues_of_ofSymbol? {c : Char} {kind : Kind} (h : Kind.ofSymbol? c = some kind)
    (left : Kind) : left.continues c = false := by
  apply Kind.continues_eq_false
  rcases ofSymbol?_eq_some_iff.mp h with ⟨mark, -, rfl⟩ | ⟨op, -, rfl⟩
  · cases mark <;> decide
  · cases op <;> decide

theorem continues_of_isGap {c : Char} (h : isGap c = true) (left : Kind) :
    left.continues c = false := by
  apply Kind.continues_eq_false
  simp only [isGap, Bool.or_eq_true, decide_eq_true_eq] at h
  rcases h with ((rfl | rfl) | rfl) | rfl <;> decide

theorem IsDigitRun.concat {digits : List Char} (h : IsDigitRun digits) {d : Char}
    (hd : d.isDigit = true) : IsDigitRun (digits ++ [d]) := by
  refine ⟨by simp, ?_⟩
  intro c hc
  rcases List.mem_append.mp hc with hc | hc
  · exact h.2 c hc
  · rwa [List.mem_singleton.mp hc]

/-- A number with another digit behind it is a number. -/
theorem IsPlainNumber.concat {text : List Char} (h : IsPlainNumber text) {d : Char}
    (hd : d.isDigit = true) : IsPlainNumber (text ++ [d]) := by
  cases h with
  | whole hw => exact .whole (hw.concat hd)
  | fraction hw hp =>
    rw [List.append_assoc]
    exact .fraction hw (hp.concat hd)

end Characters

namespace Matches

variable {kind left right : Kind} {c d : Char} {text tail rest : List Char}

/-- No token starts with a blank. -/
theorem isGap_head (h : Matches (some kind) (c :: tail)) : isGap c = false := by
  obtain ⟨d, more, heq, hcases⟩ := h.exists_head
  obtain ⟨rfl, rfl⟩ := List.cons.inj heq
  rcases hcases with ⟨-, hnone, -⟩ | ⟨hc, -, -⟩ | ⟨hc, -, -⟩ | ⟨hc, -, -⟩
  · cases hnone
  · exact (class_of_ofSymbol? hc).1
  · exact (class_of_isDigit hc).1
  · exact (class_of_isWordStart hc).1

/-- Words and numbers are known by their first character. -/
theorem kind_eq_head (h : Matches (some kind) (c :: tail)) :
    kind.isWord = isWordStart c ∧ decide (kind = .number) = c.isDigit := by
  obtain ⟨c', tail', heq, hcases⟩ := h.exists_head
  obtain ⟨rfl, rfl⟩ := List.cons.inj heq
  rcases hcases with ⟨-, hnone, -⟩ | ⟨hc, -, -⟩ | ⟨hc, hkind, -⟩ | ⟨hc, hkind, -⟩
  · cases hnone
  · obtain ⟨-, hdigit, hword⟩ := class_of_ofSymbol? hc
    rw [hdigit, hword]
    rcases ofSymbol?_eq_some_iff.mp hc with ⟨mark, rfl, -⟩ | ⟨op, rfl, -⟩ <;> exact ⟨rfl, rfl⟩
  · cases hkind
    rw [hc, (class_of_isDigit hc).2.2]
    exact ⟨rfl, rfl⟩
  · cases hkind
    rw [hc, (class_of_isWordStart hc).2.2]
    unfold Kind.ofWord
    split <;> exact ⟨rfl, rfl⟩

/-- What continues a text of a class is known by its first character. -/
theorem continues_eq (h : Matches (some kind) (c :: tail)) (d : Char) :
    kind.continues d =
      if c.isDigit then (d.isDigit || d = '.') else isWordStart c && isWordPart d := by
  obtain ⟨hword, hnumber⟩ := h.kind_eq_head
  rw [Kind.continues, hnumber, hword]

/-- Behind the first character of a text of a class stand characters that continue its kind. -/
theorem exists_continues {other : Option Kind} (h : Matches other (c :: tail)) (hd : d ∈ tail) :
    ∃ kind, other = some kind ∧ kind.continues d = true := by
  obtain ⟨c', tail', heq, hcases⟩ := h.exists_head
  obtain ⟨rfl, rfl⟩ := List.cons.inj heq
  rcases hcases with ⟨-, -, rfl⟩ | ⟨-, -, rfl⟩ | ⟨hc, rfl, hn⟩ | ⟨hc, rfl, hparts⟩
  · cases hd
  · cases hd
  · refine ⟨_, rfl, ?_⟩
    rw [h.continues_eq]
    simpa [hc] using hn.isDigit_or_eq d (List.mem_cons_of_mem c hd)
  · refine ⟨_, rfl, ?_⟩
    rw [h.continues_eq]
    simp [(class_of_isWordStart hc).2.2, hc, hparts d hd]

/-- A longer text of a class goes on with a character that continues the shorter one. -/
theorem continues_of_append (h : Matches (some kind) text) {other : Option Kind}
    (h' : Matches other (text ++ d :: rest)) : kind.continues d = true := by
  obtain ⟨c, tail, rfl, -⟩ := h.exists_head
  have hmem : d ∈ tail ++ d :: rest := by simp
  obtain ⟨kind', rfl, hcontinues⟩ := exists_continues h' hmem
  rw [h.continues_eq, ← h'.continues_eq]
  exact hcontinues

/-- A text of a class in front of a character that does not continue it is the longest one. -/
theorem isLongest (h : Matches (some kind) text)
    (hrest : ∀ d ∈ rest.head?, kind.continues d = false) :
    IsLongest (text ++ rest) (some kind) text rest where
  split := rfl
  ne_nil := by
    obtain ⟨c, tail, rfl, -⟩ := h.exists_head
    exact List.cons_ne_nil c tail
  matches_text := h
  longest other start hs hm := by
    by_contra hlong
    obtain ⟨more, rfl⟩ : text <+: start :=
      List.prefix_of_prefix_length_le (List.prefix_append text rest) hs (by omega)
    cases more with
    | nil => simp at hlong
    | cons d more =>
      obtain ⟨behind, hbehind⟩ := hs
      obtain rfl : d :: (more ++ behind) = rest := by simpa using hbehind
      have hstop := hrest d rfl
      rw [h.continues_of_append hm] at hstop
      cases hstop

/-- Two texts run together exactly when the second starts with a character that goes on with the
first: a digit behind a number, or the first character of a word or a digit behind a word. -/
theorem runsInto_eq_true_iff (h : Matches (some left) (c :: text))
    (h' : Matches (some right) (d :: tail)) :
    left.runsInto right = true ↔
      (isWordStart c = true ∧ (isWordStart d = true ∨ d.isDigit = true)) ∨
        (c.isDigit = true ∧ d.isDigit = true) := by
  obtain ⟨hword, hnumber⟩ := h.kind_eq_head
  obtain ⟨hword', hnumber'⟩ := h'.kind_eq_head
  simp only [Kind.runsInto, hword, hnumber, hword', hnumber', Bool.or_eq_true, Bool.and_eq_true]

/-- A text that runs into the next one has a longer text of a class at its place. -/
theorem exists_concat (h : Matches (some left) (c :: text)) (h' : Matches (some right) (d :: tail))
    (hruns : left.runsInto right = true) : ∃ kind, Matches kind (c :: text ++ [d]) := by
  rcases (h.runsInto_eq_true_iff h').mp hruns with ⟨hc, hd⟩ | ⟨hc, hd⟩
  · have hpart : isWordPart d = true := hd.elim isWordPart_of_isWordStart isWordPart_of_isDigit
    refine ⟨_, matches_word hc ?_⟩
    intro e he
    rcases List.mem_append.mp he with he | he
    · obtain ⟨_, ⟨⟩, hcontinues⟩ := h.exists_continues he
      rw [h.continues_eq, (class_of_isWordStart hc).2.2, hc] at hcontinues
      exact hcontinues
    · rwa [List.mem_singleton.mp he]
  · have hkind : left = .number := by simpa [hc] using h.kind_eq_head.2
    subst hkind
    generalize htext : c :: text = start at h ⊢
    cases h with
    | number hn => exact ⟨_, .number (hn.concat hd)⟩

/-- A text that does not run into the next one is not continued by it. -/
theorem continues_eq_false (h : Matches (some left) (c :: text))
    (h' : Matches (some right) (d :: tail)) (hruns : ¬ left.runsInto right = true) :
    left.continues d = false := by
  rw [h.runsInto_eq_true_iff h'] at hruns
  obtain ⟨d', tail', heq, hcases⟩ := h'.exists_head
  obtain ⟨rfl, rfl⟩ := List.cons.inj heq
  rcases hcases with ⟨-, hnone, -⟩ | ⟨hd, -, -⟩ | ⟨hd, -, -⟩ | ⟨hd, -, -⟩
  · cases hnone
  · exact continues_of_ofSymbol? hd left
  · obtain ⟨hword, hdigit⟩ : isWordStart c = false ∧ c.isDigit = false := by simpa [hd] using hruns
    simp [h.continues_eq, hword, hdigit]
  · have hpoint : d ≠ '.' := by
      rintro rfl
      exact absurd hd (by decide)
    have hdigit : d.isDigit = false := (class_of_isWordStart hd).2.2
    have hword : isWordStart c = false := by simpa [hd, hdigit] using hruns
    simp [h.continues_eq, hword, hdigit, hpoint]

end Matches

/-- No two neighbours run together: where they would, a gap stands between them. -/
def IsSeparated (pieces : List Piece) : Prop :=
  pieces.IsChain fun p q => p.token.kind.runsInto q.token.kind = true → q.gap ≠ []

section Munching

variable {offset : Nat} {source text rest : List Char} {kind : Kind}
  {result : Except Error (List Token)}

/-- Munching a text from an offset on is reading it. -/
theorem munches_iff : Munches offset text result ↔ tokenizeFrom offset [] text = result := by
  have hread {result : Except Error (List Token)} (h : Munches offset text result) :
      tokenizeFrom offset [] text = result := by
    rw [h.tokenizeFrom_eq]
    cases result <;> rfl
  constructor
  · exact hread
  · rintro rfl
    obtain ⟨result, h⟩ := exists_munches text offset
    rwa [hread h]

/-- Blanks in front of a text are passed over. -/
theorem munches_gap_iff {gap : List Char} (hgap : ∀ c ∈ gap, isGap c = true) :
    Munches offset (gap ++ rest) result ↔ Munches (offset + utf8Len gap) rest result := by
  induction gap generalizing offset with
  | nil => rfl
  | cons c gap ih =>
    obtain ⟨hc, hgap⟩ := List.forall_mem_cons.mp hgap
    have hcut : Lexeme.cut? c (gap ++ rest) = some ⟨none, [c], gap ++ rest⟩ := by
      simp [Lexeme.cut?, hc]
    have hoffset : offset + utf8Len (c :: gap) = offset + utf8Len [c] + utf8Len gap := by
      simp only [utf8Len_cons, String.utf8Len_nil]
      omega
    rw [List.cons_append, munches_iff, tokenizeFrom_of_some hcut, hoffset, ← ih hgap, munches_iff,
      utf8ByteSize_ofList]
    rfl

/-- The first token of a text that starts with no blank is the longest match at its start. -/
theorem Munches.isLongest {t : Token} {tokens : List Token}
    (h : Munches offset (t.text.toList ++ rest) (.ok (t :: tokens)))
    (ht : Matches (some t.kind) t.text.toList) :
    IsLongest (t.text.toList ++ rest) (some t.kind) t.text.toList rest ∧
      Munches (offset + utf8Len t.text.toList) rest (.ok tokens) := by
  generalize hsource : t.text.toList ++ rest = source at h ⊢
  generalize hresult : Except.ok (t :: tokens) = result at h
  cases h with
  | finish =>
    cases hresult
    cases ht
  | stuck _ => cases hresult
  | gap hl _ =>
    obtain ⟨c, tail, htext, -⟩ := ht.exists_head
    rw [htext] at hsource ht
    have hblank := hl.matches_text
    have hsplit := hl.split
    cases hblank with
    | @gap d hd =>
      obtain ⟨rfl, -⟩ := List.cons.inj (hsource.trans hsplit)
      exact absurd (isGap_iff.mpr hd) (by rw [ht.isGap_head]; exact Bool.false_ne_true)
  | @token _ _ text rest' kind result hl htail =>
    cases result with
    | error e => cases hresult
    | ok tail =>
      cases hresult
      simp only [String.toList_ofList] at hsource ht ⊢
      obtain rfl : rest' = rest := by
        have := hl.split
        rw [← hsource] at this
        exact (List.append_cancel_left this).symm
      rw [utf8ByteSize_ofList] at htail
      exact ⟨hl, htail⟩

end Munching

namespace Tiles

variable {offset : Nat} {pieces : List Piece}

/-- A token in front of tiled text is the longest match exactly when it does not run into the first
token there. -/
theorem isLongest_iff {t : Token} {q : Piece} (ht : Matches (some t.kind) t.text.toList)
    (h : Tiles offset (q :: pieces)) :
    IsLongest (t.text.toList ++ written (q :: pieces)) (some t.kind) t.text.toList
        (written (q :: pieces)) ↔
      (t.kind.runsInto q.token.kind = true → q.gap ≠ []) := by
  obtain ⟨c, text, htext, -⟩ := ht.exists_head
  rw [htext] at ht ⊢
  constructor
  · rintro hl hruns hnil
    cases h with
    | finish _ => simp [Kind.runsInto, Kind.isWord, Token.endOfInput] at hruns
    | @token _ gap u _ _ hu _ _ _ =>
      obtain rfl : gap = [] := hnil
      obtain ⟨d, tail, hd, -⟩ := hu.exists_head
      rw [hd] at hu
      obtain ⟨kind, hlonger⟩ := ht.exists_concat hu hruns
      have hle := hl.longest kind _ ⟨tail ++ written pieces, by simp [hd]⟩ hlonger
      simp at hle
  · intro hgap
    apply ht.isLongest
    intro d hd
    cases h with
    | @finish _ gap hblank =>
      have hd : d ∈ gap := List.mem_of_mem_head? (by simpa [Token.endOfInput] using hd)
      exact continues_of_isGap (hblank d hd) t.kind
    | @token _ gap u _ hblank hu _ _ _ =>
      cases gap with
      | cons g gap =>
        obtain rfl : g = d := by simpa using hd
        exact continues_of_isGap (hblank g List.mem_cons_self) t.kind
      | nil =>
        obtain ⟨e, tail, he, -⟩ := hu.exists_head
        obtain rfl : e = d := by simpa [he] using hd
        rw [he] at hu
        exact ht.continues_eq_false hu fun hruns => hgap hruns rfl

/-- Tiled text is read to its tokens exactly when no two of them run together. -/
theorem munches_iff (h : Tiles offset pieces) :
    Munches offset (written pieces) (.ok (pieces.map Piece.token)) ↔ IsSeparated pieces := by
  induction h with
  | @finish offset gap hgap =>
    refine iff_of_true ?_ (.singleton _)
    rw [written_cons, munches_gap_iff hgap]
    exact .finish _
  | @token offset gap t pieces hgap ht hstart hstop htail ih =>
    rw [written_cons, List.map_cons, munches_gap_iff hgap, ← hstart]
    obtain ⟨q, rest, rfl⟩ : ∃ q rest, pieces = q :: rest := by cases htail <;> exact ⟨_, _, rfl⟩
    rw [IsSeparated, List.isChain_cons_cons, ← htail.isLongest_iff ht]
    constructor
    · intro hm
      obtain ⟨hl, hrest⟩ := hm.isLongest ht
      rw [← hstop] at hrest
      exact ⟨hl, ih.mp hrest⟩
    · rintro ⟨hl, hseparated⟩
      have hrest := ih.mpr hseparated
      rw [hstop, ← utf8ByteSize_ofList] at hrest
      have hm := Munches.token hl hrest
      rw [utf8ByteSize_ofList, ← hstop, String.ofList_toList] at hm
      exact hm

end Tiles

/-- What is written of a piece and the kind it is written for, wherever its token stands. -/
def Piece.shape (p : Piece) : List Char × Kind × String := (p.gap, p.token.content)

section Respacing

variable {offset : Nat} {ps qs : List Piece}

theorem written_eq_of_shape (h : ps.map Piece.shape = qs.map Piece.shape) :
    written ps = written qs := by
  have hshape (pieces : List Piece) :
      written pieces = (pieces.map Piece.shape).flatMap fun s => s.1 ++ s.2.2.toList := by
    rw [List.flatMap_map]
    rfl
  rw [hshape, hshape, h]

theorem contents_eq_of_shape (h : ps.map Piece.shape = qs.map Piece.shape) :
    (ps.map Piece.token).map Token.content = (qs.map Piece.token).map Token.content := by
  have hcontents := congrArg (List.map Prod.snd) h
  rwa [List.map_map, List.map_map] at hcontents ⊢

theorem isSeparated_iff_of_shape (h : ps.map Piece.shape = qs.map Piece.shape) :
    IsSeparated ps ↔ IsSeparated qs := by
  have hshape (pieces : List Piece) :
      IsSeparated pieces ↔
        (pieces.map Piece.shape).IsChain fun s t => s.2.1.runsInto t.2.1 = true → t.1 ≠ [] := by
    rw [List.isChain_map]
    rfl
  rw [hshape, hshape, h]

/-- Tokens that tile a text tile it with other gaps as well, at other places. -/
theorem Tiles.exists_respaced (h : Tiles offset ps)
    (htokens : qs.map Piece.token = ps.map Piece.token)
    (hgaps : ∀ q ∈ qs, ∀ c ∈ q.gap, isGap c = true) (start : Nat) :
    ∃ rs, Tiles start rs ∧ rs.map Piece.shape = qs.map Piece.shape := by
  induction h generalizing qs start with
  | finish _ =>
    obtain ⟨q, rest, rfl, hq, hrest⟩ := List.map_eq_cons_iff.mp htokens
    obtain rfl := List.map_eq_nil_iff.mp hrest
    refine ⟨_, .finish (hgaps q List.mem_cons_self), ?_⟩
    simp [Piece.shape, hq, Token.content, Token.endOfInput]
  | @token offset gap t pieces _ ht _ _ _ ih =>
    obtain ⟨q, rest, rfl, hq, hrest⟩ := List.map_eq_cons_iff.mp htokens
    obtain ⟨hgap, hgaps⟩ := List.forall_mem_cons.mp hgaps
    let u : Token := ⟨t.kind, t.text, start + utf8Len q.gap,
      start + utf8Len q.gap + utf8Len t.text.toList⟩
    obtain ⟨rs, hrs, hshape⟩ := ih hrest hgaps u.span.stop
    refine ⟨⟨q.gap, u⟩ :: rs, .token hgap ht rfl rfl hrs, ?_⟩
    rw [List.map_cons, List.map_cons, hshape]
    simp [Piece.shape, hq, u, Token.content]

/-- Blanks in front of what starts with no blank are told apart from it. -/
theorem gap_unique {gap gap' : List Char} {c c' : Char} {rest rest' : List Char}
    (hgap : ∀ d ∈ gap, isGap d = true) (hgap' : ∀ d ∈ gap', isGap d = true)
    (hc : isGap c = false) (hc' : isGap c' = false)
    (h : gap ++ c :: rest = gap' ++ c' :: rest') : gap = gap' := by
  have htake := congrArg (List.takeWhile isGap) h
  rwa [List.takeWhile_append_of_pos hgap, List.takeWhile_append_of_pos hgap',
    List.takeWhile_cons_of_neg (by simp [hc]), List.takeWhile_cons_of_neg (by simp [hc']),
    List.append_nil, List.append_nil] at htake

/-- The gaps between tokens that tile a text are determined by the text. -/
theorem Tiles.shape_eq {start : Nat} (h : Tiles offset ps) (h' : Tiles start qs)
    (hcontents : (ps.map Piece.token).map Token.content = (qs.map Piece.token).map Token.content)
    (hwritten : written ps = written qs) : ps.map Piece.shape = qs.map Piece.shape := by
  induction h generalizing qs start with
  | finish _ =>
    cases h' with
    | finish _ => simpa [Piece.shape, Token.content, Token.endOfInput] using hwritten
    | token _ _ _ _ htail => cases htail <;> simp at hcontents
  | @token offset gap t pieces hgap ht _ _ htail ih =>
    cases h' with
    | finish _ => cases htail <;> simp at hcontents
    | @token _ gap' u qs hgap' hu _ _ htail' =>
      obtain ⟨hcontent, hrest⟩ := List.cons.inj hcontents
      have htext : t.text = u.text := congrArg Prod.snd hcontent
      obtain ⟨c, tail, hc, -⟩ := ht.exists_head
      rw [written_cons, written_cons] at hwritten
      have hgaps : gap = gap' := by
        rw [htext] at hc
        rw [hc] at hu
        rw [htext, hc] at ht
        simp only [htext, hc, List.cons_append] at hwritten
        exact gap_unique hgap hgap' ht.isGap_head hu.isGap_head hwritten
      simp only [hgaps, htext, List.append_cancel_left_eq] at hwritten
      rw [List.map_cons, List.map_cons, ih htail' hrest hwritten]
      simp only [Piece.shape, hgaps, hcontent]

/-- Tokens of a text that are written with other gaps are read to the same contents exactly when no
two of them run together. -/
theorem tokenize_written_iff {source : String} {tokens : List Token} {pieces : List Piece}
    (h : tokenize source = .ok tokens) (htokens : pieces.map Piece.token = tokens)
    (hgaps : ∀ p ∈ pieces, ∀ c ∈ p.gap, isGap c = true) :
    (∃ tokens', tokenize (String.ofList (written pieces)) = .ok tokens' ∧
        tokens'.map Token.content = tokens.map Token.content) ↔ IsSeparated pieces := by
  obtain ⟨old, hold, rfl, -⟩ := exists_tiles_of_tokenize h
  obtain ⟨new, hnew, hshape⟩ := hold.exists_respaced htokens hgaps 0
  have hcontents := contents_eq_of_shape hshape
  rw [htokens] at hcontents
  rw [← written_eq_of_shape hshape, ← isSeparated_iff_of_shape hshape, ← hnew.munches_iff]
  constructor
  · rintro ⟨tokens', hread, hsame⟩
    obtain ⟨read, htiles, rfl, hwritten⟩ := exists_tiles_of_tokenize hread
    rw [String.toList_ofList] at hwritten
    have hsame := htiles.shape_eq hnew (hsame.trans hcontents.symm) hwritten
    rw [hnew.munches_iff, ← isSeparated_iff_of_shape hsame, ← htiles.munches_iff, hwritten, ← hread]
    simpa using munches_tokenize (String.ofList (written new))
  · intro hm
    refine ⟨_, ?_, hcontents⟩
    apply Munches.tokenize_eq
    rwa [String.toList_ofList]

end Respacing

end Abacus
