import Abacus.Proofs.Binary64.Plain
import Abacus.Token.Lexer
import Mathlib.Data.List.TakeWhile

/-!
# Tokens by maximal munch

The classes of lexemes are sets of texts: single blanks, single symbols, numbers and words. Cutting
a text is proved to take the longest text at its start that belongs to a class, and to fail exactly
where no class has one. The classes are told apart by their first character, so that the longest
text has one class and one kind.
-/

namespace Abacus

/-- A character that may start a word, and characters that may go on with it. -/
def IsWord (text : List Char) : Prop :=
  ∃ c cs, text = c :: cs ∧ isWordStart c = true ∧ ∀ d ∈ cs, isWordPart d = true

/-- The texts of the classes, with the kind of their tokens. Blanks have no kind. -/
inductive Matches : Option Kind → List Char → Prop
  | gap {c : Char} : c ∈ [' ', '\t', '\r', '\n'] → Matches none [c]
  | punctuation (mark : Punctuation) : Matches (some (.punctuation mark)) mark.spelling.toList
  | operator (op : Operator) : Matches (some (.operator op)) op.spelling.toList
  | number {text : List Char} : IsPlainNumber text → Matches (some .number) text
  | binding {text : List Char} : IsWord text → text = "let".toList →
    Matches (some (.keyword .binding)) text
  | identifier {text : List Char} : IsWord text → text ≠ "let".toList →
    Matches (some .identifier) text

/-- The longest text of a class at the start of a source, and the rest. -/
structure IsLongest (source : List Char) (kind : Option Kind) (text rest : List Char) : Prop where
  split : source = text ++ rest
  ne_nil : text ≠ []
  matches_text : Matches kind text
  longest : ∀ other start, start <+: source → Matches other start → start.length ≤ text.length

/-- What repeated munching makes of a text that starts at an offset: the tokens of the longest
matches, closed by the end of input, or the first character at which nothing matches. -/
inductive Munches : Nat → List Char → Except Error (List Token) → Prop
  | finish (offset : Nat) : Munches offset [] (.ok [.endOfInput offset])
  | stuck {offset : Nat} {c : Char} {cs : List Char} :
    (∀ kind start, start ≠ [] → start <+: c :: cs → ¬ Matches kind start) →
    Munches offset (c :: cs) (.error ⟨.unexpectedCharacter c, ⟨offset, offset + c.utf8Size⟩⟩)
  | gap {offset : Nat} {source text rest : List Char} {result : Except Error (List Token)} :
    IsLongest source none text rest →
    Munches (offset + (String.ofList text).utf8ByteSize) rest result →
    Munches offset source result
  | token {offset : Nat} {source text rest : List Char} {kind : Kind}
    {result : Except Error (List Token)} :
    IsLongest source (some kind) text rest →
    Munches (offset + (String.ofList text).utf8ByteSize) rest result →
    Munches offset source (result.map
      (⟨kind, String.ofList text, ⟨offset, offset + (String.ofList text).utf8ByteSize⟩⟩ :: ·))

/-- No character below the letters is alphabetic. -/
theorem isAlphabetic_eq_false {c : Char} (h : c.toNat < 0x41) : Text.isAlphabetic c = false := by
  have ha : Text.alphabetic = (0x41, 0x5a) :: Text.alphabetic.tail := rfl
  rw [Text.isAlphabetic, ha]
  simp only [Text.Ranges.contains, Bool.and_eq_false_iff, decide_eq_false_iff_not]
  omega

theorem ofSymbol?_eq_some_iff {c : Char} {kind : Kind} :
    Kind.ofSymbol? c = some kind ↔
      (∃ mark : Punctuation, kind = .punctuation mark ∧ mark.symbol = c) ∨
        ∃ op : Operator, kind = .operator op ∧ op.symbol = c := by
  constructor
  · intro h
    rw [Kind.ofSymbol?_eq_lookup, Option.or_eq_some_iff] at h
    rcases h with h | ⟨-, h⟩
    · obtain ⟨mark, hmark, rfl⟩ := Option.map_eq_some_iff.mp h
      exact .inl ⟨mark, rfl, by simpa using List.find?_some hmark⟩
    · obtain ⟨op, hop, rfl⟩ := Option.map_eq_some_iff.mp h
      exact .inr ⟨op, rfl, by simpa using List.find?_some hop⟩
  · rintro (⟨mark, rfl, rfl⟩ | ⟨op, rfl, rfl⟩)
    · cases mark <;> decide
    · cases op <;> decide

/-- A symbol starts neither a blank nor a number nor a word. -/
theorem class_of_ofSymbol? {c : Char} {kind : Kind} (h : Kind.ofSymbol? c = some kind) :
    isGap c = false ∧ c.isDigit = false ∧ isWordStart c = false := by
  rcases ofSymbol?_eq_some_iff.mp h with ⟨mark, -, rfl⟩ | ⟨op, -, rfl⟩
  · cases mark <;> decide
  · cases op <;> decide

/-- A blank starts neither a symbol nor a number nor a word. -/
theorem class_of_isGap {c : Char} (h : isGap c = true) :
    Kind.ofSymbol? c = none ∧ c.isDigit = false ∧ isWordStart c = false := by
  simp only [isGap, Bool.or_eq_true, decide_eq_true_eq] at h
  rcases h with ((rfl | rfl) | rfl) | rfl <;> decide

/-- A digit starts neither a blank nor a symbol nor a word. -/
theorem class_of_isDigit {c : Char} (h : c.isDigit = true) :
    isGap c = false ∧ Kind.ofSymbol? c = none ∧ isWordStart c = false := by
  refine ⟨?_, ?_, ?_⟩
  · by_contra hgap
    have := (class_of_isGap (Bool.not_eq_false _ ▸ hgap)).2.1
    simp [h] at this
  · by_contra hsymbol
    obtain ⟨kind, hkind⟩ := Option.ne_none_iff_exists'.mp hsymbol
    have := (class_of_ofSymbol? hkind).2.1
    simp [h] at this
  · have hlow : c.toNat < 0x41 := (Char.isDigit_iff_toNat.mp h).2.trans_lt (by decide)
    have hunderscore : c ≠ '_' := by rintro rfl; simp at h
    simp [isWordStart, isAlphabetic_eq_false hlow, hunderscore]

/-- What starts a word starts neither a blank nor a symbol nor a number. -/
theorem class_of_isWordStart {c : Char} (h : isWordStart c = true) :
    isGap c = false ∧ Kind.ofSymbol? c = none ∧ c.isDigit = false := by
  refine ⟨?_, ?_, ?_⟩
  · by_contra hgap
    have := (class_of_isGap (Bool.not_eq_false _ ▸ hgap)).2.2
    simp [h] at this
  · by_contra hsymbol
    obtain ⟨kind, hkind⟩ := Option.ne_none_iff_exists'.mp hsymbol
    have := (class_of_ofSymbol? hkind).2.2
    simp [h] at this
  · by_contra hdigit
    have := (class_of_isDigit (Bool.not_eq_false _ ▸ hdigit)).2.2
    simp [h] at this

theorem ofWord_of_ne {text : List Char} (h : text ≠ "let".toList) :
    Kind.ofWord (String.ofList text) = .identifier := by
  have hne : String.ofList text ≠ "let" := fun heq => h (by rw [← heq, String.toList_ofList])
  simp [Kind.ofWord, Keyword.ofSpelling?, Keyword.all, Keyword.spelling, Ne.symm hne]

/-- A text of a class is known by its first character. -/
theorem Matches.exists_head {kind : Option Kind} {text : List Char} (h : Matches kind text) :
    ∃ c tail, text = c :: tail ∧
      ((isGap c = true ∧ kind = none ∧ tail = []) ∨
        (Kind.ofSymbol? c = kind ∧ kind ≠ none ∧ tail = []) ∨
        (c.isDigit = true ∧ kind = some .number ∧ IsPlainNumber (c :: tail)) ∨
        (isWordStart c = true ∧ kind = some (.ofWord (String.ofList (c :: tail))) ∧
          ∀ d ∈ tail, isWordPart d = true)) := by
  cases h with
  | gap hc => exact ⟨_, [], rfl, .inl ⟨by simpa [isGap, or_assoc] using hc, rfl, rfl⟩⟩
  | punctuation mark =>
    refine ⟨mark.symbol, [], by simp [Punctuation.spelling], .inr (.inl ⟨?_, by simp, rfl⟩)⟩
    exact ofSymbol?_eq_some_iff.mpr (.inl ⟨mark, rfl, rfl⟩)
  | operator op =>
    refine ⟨op.symbol, [], by simp [Operator.spelling], .inr (.inl ⟨?_, by simp, rfl⟩)⟩
    exact ofSymbol?_eq_some_iff.mpr (.inr ⟨op, rfl, rfl⟩)
  | number hn =>
    obtain ⟨c, cs, rfl, hc⟩ := hn.exists_head
    exact ⟨c, cs, rfl, .inr (.inr (.inl ⟨hc, rfl, hn⟩))⟩
  | binding hw heq =>
    obtain ⟨c, cs, rfl, hc, hcs⟩ := hw
    exact ⟨c, cs, rfl, .inr (.inr (.inr ⟨hc, by rw [heq]; decide, hcs⟩))⟩
  | identifier hw hne =>
    obtain ⟨c, cs, rfl, hc, hcs⟩ := hw
    exact ⟨c, cs, rfl, .inr (.inr (.inr ⟨hc, by rw [ofWord_of_ne hne], hcs⟩))⟩

/-- The kind of a word is that of its class. -/
theorem matches_word {c : Char} {cs : List Char} (hc : isWordStart c = true)
    (hcs : ∀ d ∈ cs, isWordPart d = true) :
    Matches (some (.ofWord (String.ofList (c :: cs)))) (c :: cs) := by
  by_cases h : c :: cs = "let".toList
  · have hkind : Kind.ofWord (String.ofList (c :: cs)) = .keyword .binding := by rw [h]; decide
    rw [hkind]
    exact .binding ⟨c, cs, rfl, hc, hcs⟩ h
  · rw [ofWord_of_ne h]
    exact .identifier ⟨c, cs, rfl, hc, hcs⟩ h

theorem matches_symbol {c : Char} {kind : Kind} (h : Kind.ofSymbol? c = some kind) :
    Matches (some kind) [c] := by
  rcases ofSymbol?_eq_some_iff.mp h with ⟨mark, rfl, rfl⟩ | ⟨op, rfl, rfl⟩
  · simpa [Punctuation.spelling] using Matches.punctuation mark
  · simpa [Operator.spelling] using Matches.operator op

/-- A start whose members all satisfy a test is no longer than the longest such start. -/
theorem length_le_takeWhile {p : Char → Bool} {start text : List Char} (h : start <+: text)
    (hp : ∀ c ∈ start, p c = true) : start.length ≤ (text.takeWhile p).length := by
  obtain ⟨rest, rfl⟩ := h
  rw [List.takeWhile_append_of_pos hp, List.length_append]
  exact Nat.le_add_right _ _

/-- The number cut from a text that starts with a digit is a number. -/
theorem isPlainNumber_cutNumber {c : Char} (hc : c.isDigit = true) (cs : List Char) :
    IsPlainNumber (cutNumber (c :: cs)).1 := by
  have hwhole : IsDigitRun ((c :: cs).takeWhile Char.isDigit) :=
    ⟨by simp [hc], fun d hd => List.mem_takeWhile_imp hd⟩
  unfold cutNumber
  split
  · next d rest _ =>
    split
    · next hd =>
      refine .fraction hwhole ⟨by simp, fun x hx => ?_⟩
      rcases List.mem_cons.mp hx with rfl | hx
      · exact hd
      · exact List.mem_takeWhile_imp hx
    · exact .whole hwhole
  · exact .whole hwhole

/-- No number at the start of a text is longer than the one that is cut. -/
theorem length_le_cutNumber {start text : List Char} (h : start <+: text)
    (hn : IsPlainNumber start) : start.length ≤ (cutNumber text).1.length := by
  cases hn with
  | whole hd =>
    have hle := length_le_takeWhile h hd.2
    unfold cutNumber
    split
    · split <;> simp <;> omega
    · exact hle
  | @fraction digits places hd hp =>
    obtain ⟨rest, rfl⟩ := h
    obtain ⟨f, fs, rfl⟩ := List.exists_cons_of_ne_nil hp.1
    have hf : f.isDigit = true := hp.2 f (by simp)
    have hcut := hd.cut ('.' :: (f :: fs ++ rest)) (by simp)
    have hle := length_le_takeWhile (List.prefix_append fs rest) fun c hc => hp.2 c (by simp [hc])
    simp only [List.cons_append, List.append_assoc] at hcut ⊢
    simp only [cutNumber, hcut.1, hcut.2, hf, if_true, List.length_append, List.length_cons]
    omega

namespace Lexeme

/-- Every lexeme belongs to the class of its kind. -/
theorem matches_cut? {c : Char} {cs : List Char} {lexeme : Lexeme} (h : cut? c cs = some lexeme) :
    Matches lexeme.kind lexeme.text := by
  unfold cut? at h
  split at h
  · next hc => cases h; exact .gap (by simpa [isGap, or_assoc] using hc)
  · split at h
    · next hk => cases h; exact matches_symbol hk
    · split at h
      · next hc => cases h; exact .number (isPlainNumber_cutNumber hc cs)
      · split at h
        · next hc => cases h; exact matches_word hc fun d hd => List.mem_takeWhile_imp hd
        · cases h

/-- No text of any class at the same place is longer than the lexeme. -/
theorem length_le_cut? {c : Char} {cs : List Char} {lexeme : Lexeme} (h : cut? c cs = some lexeme)
    {kind : Option Kind} {start : List Char} (hs : start <+: c :: cs) (hm : Matches kind start) :
    start.length ≤ lexeme.text.length := by
  obtain ⟨d, tail, rfl, hcases⟩ := hm.exists_head
  obtain ⟨rfl, htail⟩ := List.cons_prefix_cons.mp hs
  obtain ⟨more, hmore⟩ := text_ne_nil h
  -- The class of the start is that of its first character, so the lexeme was cut for it.
  rcases hcases with ⟨-, -, rfl⟩ | ⟨-, -, rfl⟩ | ⟨hd, -, hn⟩ | ⟨hd, -, hparts⟩
  · simp [hmore]
  · simp [hmore]
  · obtain ⟨hgap, hsymbol, -⟩ := class_of_isDigit hd
    simp only [cut?, hgap, hsymbol, hd, Bool.false_eq_true, if_false, if_true] at h
    cases h
    exact length_le_cutNumber hs hn
  · obtain ⟨hgap, hsymbol, hdigit⟩ := class_of_isWordStart hd
    simp only [cut?, hgap, hsymbol, hdigit, hd, Bool.false_eq_true, if_false, if_true] at h
    cases h
    exact Nat.succ_le_succ (length_le_takeWhile htail hparts)

/-- A lexeme is the longest text of a class at its place. -/
theorem isLongest_cut? {c : Char} {cs : List Char} {lexeme : Lexeme} (h : cut? c cs = some lexeme) :
    IsLongest (c :: cs) lexeme.kind lexeme.text lexeme.rest where
  split := (text_append_rest h).symm
  ne_nil := by
    obtain ⟨tail, ht⟩ := text_ne_nil h
    simp [ht]
  matches_text := matches_cut? h
  longest _ _ hs hm := length_le_cut? h hs hm

/-- Where no lexeme is cut, no class has a text. -/
theorem not_matches_of_cut?_eq_none {c : Char} {cs : List Char} (h : cut? c cs = none)
    (kind : Option Kind) {start : List Char} (hs : start <+: c :: cs) : ¬ Matches kind start := by
  intro hm
  obtain ⟨d, tail, rfl, hcases⟩ := hm.exists_head
  obtain ⟨rfl, -⟩ := List.cons_prefix_cons.mp hs
  rcases hcases with ⟨hd, -⟩ | ⟨hd, hsome, -⟩ | ⟨hd, -⟩ | ⟨hd, -⟩
  · simp [cut?, hd] at h
  · obtain ⟨k, rfl⟩ := Option.ne_none_iff_exists'.mp hsome
    simp [cut?, (class_of_ofSymbol? hd).1, hd] at h
  · obtain ⟨hgap, hsymbol, -⟩ := class_of_isDigit hd
    simp [cut?, hgap, hsymbol, hd] at h
  · obtain ⟨hgap, hsymbol, hdigit⟩ := class_of_isWordStart hd
    simp [cut?, hgap, hsymbol, hdigit, hd] at h

/-- A text of a class is cut whole when nothing stands behind it. -/
theorem cut?_of_matches {kind : Option Kind} {c : Char} {tail : List Char}
    (h : Matches kind (c :: tail)) : cut? c tail = some ⟨kind, c :: tail, []⟩ := by
  obtain ⟨d, more, heq, hcases⟩ := h.exists_head
  obtain ⟨rfl, rfl⟩ := List.cons.inj heq
  rcases hcases with ⟨hc, rfl, rfl⟩ | ⟨hc, hsome, rfl⟩ | ⟨hc, rfl, hn⟩ | ⟨hc, rfl, hparts⟩
  · simp [cut?, hc]
  · obtain ⟨k, rfl⟩ := Option.ne_none_iff_exists'.mp hsome
    simp [cut?, (class_of_ofSymbol? hc).1, hc]
  · obtain ⟨hgap, hsymbol, -⟩ := class_of_isDigit hc
    have hle := length_le_cutNumber (List.prefix_refl _) hn
    have hsplit := cutNumber_append (c :: tail)
    have hrest : (cutNumber (c :: tail)).2 = [] := by
      have := congrArg List.length hsplit
      rw [List.length_append] at this
      exact List.eq_nil_of_length_eq_zero (by omega)
    rw [hrest, List.append_nil] at hsplit
    simp [cut?, hgap, hsymbol, hc, hrest, hsplit]
  · obtain ⟨hgap, hsymbol, hdigit⟩ := class_of_isWordStart hc
    simp [cut?, hgap, hsymbol, hdigit, hc, List.takeWhile_eq_self_iff.mpr hparts,
      List.dropWhile_eq_nil_iff.mpr hparts]

end Lexeme

/-- A text belongs to one class only. -/
theorem Matches.kind_eq {kind kind' : Option Kind} {text : List Char} (h : Matches kind text)
    (h' : Matches kind' text) : kind = kind' := by
  obtain ⟨c, tail, rfl, -⟩ := h.exists_head
  have heq := (Lexeme.cut?_of_matches h).symm.trans (Lexeme.cut?_of_matches h')
  exact congrArg Lexeme.kind (Option.some.inj heq)

/-- The longest text of a class at the start of a source is what is cut there. -/
theorem IsLongest.cut?_eq {c : Char} {cs text rest : List Char} {kind : Option Kind}
    (h : IsLongest (c :: cs) kind text rest) : Lexeme.cut? c cs = some ⟨kind, text, rest⟩ := by
  cases hcut : Lexeme.cut? c cs with
  | none =>
    have hs : text <+: c :: cs := ⟨rest, h.split.symm⟩
    exact absurd h.matches_text (Lexeme.not_matches_of_cut?_eq_none hcut kind hs)
  | some lexeme =>
    have hl := Lexeme.isLongest_cut? hcut
    have hle := h.longest _ _ ⟨_, hl.split.symm⟩ hl.matches_text
    have hge := hl.longest _ _ ⟨_, h.split.symm⟩ h.matches_text
    obtain ⟨htext, hrest⟩ := List.append_inj (hl.split.symm.trans h.split) (by omega)
    have hkind : lexeme.kind = kind := (htext ▸ hl.matches_text).kind_eq h.matches_text
    rw [← hkind, ← htext, ← hrest]

/-- The longest match takes the reader behind its text. -/
theorem IsLongest.tokenizeFrom_eq {source text rest : List Char} {kind : Option Kind}
    (h : IsLongest source kind text rest) (offset : Nat) (read : List Token) :
    tokenizeFrom offset read source =
      tokenizeFrom (offset + (String.ofList text).utf8ByteSize)
        (Lexeme.tokens ⟨kind, text, rest⟩ offset ++ read) rest := by
  have hne : source ≠ [] := by simp [h.split, h.ne_nil]
  obtain ⟨c, cs, rfl⟩ := List.exists_cons_of_ne_nil hne
  rw [tokenizeFrom_of_some h.cut?_eq]

/-- Munching a text is reading it, behind the tokens already read. -/
theorem Munches.tokenizeFrom_eq {offset : Nat} {text : List Char}
    {result : Except Error (List Token)} (h : Munches offset text result) (read : List Token) :
    tokenizeFrom offset read text = result.map (read.reverse ++ ·) := by
  induction h generalizing read with
  | finish offset => simp [Except.map]
  | @stuck offset c cs hstuck =>
    have hnone : Lexeme.cut? c cs = none := by
      by_contra hsome
      obtain ⟨lexeme, hcut⟩ := Option.ne_none_iff_exists'.mp hsome
      have hl := Lexeme.isLongest_cut? hcut
      exact hstuck _ _ hl.ne_nil ⟨_, hl.split.symm⟩ hl.matches_text
    rw [tokenizeFrom_of_none hnone]
    rfl
  | gap hl _ ih =>
    rw [hl.tokenizeFrom_eq, Lexeme.tokens, List.nil_append, ih]
  | @token offset source text rest kind result hl _ ih =>
    rw [hl.tokenizeFrom_eq, Lexeme.tokens, List.singleton_append, ih]
    cases result <;> simp [Except.map]

/-- Every text is munched to some result. -/
theorem exists_munches (text : List Char) (offset : Nat) :
    ∃ result, Munches offset text result := by
  -- The length of the text bounds the number of matches, since none is empty.
  induction hn : text.length using Nat.strong_induction_on generalizing text offset with
  | _ n ih =>
    cases text with
    | nil => exact ⟨_, .finish offset⟩
    | cons c cs =>
      cases hcut : Lexeme.cut? c cs with
      | none =>
        exact ⟨_, .stuck fun kind start _ hs => Lexeme.not_matches_of_cut?_eq_none hcut kind hs⟩
      | some lexeme =>
        have hl := Lexeme.isLongest_cut? hcut
        have hlt : lexeme.rest.length < n := by
          have := Lexeme.length_rest_le hcut
          rw [List.length_cons] at hn
          omega
        obtain ⟨result, hresult⟩ := ih _ hlt lexeme.rest
          (offset + (String.ofList lexeme.text).utf8ByteSize) rfl
        cases hk : lexeme.kind with
        | none => exact ⟨result, .gap (hk ▸ hl) hresult⟩
        | some kind => exact ⟨_, .token (hk ▸ hl) hresult⟩

theorem Munches.tokenize_eq {source : String} {result : Except Error (List Token)}
    (h : Munches 0 source.toList result) : tokenize source = result := by
  rw [tokenize, h.tokenizeFrom_eq]
  cases result <;> rfl

/-- What a text is tokenized to is what munching makes of it. -/
theorem munches_tokenize (source : String) : Munches 0 source.toList (tokenize source) := by
  obtain ⟨result, h⟩ := exists_munches source.toList 0
  rwa [h.tokenize_eq]

end Abacus
