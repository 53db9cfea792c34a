import Abacus.Proofs.Token.Munch

/-!
# Scanning a text in pieces

A piece of text is scanned to certain contents in front of a rest when reading it there gives tokens
with these contents and goes on with the rest. Pieces compose. A number or a word is scanned whole
where the rest starts with no character that could continue it.
-/

namespace Abacus

/-- What a token says apart from its place. -/
def Token.content (t : Token) : Kind × String := (t.kind, t.text)

/-- Reading the text in front of the rest gives tokens with these contents. -/
def Scans (text : List Char) (contents : List (Kind × String)) (rest : List Char) : Prop :=
  ∀ offset read, ∃ (ts : List Token) (offset' : Nat), ts.map Token.content = contents ∧
    tokenizeFrom offset read (text ++ rest) = tokenizeFrom offset' (ts.reverse ++ read) rest

/-- No character that continues a number or a word stands at the start of the rest. -/
def Separates (rest : List Char) : Prop :=
  ∀ c ∈ rest.head?, isWordPart c = false ∧ c ≠ '.'

theorem separates_cons {c : Char} (h : isWordPart c = false ∧ c ≠ '.') (cs : List Char) :
    Separates (c :: cs) := by
  intro d hd
  obtain rfl : c = d := by simpa using hd
  exact h

/-- What separates numbers and words is no digit. -/
theorem Separates.not_isDigit {rest : List Char} (h : Separates rest) :
    ∀ c ∈ rest.head?, c.isDigit = false := by
  intro c hc
  by_contra hdigit
  have hpart := (h c hc).1
  rw [isWordPart, Text.isNumeric_of_isDigit (Bool.not_eq_false _ ▸ hdigit)] at hpart
  simp at hpart

theorem Scans.nil (rest : List Char) : Scans [] [] rest :=
  fun offset _ => ⟨[], offset, rfl, rfl⟩

/-- Pieces are scanned one after the other, the first in front of the second. -/
theorem Scans.append {x y rest : List Char} {xs ys : List (Kind × String)}
    (hx : Scans x xs (y ++ rest)) (hy : Scans y ys rest) : Scans (x ++ y) (xs ++ ys) rest := by
  intro offset read
  obtain ⟨ts, middle, hts, hfirst⟩ := hx offset read
  obtain ⟨us, last, hus, hsecond⟩ := hy middle (ts.reverse ++ read)
  refine ⟨ts ++ us, last, by rw [List.map_append, hts, hus], ?_⟩
  rw [List.append_assoc, hfirst, hsecond, List.reverse_append, List.append_assoc]

/-- A lexeme is a piece. -/
theorem scans_of_cut? {c : Char} {tail rest : List Char} (kind : Option Kind)
    (h : Lexeme.cut? c (tail ++ rest) = some ⟨kind, c :: tail, rest⟩) :
    Scans (c :: tail) (kind.toList.map (·, String.ofList (c :: tail))) rest := by
  intro offset read
  rw [List.cons_append, tokenizeFrom_of_some h]
  cases kind with
  | none => exact ⟨[], _, rfl, rfl⟩
  | some kind => exact ⟨[_], _, rfl, rfl⟩

theorem scans_gap {c : Char} (h : isGap c = true) (rest : List Char) : Scans [c] [] rest :=
  scans_of_cut? none (by simp [Lexeme.cut?, h])

theorem scans_symbol {c : Char} {kind : Kind} (h : Kind.ofSymbol? c = some kind)
    (rest : List Char) : Scans [c] [(kind, String.singleton c)] rest :=
  scans_of_cut? (some kind) (by simp [Lexeme.cut?, (class_of_ofSymbol? h).1, h])

section Numbers

variable {digits places rest : List Char}

/-- Digits are cut off in front of no digit, and of no point with a digit behind it. -/
theorem cutNumber_of_whole (hd : IsDigitRun digits) (hrest : ∀ c ∈ rest.head?, c.isDigit = false)
    (hpoint : ∀ d more, rest = '.' :: d :: more → d.isDigit = false) :
    cutNumber (digits ++ rest) = (digits, rest) := by
  obtain ⟨htake, hdrop⟩ := hd.cut rest hrest
  unfold cutNumber
  simp only [htake, hdrop]
  split
  · next d more => simp [hpoint d more rfl]
  · rfl

/-- Digits with a point and digits behind it are cut off in front of no digit. -/
theorem cutNumber_of_fraction (hd : IsDigitRun digits) (hp : IsDigitRun places)
    (hrest : ∀ c ∈ rest.head?, c.isDigit = false) :
    cutNumber (digits ++ '.' :: places ++ rest) = (digits ++ '.' :: places, rest) := by
  obtain ⟨f, fs, rfl⟩ := List.exists_cons_of_ne_nil hp.1
  have hf : f.isDigit = true := hp.2 f (by simp)
  obtain ⟨htake, hdrop⟩ := hd.cut ('.' :: (f :: fs ++ rest)) (by simp)
  obtain ⟨htake', hdrop'⟩ := hp.cut rest hrest
  simp only [List.cons_append, List.takeWhile_cons, List.dropWhile_cons, hf, if_true]
    at htake' hdrop'
  simp only [List.cons_append, List.append_assoc] at htake hdrop ⊢
  simp [cutNumber, htake, hdrop, hf, hdrop', (List.cons.inj htake').2]

/-- A number is cut off exactly in front of what separates it. -/
theorem cutNumber_eq {text : List Char} (h : IsPlainNumber text) (hrest : Separates rest) :
    cutNumber (text ++ rest) = (text, rest) := by
  cases h with
  | whole hd =>
    refine cutNumber_of_whole hd hrest.not_isDigit ?_
    rintro d more rfl
    exact absurd rfl (hrest '.' (by simp)).2
  | fraction hd hp => exact cutNumber_of_fraction hd hp hrest.not_isDigit

end Numbers

/-- The lexeme of a number is what is cut off as one. -/
theorem Lexeme.cut?_of_cutNumber {c : Char} {tail rest : List Char} (hc : c.isDigit = true)
    (hcut : cutNumber (c :: tail ++ rest) = (c :: tail, rest)) :
    cut? c (tail ++ rest) = some ⟨some .number, c :: tail, rest⟩ := by
  obtain ⟨hgap, hsymbol, -⟩ := class_of_isDigit hc
  rw [List.cons_append] at hcut
  simp [cut?, hgap, hsymbol, hc, hcut]

/-- The lexeme of a word ends in front of what cannot continue it. -/
theorem Lexeme.cut?_of_isWordStart {c : Char} {tail rest : List Char} (hc : isWordStart c = true)
    (htail : ∀ d ∈ tail, isWordPart d = true) (hrest : ∀ d ∈ rest.head?, isWordPart d = false) :
    cut? c (tail ++ rest) =
      some ⟨some (.ofWord (String.ofList (c :: tail))), c :: tail, rest⟩ := by
  obtain ⟨hgap, hsymbol, hdigit⟩ := class_of_isWordStart hc
  have hstop : rest.takeWhile isWordPart = [] ∧ rest.dropWhile isWordPart = rest := by
    cases rest with
    | nil => exact ⟨rfl, rfl⟩
    | cons d more => simp [hrest d (by simp)]
  simp [cut?, hgap, hsymbol, hdigit, hc, List.takeWhile_append_of_pos htail,
    List.dropWhile_append_of_pos htail, hstop.1, hstop.2]

/-- A number in front of what separates it is one token. -/
theorem scans_number {text rest : List Char} (h : IsPlainNumber text) (hrest : Separates rest) :
    Scans text [(.number, String.ofList text)] rest := by
  have hcut := cutNumber_eq h hrest
  obtain ⟨c, tail, rfl, hc⟩ := h.exists_head
  exact scans_of_cut? (some .number) (Lexeme.cut?_of_cutNumber hc hcut)

/-- A word in front of what separates it is one token. -/
theorem scans_word {text rest : List Char} (h : IsWord text) (hrest : Separates rest) :
    Scans text [(.ofWord (String.ofList text), String.ofList text)] rest := by
  obtain ⟨c, tail, rfl, hc, htail⟩ := h
  exact scans_of_cut? (some (.ofWord (String.ofList (c :: tail))))
    (Lexeme.cut?_of_isWordStart hc htail fun d hd => (hrest d hd).1)

/-- A text that is scanned to its end is tokenized, and closed by the end of input. -/
theorem Scans.tokenize_eq {source : String} {contents : List (Kind × String)}
    (h : Scans source.toList contents []) :
    ∃ (ts : List Token) (offset : Nat), ts.map Token.content = contents ∧
      tokenize source = .ok (ts ++ [.endOfInput offset]) := by
  obtain ⟨ts, offset, hts, heq⟩ := h 0 []
  refine ⟨ts, offset, hts, ?_⟩
  rw [List.append_nil, List.append_nil] at heq
  rw [tokenize, heq, tokenizeFrom_nil, List.reverse_cons, List.reverse_reverse]

end Abacus
