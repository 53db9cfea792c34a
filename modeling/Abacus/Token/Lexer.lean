import Abacus.Error
import Abacus.Text.Alphabetic
import Abacus.Text.Numeric

/-!
# Reading tokens from text

Text is cut from left to right into lexemes. The first character decides the class of a lexeme: a
blank, a number, a word or a symbol; numbers and words extend as far as they can. Blanks leave no
token. The first character that starts no lexeme is the error, and no token is kept then.

The main facts are that the text of a lexeme and what follows it make up the text they were cut
from (`Lexeme.text_append_rest`) and that no lexeme is empty (`Lexeme.text_ne_nil`), so that cutting
ends.
-/

namespace Abacus

/-- The blanks between tokens: space, tab, carriage return and line feed. -/
def isGap (c : Char) : Bool := c = ' ' || c = '\t' || c = '\r' || c = '\n'

/-- Whether a word may start with a character. -/
def isWordStart (c : Char) : Bool := Text.isAlphabetic c || c = '_'

/-- Whether a word may go on with a character. -/
def isWordPart (c : Char) : Bool := Text.isAlphabetic c || Text.isNumeric c || c = '_'

/-- The longest number at the start of a text, and the rest: digits, and a point with digits behind
it. A point without a digit behind it is no part of the number. -/
def cutNumber (text : List Char) : List Char × List Char :=
  let whole := text.takeWhile Char.isDigit
  match text.dropWhile Char.isDigit with
  | '.' :: d :: rest =>
    if d.isDigit then
      (whole ++ '.' :: d :: rest.takeWhile Char.isDigit, rest.dropWhile Char.isDigit)
    else (whole, '.' :: d :: rest)
  | rest => (whole, rest)

/-- A lexeme with the text behind it. Blanks have no kind. -/
structure Lexeme where
  kind : Option Kind
  text : List Char
  rest : List Char
  deriving DecidableEq

namespace Lexeme

/-- The lexeme that starts with the character `c`, in front of the text `cs`. -/
def cut? (c : Char) (cs : List Char) : Option Lexeme :=
  if isGap c then some ⟨none, [c], cs⟩
  else match Kind.ofSymbol? c with
    | some kind => some ⟨some kind, [c], cs⟩
    | none =>
      if c.isDigit then
        let (number, rest) := cutNumber (c :: cs)
        some ⟨some .number, number, rest⟩
      else if isWordStart c then
        let word := c :: cs.takeWhile isWordPart
        some ⟨some (.ofWord (String.ofList word)), word, cs.dropWhile isWordPart⟩
      else none

/-- Cutting a number loses nothing. -/
theorem cutNumber_append (text : List Char) :
    (cutNumber text).1 ++ (cutNumber text).2 = text := by
  have h := List.takeWhile_append_dropWhile (p := Char.isDigit) (l := text)
  unfold cutNumber
  split
  · next d rest hd =>
    split
    · have hr := List.takeWhile_append_dropWhile (p := Char.isDigit) (l := rest)
      rw [hd] at h
      simp only [List.append_assoc, List.cons_append, hr, h]
    · rwa [hd] at h
  · exact h

/-- A number that starts with a digit has that digit. -/
theorem cutNumber_cons {c : Char} (hc : c.isDigit = true) (cs : List Char) :
    ∃ number, (cutNumber (c :: cs)).1 = c :: number := by
  unfold cutNumber
  simp only [List.takeWhile_cons, hc, if_true]
  split
  · split <;> simp
  · simp

/-- A lexeme and the text behind it are the text they were cut from. -/
theorem text_append_rest {c : Char} {cs : List Char} {lexeme : Lexeme}
    (h : cut? c cs = some lexeme) : lexeme.text ++ lexeme.rest = c :: cs := by
  unfold cut? at h
  split at h
  · cases h; rfl
  · split at h
    · cases h; rfl
    · split at h
      · cases h; exact cutNumber_append (c :: cs)
      · split at h
        · cases h; simp
        · cases h

/-- No lexeme is empty: it starts with the character it was cut at. -/
theorem text_ne_nil {c : Char} {cs : List Char} {lexeme : Lexeme}
    (h : cut? c cs = some lexeme) : ∃ tail, lexeme.text = c :: tail := by
  unfold cut? at h
  split at h
  · cases h; exact ⟨[], rfl⟩
  · split at h
    · cases h; exact ⟨[], rfl⟩
    · split at h
      · next hd => cases h; exact cutNumber_cons hd cs
      · split at h
        · cases h; exact ⟨_, rfl⟩
        · cases h

/-- Cutting a lexeme leaves less text. -/
theorem length_rest_le {c : Char} {cs : List Char} {lexeme : Lexeme}
    (h : cut? c cs = some lexeme) : lexeme.rest.length ≤ cs.length := by
  have ht := congrArg List.length (text_append_rest h)
  obtain ⟨tail, hl⟩ := text_ne_nil h
  simp only [List.length_append, hl, List.length_cons] at ht
  omega

/-- The tokens of a lexeme that starts at an offset: one, or none for a blank. -/
def tokens (lexeme : Lexeme) (offset : Nat) : List Token :=
  let text := String.ofList lexeme.text
  match lexeme.kind with
  | some kind => [⟨kind, text, ⟨offset, offset + text.utf8ByteSize⟩⟩]
  | none => []

end Lexeme

/-- Reads a text that starts at an offset, behind the tokens already read, latest first. -/
def tokenizeFrom (offset : Nat) (read : List Token) : List Char → Except Error (List Token)
  | [] => .ok (Token.endOfInput offset :: read).reverse
  | c :: cs =>
    match h : Lexeme.cut? c cs with
    | none => .error ⟨.unexpectedCharacter c, ⟨offset, offset + c.utf8Size⟩⟩
    | some lexeme =>
      have := Lexeme.length_rest_le h
      tokenizeFrom (offset + (String.ofList lexeme.text).utf8ByteSize)
        (lexeme.tokens offset ++ read) lexeme.rest
  termination_by text => text.length

@[simp] theorem tokenizeFrom_nil (offset : Nat) (read : List Token) :
    tokenizeFrom offset read [] = .ok (Token.endOfInput offset :: read).reverse := by
  rw [tokenizeFrom]

/-- A character that starts no lexeme ends the reading. -/
theorem tokenizeFrom_of_none {c : Char} {cs : List Char} (h : Lexeme.cut? c cs = none)
    (offset : Nat) (read : List Token) :
    tokenizeFrom offset read (c :: cs) =
      .error ⟨.unexpectedCharacter c, ⟨offset, offset + c.utf8Size⟩⟩ := by
  rw [tokenizeFrom]
  split
  · rfl
  · next h' => rw [h] at h'; cases h'

/-- A lexeme adds its tokens and moves the offset behind its text. -/
theorem tokenizeFrom_of_some {c : Char} {cs : List Char} {lexeme : Lexeme}
    (h : Lexeme.cut? c cs = some lexeme) (offset : Nat) (read : List Token) :
    tokenizeFrom offset read (c :: cs) =
      tokenizeFrom (offset + (String.ofList lexeme.text).utf8ByteSize)
        (lexeme.tokens offset ++ read) lexeme.rest := by
  rw [tokenizeFrom]
  split
  · next h' => rw [h] at h'; cases h'
  · next other h' => rw [h] at h'; cases h'; rfl

/-- The tokens of a text, closed by the end of input. -/
def tokenize (source : String) : Except Error (List Token) :=
  tokenizeFrom 0 [] source.toList

end Abacus
