import Abacus.Text.Indented
import Abacus.Text.Quoted
import Mathlib.Data.List.Basic

/-!
# Texts that can be taken apart

A code writes a word for each of some things. It determines a view of them when its words show where
they end: two texts that are the same start with words for things of the same view, and go on in the
same way. What is written word by word is then determined as well, as long as no further word starts
behind it. The characters between quotation marks are such a code, and so are indented lines, whose
texts are determined whatever the width of the indentation.
-/

namespace Abacus.Text

section Codes

variable {α β γ : Type} {p : α → Prop} {code : α → List β} {view : α → γ}

/-- On the things with a property, the words of the code show where they end and determine the
view. -/
def Determines (p : α → Prop) (code : α → List β) (view : α → γ) : Prop :=
  ∀ ⦃x y⦄, p x → p y → ∀ ⦃rest rest'⦄, code x ++ rest = code y ++ rest' →
    view x = view y ∧ rest = rest'

/-- A code whose words are read back determines what is read. -/
theorem Determines.of_read {read : List β → Option (γ × List β)}
    (h : ∀ x, p x → ∀ rest, read (code x ++ rest) = some (view x, rest)) :
    Determines p code view := by
  intro x y hx hy rest rest' heq
  have hread := congrArg read heq
  rw [h x hx, h y hy] at hread
  exact Prod.mk.inj (Option.some.inj hread)

/-- Words written one behind the other determine the views, if no further word starts behind
them. -/
theorem Determines.flatMap (h : Determines p code view) {xs ys : List α} (hxs : ∀ x ∈ xs, p x)
    (hys : ∀ y ∈ ys, p y) {rest rest' : List β} (hrest : ∀ x, p x → ∀ more, code x ++ more ≠ rest)
    (hrest' : ∀ x, p x → ∀ more, code x ++ more ≠ rest')
    (heq : xs.flatMap code ++ rest = ys.flatMap code ++ rest') :
    xs.map view = ys.map view ∧ rest = rest' := by
  induction xs generalizing ys with
  | nil =>
    cases ys with
    | nil => exact ⟨rfl, heq⟩
    | cons y ys =>
      rw [List.flatMap_cons, List.append_assoc] at heq
      exact absurd heq.symm (hrest y (hys y List.mem_cons_self) _)
  | cons x xs ih =>
    obtain ⟨hx, hxs⟩ := List.forall_mem_cons.mp hxs
    rw [List.flatMap_cons, List.append_assoc] at heq
    cases ys with
    | nil => exact absurd heq (hrest' x hx _)
    | cons y ys =>
      obtain ⟨hy, hys⟩ := List.forall_mem_cons.mp hys
      rw [List.flatMap_cons, List.append_assoc] at heq
      obtain ⟨hview, htail⟩ := h hx hy heq
      obtain ⟨hviews, hend⟩ := ih hxs hys htail
      exact ⟨by rw [List.map_cons, List.map_cons, hview, hviews], hend⟩

end Codes

section Hexadecimal

/-- The value of a hexadecimal digit. -/
def hexDigit (c : Char) : Nat := if c.isDigit then c.toNat - '0'.toNat else c.toNat - 'a'.toNat + 10

/-- The value of hexadecimal digits. -/
def hexValue (digits : List Char) : Nat := digits.foldl (fun n c => 16 * n + hexDigit c) 0

theorem hexDigit_digitChar : ∀ n < 16, hexDigit (Nat.digitChar n) = n := by decide

/-- A number has the value of its hexadecimal digits. -/
theorem hexValue_toDigits (n : Nat) : hexValue (Nat.toDigits 16 n) = n := by
  induction n using Nat.strongRecOn with
  | ind n ih =>
    rw [Nat.toDigits_eq_if (by decide)]
    split
    · next hlt => simp [hexValue, hexDigit_digitChar n hlt]
    · next hle =>
      have hfront := ih (n / 16) (by omega)
      rw [hexValue] at hfront
      rw [hexValue, List.foldl_append, hfront, List.foldl_cons, List.foldl_nil,
        hexDigit_digitChar _ (Nat.mod_lt n (by decide))]
      omega

/-- Hexadecimal digits are the characters of numbers. -/
theorem exists_of_mem_toDigits {n : Nat} {c : Char} (h : c ∈ Nat.toDigits 16 n) :
    ∃ m, c = Nat.digitChar m := by
  induction n using Nat.strongRecOn with
  | ind n ih =>
    rw [Nat.toDigits_eq_if (by decide)] at h
    split at h
    · exact ⟨n, List.mem_singleton.mp h⟩
    · rcases List.mem_append.mp h with h | h
      · exact ih (n / 16) (by omega) h
      · exact ⟨n % 16, List.mem_singleton.mp h⟩

theorem brace_not_mem_toDigits (n : Nat) : '\x7d' ∉ Nat.toDigits 16 n := by
  intro h
  obtain ⟨m, hm⟩ := exists_of_mem_toDigits h
  exact Nat.digitChar_ne '\x7d' (by decide) hm.symm

theorem feed_not_mem_toDigits (n : Nat) : '\n' ∉ Nat.toDigits 16 n := by
  intro h
  obtain ⟨m, hm⟩ := exists_of_mem_toDigits h
  exact Nat.digitChar_ne '\n' (by decide) hm.symm

end Hexadecimal

section Quotation

/-- What a character behind a backslash stands for. -/
def escaped : Char → Char
  | '0' => '\x00'
  | 't' => '\t'
  | 'r' => '\r'
  | 'n' => '\n'
  | c => c

/-- Reads one character between double quotation marks. -/
def unescape? : List Char → Option (Char × List Char)
  | '\\' :: 'u' :: rest =>
    some (Char.ofNat (hexValue ((rest.takeWhile (· ≠ '\x7d')).drop 1)),
      (rest.dropWhile (· ≠ '\x7d')).drop 1)
  | '\\' :: c :: rest => some (escaped c, rest)
  | c :: rest => some (c, rest)
  | [] => none

/-- A code point is read back. -/
theorem unescape?_codePoint (c : Char) (rest : List Char) :
    unescape? (codePoint c ++ rest) = some (c, rest) := by
  have hdigits : ∀ d ∈ '\x7b' :: Nat.toDigits 16 c.toNat, decide (d ≠ '\x7d') = true := by
    intro d hd
    rw [decide_eq_true_iff]
    rintro rfl
    rcases List.mem_cons.mp hd with hd | hd
    · exact absurd hd (by decide)
    · exact brace_not_mem_toDigits _ hd
  have hsplit : codePoint c ++ rest =
      '\\' :: 'u' :: ('\x7b' :: Nat.toDigits 16 c.toNat ++ '\x7d' :: rest) := by
    simp [codePoint]
  rw [hsplit, unescape?, List.takeWhile_append_of_pos hdigits,
    List.dropWhile_append_of_pos hdigits]
  simp [hexValue_toDigits]

/-- A character between double quotation marks is read back. -/
theorem unescape?_escape (c : Char) (rest : List Char) :
    unescape? (escape '\x22' c ++ rest) = some (c, rest) := by
  unfold escape
  split_ifs with hnull htab hreturn hfeed hmark hhidden
  · rw [hnull]; rfl
  · rw [htab]; rfl
  · rw [hreturn]; rfl
  · rw [hfeed]; rfl
  · rcases hmark with rfl | rfl <;> rfl
  · exact unescape?_codePoint c rest
  · -- A character that stands for itself is no backslash.
    obtain ⟨hbackslash, -⟩ := not_or.mp hmark
    unfold unescape?
    split
    · next heq => exact absurd (List.cons.inj heq).1 hbackslash
    · next heq => exact absurd (List.cons.inj heq).1 hbackslash
    · next heq =>
      obtain ⟨rfl, rfl⟩ := List.cons.inj heq
      rfl
    · next heq => cases heq

/-- Between double quotation marks every character shows where it ends. -/
theorem determines_escape : Determines (fun _ => True) (escape '\x22') id :=
  .of_read fun c _ => unescape?_escape c

/-- No character between double quotation marks is written as the mark itself. -/
theorem escape_append_ne (c : Char) (more : List Char) : escape '\x22' c ++ more ≠ ['\x22'] := by
  intro heq
  have hread : some (c, more) = unescape? ['\x22'] := by rw [← heq, unescape?_escape]
  obtain ⟨rfl, rfl⟩ := Prod.mk.inj (Option.some.inj hread)
  exact absurd heq (by decide)

/-- Different texts are different in quotes. -/
theorem quoted_injective : Function.Injective quoted := by
  intro x y h
  have hlist := (List.cons.inj (String.ofList_injective h)).2
  have hstop : ∀ c : Char, True → ∀ more, escape '\x22' c ++ more ≠ ['\x22'] :=
    fun c _ => escape_append_ne c
  have hchars := (determines_escape.flatMap (fun _ _ => trivial) (fun _ _ => trivial) hstop hstop
    hlist).1
  rw [List.map_id, List.map_id] at hchars
  exact String.toList_injective hchars

/-- A text in quotes stands on one line. -/
theorem feed_not_mem_quoted (text : String) : '\n' ∉ (quoted text).toList := by
  have hescape (c : Char) : '\n' ∉ escape '\x22' c := by
    unfold escape
    split_ifs with hnull htab hreturn hfeed hmark hhidden
    · decide
    · decide
    · decide
    · decide
    · rcases hmark with rfl | rfl <;> decide
    · simp [codePoint, feed_not_mem_toDigits]
    · simpa using Ne.symm hfeed
  simp [quoted, between, hescape]

end Quotation

section Lines

/-- A text without a line feed in it or a space in front. -/
structure IsPlain (text : String) : Prop where
  no_feed : '\n' ∉ text.toList
  no_space : text.toList.head? ≠ some ' '

/-- Reads the text of one line, whatever its indentation. -/
def readLine (chars : List Char) : Option (String × List Char) :=
  let body := chars.dropWhile (· = ' ')
  some (String.ofList (body.takeWhile (· ≠ '\n')), (body.dropWhile (· ≠ '\n')).drop 1)

/-- The text of a line is read back if it is plain. -/
theorem readLine_render {line : IndentedLine} (h : IsPlain line.text) (width : Nat)
    (rest : List Char) :
    readLine ((line.render width).toList ++ rest) = some (line.text, rest) := by
  have hrender : (line.render width).toList ++ rest =
      List.replicate (width * line.depth) ' ' ++ (line.text.toList ++ '\n' :: rest) := by
    simp [IndentedLine.render, spaces]
  have hbody : (line.text.toList ++ '\n' :: rest).dropWhile (· = ' ') =
      line.text.toList ++ '\n' :: rest := by
    have hhead := h.no_space
    cases htext : line.text.toList with
    | nil => rfl
    | cons c cs =>
      have hc : c ≠ ' ' := by simpa [htext] using hhead
      simp [hc]
  have htext : ∀ c ∈ line.text.toList, decide (c ≠ '\n') = true := by
    intro c hc
    rw [decide_eq_true_iff]
    rintro rfl
    exact h.no_feed hc
  have hspaces : ∀ c ∈ List.replicate (width * line.depth) ' ', decide (c = ' ') = true := by
    intro c hc
    rw [List.eq_of_mem_replicate hc]
    decide
  rw [hrender, readLine]
  simp only [List.dropWhile_append_of_pos hspaces, hbody, List.takeWhile_append_of_pos htext,
    List.dropWhile_append_of_pos htext]
  simp

/-- Lines determine their texts if these are plain. -/
theorem texts_eq_of_renderLines {width : Nat} {xs ys : List IndentedLine}
    (hxs : ∀ x ∈ xs, IsPlain x.text) (hys : ∀ y ∈ ys, IsPlain y.text)
    (h : renderLines width xs = renderLines width ys) :
    xs.map IndentedLine.text = ys.map IndentedLine.text := by
  have hlines : Determines (fun line => IsPlain line.text)
      (fun line => (line.render width).toList) IndentedLine.text :=
    .of_read fun line hline => readLine_render hline width
  have hstop : ∀ line : IndentedLine, IsPlain line.text →
      ∀ more, (line.render width).toList ++ more ≠ [] := by
    intro line _ more
    simp [IndentedLine.render]
  have hchars : xs.flatMap (fun line => (line.render width).toList) ++ [] =
      ys.flatMap (fun line => (line.render width).toList) ++ [] := by
    have hlist := congrArg String.toList h
    simpa [renderLines, String.toList_join, List.flatMap, Function.comp_def] using hlist
  exact (hlines.flatMap hxs hys hstop hstop hchars).1

end Lines

end Abacus.Text
