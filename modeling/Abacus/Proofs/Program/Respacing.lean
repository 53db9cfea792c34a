import Abacus.Proofs.Grammar.Correspondence
import Abacus.Proofs.Program.RoundTrip
import Abacus.Proofs.Token.Spacing

/-!
# Spacing and meaning

Writing the tokens of a text with other blanks between them changes neither the contents of the
tokens nor what the text means, as long as no two tokens run together; and where two of them do, the
contents change.
-/

namespace Abacus

open Grammar

/-- Tokens of the same content at one index of two streams. -/
def SameIndex (tokens tokens' : List Token) (t u : Token) : Prop :=
  u.content = t.content ∧ ∃ k : Nat, tokens[k]? = some t ∧ tokens'[k]? = some u

theorem keepsReading_sameIndex (tokens tokens' : List Token) :
    KeepsReading (SameIndex tokens tokens') where
  kind_eq h := congrArg Prod.fst h.1
  text_eq h _ := congrArg Prod.snd h.1

/-- Streams of the same contents correspond index by index. -/
theorem forall₂_sameIndex {tokens tokens' : List Token}
    (h : tokens'.map Token.content = tokens.map Token.content) :
    List.Forall₂ (SameIndex tokens tokens') tokens tokens' := by
  have hcontents : List.Forall₂ Eq (tokens.map Token.content) (tokens'.map Token.content) := by
    rw [h]
    exact List.forall₂_refl _
  rw [List.forall₂_map_left_iff, List.forall₂_map_right_iff] at hcontents
  refine (forall₂_and_getElem? hcontents List.prefix_rfl List.prefix_rfl).imp ?_
  rintro t u ⟨htu, k, -, ht, hu⟩
  exact ⟨htu.symm, k, ht, hu⟩

/-- Texts of the same contents mean the same, or are refused for one cause at one index. -/
theorem sameResult_parseSource {source source' : String} {tokens tokens' : List Token}
    (h : tokenize source = .ok tokens) (h' : tokenize source' = .ok tokens')
    (hcontents : tokens'.map Token.content = tokens.map Token.content) :
    SameResult (SameIndex tokens tokens') Eq (parseSource source) (parseSource source') := by
  rw [parseSource_of_ok h, parseSource_of_ok h']
  have hsame := forall₂_sameIndex hcontents
  have hR := keepsReading_sameIndex tokens tokens'
  obtain ⟨ts, last, rfl, hts⟩ := exists_tokens_of_tokenize h
  obtain ⟨us, last', rfl, hus⟩ := exists_tokens_of_tokenize h'
  exact sameResult_parse hR (fun t ht => (hts t ht).1) (fun u hu => (hus u hu).1) hsame

/-- Spacing means nothing exactly where it should. The tokens of a text are written with any blanks
before, between and behind them. If a blank stands wherever a word is followed by a word or a
number, and wherever a number is followed by a number, then the same contents are read and the two
texts mean the same program, or are refused for the same cause at the token of the same index; and
if the same contents are read, then such blanks stand there. -/
theorem parseSource_respaced (source : String) (tokens : List Token)
    (h : tokenize source = .ok tokens) (pieces : List Piece)
    (htokens : pieces.map Piece.token = tokens)
    (hgaps : ∀ p ∈ pieces, ∀ c ∈ p.gap, c ∈ [' ', '\t', '\r', '\n']) :
    let respaced := String.ofList (written pieces)
    let separated :=
      pieces.IsChain fun p q => p.token.kind.runsInto q.token.kind = true → q.gap ≠ []
    (separated → ∃ tokens', tokenize respaced = .ok tokens' ∧
        tokens'.map Token.content = tokens.map Token.content ∧
        SameResult (SameIndex tokens tokens') Eq (parseSource source) (parseSource respaced)) ∧
      ((∃ tokens', tokenize respaced = .ok tokens' ∧
        tokens'.map Token.content = tokens.map Token.content) → separated) := by
  intro respaced separated
  have hblank : ∀ p ∈ pieces, ∀ c ∈ p.gap, isGap c = true :=
    fun p hp c hc => isGap_iff.mpr (hgaps p hp c hc)
  have hread := tokenize_written_iff h htokens hblank
  refine ⟨?_, hread.mp⟩
  intro hseparated
  obtain ⟨tokens', htokens', hcontents⟩ := hread.mpr hseparated
  exact ⟨tokens', htokens', hcontents, sameResult_parseSource h htokens' hcontents⟩

/-- A number in front of a name, and an operand missing: without the blanks, the same contents are
read, and the text is refused at the same token. -/
theorem parseSource_respaced_tight :
    let source := "2 x + )"
    let tokens : List Token :=
      [⟨.number, "2", ⟨0, 1⟩⟩, ⟨.identifier, "x", ⟨2, 3⟩⟩, ⟨.operator .plus, "+", ⟨4, 5⟩⟩,
        ⟨.punctuation .closeParen, ")", ⟨6, 7⟩⟩, .endOfInput 7]
    let pieces := tokens.map (Piece.mk [])
    tokenize source = .ok tokens ∧ String.ofList (written pieces) = "2x+)" ∧
      ∃ tokens', tokenize "2x+)" = .ok tokens' ∧
        tokens'.map Token.content = tokens.map Token.content ∧
        SameResult (SameIndex tokens tokens') Eq (parseSource source) (parseSource "2x+)") := by
  intro source tokens pieces
  have hsource : tokenize source = .ok tokens := by decide +kernel
  have hwritten : String.ofList (written pieces) = "2x+)" := by decide +kernel
  have hgaps : ∀ p ∈ pieces, ∀ c ∈ p.gap, c ∈ [' ', '\t', '\r', '\n'] := by
    intro p hp c hc
    obtain ⟨t, -, rfl⟩ := List.mem_map.mp hp
    cases hc
  have hrespaced := parseSource_respaced source tokens hsource pieces rfl hgaps
  rw [hwritten] at hrespaced
  exact ⟨hsource, hwritten, hrespaced.1 (by decide)⟩

end Abacus
