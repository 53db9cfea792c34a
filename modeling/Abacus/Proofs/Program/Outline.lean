import Abacus.Proofs.Binary64.Plain
import Abacus.Proofs.Program.Writer
import Mathlib.Data.List.Forall2

/-!
# Outlines line by line

A node of a program has an address: the number of its statement, and from there for every step down
the number of the operand. The length of the address is the depth of the node, and the order in
which the nodes are met, each before its operands, is the lexicographic order of addresses. An
outline is proved to hold one line for each address, in this order, indented by the depth.
-/

namespace Abacus

open Text (IndentedLine spaces renderLines)

namespace Expr

/-- The operands of a node. -/
def operands : Expr → List Expr
  | number _ => []
  | ident _ => []
  | binary _ left right => [left, right]

/-- The node that is reached by going down to operands with the given numbers. -/
def nodeAt? (e : Expr) : List Nat → Option Expr
  | [] => some e
  | i :: address => e.operands[i]?.bind (·.nodeAt? address)

/-- The number of nodes. -/
def nodeCount : Expr → Nat
  | number _ => 1
  | ident _ => 1
  | binary _ left right => left.nodeCount + right.nodeCount + 1

/-- The addresses of the nodes, each before those of the operands. -/
def addresses : Expr → List (List Nat)
  | number _ => [[]]
  | ident _ => [[]]
  | binary _ left right => [] :: (left.addresses.map (0 :: ·) ++ right.addresses.map (1 :: ·))

theorem length_addresses (e : Expr) : e.addresses.length = e.nodeCount := by
  induction e with
  | number _ | ident _ => rfl
  | binary op l r ihl ihr => simp [addresses, nodeCount, ihl, ihr]

/-- The addresses are those of the nodes. -/
theorem mem_addresses_iff {e : Expr} {address : List Nat} :
    address ∈ e.addresses ↔ (e.nodeAt? address).isSome := by
  induction e generalizing address with
  | number _ | ident _ => cases address <;> simp [addresses, nodeAt?, operands]
  | binary op l r ihl ihr =>
    cases address with
    | nil => simp [addresses, nodeAt?]
    | cons i address =>
      match i with
      | 0 => simp [addresses, nodeAt?, operands, ihl]
      | 1 => simp [addresses, nodeAt?, operands, ihr]
      | i + 2 => simp [addresses, nodeAt?, operands]

/-- Addresses that start alike are ordered by what follows. -/
theorem pairwise_map_cons {places : List (List Nat)} (h : places.Pairwise (· < ·)) (i : Nat) :
    (places.map (i :: ·)).Pairwise (· < ·) := by
  rw [List.pairwise_map]
  exact h.imp fun hlt => List.cons_lt_cons_iff.mpr (.inr ⟨rfl, hlt⟩)

/-- The addresses are in lexicographic order. -/
theorem pairwise_addresses (e : Expr) : e.addresses.Pairwise (· < ·) := by
  induction e with
  | number _ | ident _ => exact List.pairwise_singleton _ _
  | binary op l r ihl ihr =>
    refine List.pairwise_cons.mpr ⟨?_, List.pairwise_append.mpr
      ⟨pairwise_map_cons ihl 0, pairwise_map_cons ihr 1, ?_⟩⟩
    · intro address h
      rcases List.mem_append.mp h with h | h
      · obtain ⟨address, -, rfl⟩ := List.mem_map.mp h
        exact List.nil_lt_cons _ _
      · obtain ⟨address, -, rfl⟩ := List.mem_map.mp h
        exact List.nil_lt_cons _ _
    · intro a ha b hb
      obtain ⟨a, -, rfl⟩ := List.mem_map.mp ha
      obtain ⟨b, -, rfl⟩ := List.mem_map.mp hb
      exact List.cons_lt_cons_iff.mpr (.inl Nat.zero_lt_one)

/-- The lines of an outline are those of the nodes, in the order of their addresses. -/
theorem forall₂_outline (e : Expr) (depth : Nat) :
    List.Forall₂ (fun address line => ∃ d, e.nodeAt? address = some d ∧
      line = ⟨depth + address.length, d.headline⟩) e.addresses (e.outline depth) := by
  induction e generalizing depth with
  | number x => exact .cons ⟨_, rfl, rfl⟩ .nil
  | ident name => exact .cons ⟨_, rfl, rfl⟩ .nil
  | binary op l r ihl ihr =>
    refine .cons ⟨_, rfl, rfl⟩ (List.rel_append ?_ ?_)
    · rw [List.forall₂_map_left_iff]
      refine (ihl (depth + 1)).imp fun address line h => ?_
      obtain ⟨d, hd, rfl⟩ := h
      exact ⟨d, hd, by simp; omega⟩
    · rw [List.forall₂_map_left_iff]
      refine (ihr (depth + 1)).imp fun address line h => ?_
      obtain ⟨d, hd, rfl⟩ := h
      exact ⟨d, hd, by simp; omega⟩

/-- What the line of a node shows: the name of its form, and its number, its name, or its operator
in parentheses. -/
inductive Shows : Expr → String → Prop
  | number (x : Binary64) : Shows (.number x) ("NumberLiteral" ++ " " ++ x.plainText)
  | ident (name : String) : Shows (.ident name) ("Identifier" ++ " " ++ name)
  | binary (op : BinaryOp) (left right : Expr) :
    Shows (.binary op left right) ("BinaryExpression" ++ " (" ++ op.spelling ++ ")")

theorem shows_headline (e : Expr) : e.Shows e.headline := by
  cases e with
  | number x => exact .number x
  | ident name => exact .ident name
  | binary op l r => exact .binary op l r

end Expr

/-- The text of a number has digits, a point, a sign, and the letters of the words for what is not
finite. -/
theorem Binary64.mem_plainText {x : Binary64} {c : Char} (h : c ∈ x.plainText.toList) :
    c.isDigit = true ∨ c ∈ ['.', '-', 'N', 'a', 'i', 'n', 'f'] := by
  unfold plainText textWith at h
  split at h
  · have hletter : c = 'N' ∨ c = 'a' ∨ c = 'N' := by simpa using h
    rcases hletter with rfl | rfl | rfl <;> simp
  · simp only [String.toList_ofList, List.mem_append] at h
    rcases h with hsign | hsize
    · split at hsign
      · exact .inr (by simp_all)
      · simp at hsign
    · split at hsize
      · rcases (Decimal.isPlainNumber_positional _).isDigit_or_eq c hsize with hdigit | rfl
        · exact .inl hdigit
        · simp
      · exact .inr (by simp_all)

/-- The text of a number stands on one line. -/
theorem Binary64.feed_not_mem_plainText (x : Binary64) : '\n' ∉ x.plainText.toList := by
  intro h
  rcases mem_plainText h with hdigit | hmem
  · exact absurd hdigit (by decide)
  · exact absurd hmem (by decide)

/-- The node of an expression in words stands on one line if its name does. -/
theorem Expr.feed_not_mem_headline {e : Expr} (h : ∀ name, e = .ident name → '\n' ∉ name.toList) :
    '\n' ∉ e.headline.toList := by
  cases e with
  | number x => simp [headline, nodeType, x.feed_not_mem_plainText]
  | ident name => simp [headline, nodeType, h name rfl]
  | binary op l r =>
    have hspelling : '\n' ∉ op.spelling.toList := by cases op <;> decide
    simp [headline, nodeType, hspelling]

/-- A line as it stands between line feeds: the spaces of its depth, and its text. -/
def Text.IndentedLine.row (width : Nat) (line : IndentedLine) : String :=
  String.ofList (List.replicate (width * line.depth) ' ') ++ line.text

/-- Lines without a line feed in them are cut apart at the line feeds that close them. -/
theorem Text.splitOn_renderLines {lines : List IndentedLine} (width : Nat)
    (h : ∀ line ∈ lines, '\n' ∉ line.text.toList) :
    (renderLines width lines).toList.splitOn '\n' =
      lines.map (fun line => (line.row width).toList) ++ [[]] := by
  induction lines with
  | nil => rfl
  | cons line lines ih =>
    obtain ⟨hline, hlines⟩ := List.forall_mem_cons.mp h
    have hcut : (renderLines width (line :: lines)).toList =
        (line.row width).toList ++ '\n' :: (renderLines width lines).toList := by
      simp [renderLines_cons, IndentedLine.render, IndentedLine.row, spaces]
    have hfeed : '\n' ∉ (line.row width).toList := by
      simp [IndentedLine.row, hline]
    rw [hcut, List.splitOn_append_cons_self_of_not_mem hfeed, ih hlines]
    rfl

namespace Program

/-- The node at an address: the number of its statement, and the way down from there. -/
def nodeAt? (p : Program) : List Nat → Option Expr
  | [] => none
  | i :: address => p.body[i]?.bind (·.nodeAt? address)

/-- The addresses of the nodes, statement by statement. -/
def addresses (p : Program) : List (List Nat) :=
  p.body.zipIdx.flatMap fun (e, i) => e.addresses.map (i :: ·)

variable (p : Program)

theorem length_addresses : p.addresses.length = (p.body.map Expr.nodeCount).sum := by
  have hmap : p.body.map Expr.nodeCount = p.body.zipIdx.map fun x => x.1.nodeCount := by
    conv_lhs => rw [← List.zipIdx_map_fst 0 p.body, List.map_map]
    rfl
  simp [addresses, List.length_flatMap, Expr.length_addresses, hmap]

/-- The addresses are those of the nodes. -/
theorem mem_addresses_iff {p : Program} {address : List Nat} :
    address ∈ p.addresses ↔ (p.nodeAt? address).isSome := by
  cases address with
  | nil => simp [addresses, nodeAt?]
  | cons i address =>
    simp only [addresses, nodeAt?, List.mem_flatMap, List.mem_map, Expr.mem_addresses_iff]
    constructor
    · rintro ⟨⟨e, j⟩, hmem, other, hsome, heq⟩
      obtain ⟨rfl, rfl⟩ := List.cons.inj heq
      have hj : p.body[j]? = some e := List.mem_zipIdx_iff_getElem?.mp hmem
      rwa [hj, Option.bind_some]
    · intro hsome
      obtain ⟨e, hi⟩ := Option.isSome_iff_exists.mp (Option.isSome_of_isSome_bind hsome)
      rw [hi, Option.bind_some] at hsome
      exact ⟨(e, i), List.mem_zipIdx_iff_getElem?.mpr hi, address, hsome, rfl⟩

/-- The addresses are in lexicographic order. -/
theorem pairwise_addresses : p.addresses.Pairwise (· < ·) := by
  rw [addresses, List.pairwise_flatMap]
  constructor
  · intro x _
    exact Expr.pairwise_map_cons x.1.pairwise_addresses x.2
  · have hlt : (p.body.zipIdx.map Prod.snd).Pairwise (· < ·) := by
      rw [List.zipIdx_map_snd]
      exact List.pairwise_lt_range'
    refine (List.pairwise_map.mp hlt).imp fun hxy a ha b hb => ?_
    obtain ⟨a, -, rfl⟩ := List.mem_map.mp ha
    obtain ⟨b, -, rfl⟩ := List.mem_map.mp hb
    exact List.cons_lt_cons_iff.mpr (.inl hxy)

/-- Below the first line of an outline stand the lines of the nodes, in the order of their
addresses. -/
theorem forall₂_outline :
    List.Forall₂ (fun address line => ∃ e, p.nodeAt? address = some e ∧
      line = ⟨address.length, e.headline⟩) p.addresses (p.body.flatMap (Expr.outline 1)) := by
  have hstatements : List.Forall₂ (fun x e => x.1 = e ∧ p.body[x.2]? = some e) p.body.zipIdx
      (p.body.zipIdx.map Prod.fst) := by
    rw [List.forall₂_map_right_iff, List.forall₂_same]
    intro x hx
    exact ⟨rfl, List.mem_zipIdx_iff_getElem?.mp hx⟩
  rw [List.zipIdx_map_fst] at hstatements
  refine List.rel_flatMap hstatements ?_
  rintro ⟨e, i⟩ _ ⟨rfl, hi⟩
  rw [List.forall₂_map_left_iff]
  refine (e.forall₂_outline 1).imp fun address line h => ?_
  obtain ⟨d, hd, rfl⟩ := h
  refine ⟨d, ?_, ?_⟩
  · simp [nodeAt?, hi, hd]
  · simp; omega

/-- An outline has one line for the program and one for every node, closed by line feeds. The nodes
come in the lexicographic order of their addresses, so statement by statement and each before its
operands, and the line of a node has `width` spaces for every step of its address and then shows its
form and its number, its name or its operator. Only line feeds in names are excluded. -/
theorem render_tree_lines (p : Program) (width : Nat)
    (hnames : ∀ address name, p.nodeAt? address = some (.ident name) → '\n' ∉ name.toList) :
    ∃ (places : List (List Nat)) (rows : List String),
      (∀ address, address ∈ places ↔ (p.nodeAt? address).isSome) ∧ places.Pairwise (· < ·) ∧
      rows.length = (p.body.map Expr.nodeCount).sum ∧
      List.Forall₂ (fun address row => ∃ e text, p.nodeAt? address = some e ∧ e.Shows text ∧
        row.toList = List.replicate (width * address.length) ' ' ++ text.toList) places rows ∧
      (p.render ⟨width, .tree⟩).toList.splitOn '\n' =
        "Program".toList :: (rows.map String.toList ++ [[]]) := by
  have hlines := p.forall₂_outline
  refine ⟨p.addresses, (p.body.flatMap (Expr.outline 1)).map (·.row width),
    fun _ => mem_addresses_iff, p.pairwise_addresses, ?_, ?_, ?_⟩
  · rw [List.length_map, ← hlines.length_eq, p.length_addresses]
  · rw [List.forall₂_map_right_iff]
    refine hlines.imp fun address line h => ?_
    obtain ⟨e, he, rfl⟩ := h
    exact ⟨e, e.headline, he, e.shows_headline, by simp [IndentedLine.row]⟩
  · have hfeed : ∀ line ∈ p.outline, '\n' ∉ line.text.toList := by
      intro line hline
      rcases List.mem_cons.mp hline with rfl | hline
      · decide
      · obtain ⟨n, hn, rfl⟩ := List.mem_iff_getElem.mp hline
        obtain ⟨e, he, hline⟩ := hlines.get (hlines.length_eq ▸ hn) hn
        rw [List.get_eq_getElem] at hline
        rw [hline]
        exact Expr.feed_not_mem_headline fun name hname => hnames _ name (hname ▸ he)
    rw [p.render_tree, Text.splitOn_renderLines width hfeed]
    simp [outline, IndentedLine.row, nodeType]

/-- An operation on a negative infinity and a name with a tab in it, and a name without characters:
no name has a line feed, and below the first line the four nodes stand behind three spaces for every
step down. -/
theorem render_tree_lines_names :
    let p : Program :=
      ⟨[.binary .sub (.number (.ofBits 0xfff0000000000000)) (.ident "a\tb"), .ident ""]⟩
    let rows := ["   BinaryExpression (-)", "      NumberLiteral -inf", "      Identifier a\tb",
      "   Identifier "]
    (∀ address name, p.nodeAt? address = some (.ident name) → '\n' ∉ name.toList) ∧
      (∃ places : List (List Nat), (∀ address, address ∈ places ↔ (p.nodeAt? address).isSome) ∧
        List.Forall₂ (fun address row => ∃ e text, p.nodeAt? address = some e ∧ e.Shows text ∧
          row.toList = List.replicate (3 * address.length) ' ' ++ text.toList) places rows) ∧
      (p.render ⟨3, .tree⟩).toList.splitOn '\n' =
        "Program".toList :: (rows.map String.toList ++ [[]]) := by
  intro p rows
  have hnames : ∀ address name, p.nodeAt? address = some (.ident name) → '\n' ∉ name.toList := by
    intro address name h
    have hmem : address ∈ p.addresses := mem_addresses_iff.mpr (by rw [h]; rfl)
    have haddresses : p.addresses = [[0], [0, 0], [0, 1], [1]] := rfl
    simp only [haddresses, List.mem_cons, List.not_mem_nil, or_false] at hmem
    rcases hmem with rfl | rfl | rfl | rfl <;> cases h <;> decide
  have hrows : (p.render ⟨3, .tree⟩).toList.splitOn '\n' =
      "Program".toList :: (rows.map String.toList ++ [[]]) := by decide +kernel
  obtain ⟨places, found, hplaces, -, -, hfound, hlines⟩ := render_tree_lines p 3 hnames
  rw [hrows, List.cons.injEq, List.append_left_inj] at hlines
  obtain rfl : rows = found :=
    List.map_injective_iff.mpr (fun _ _ => String.toList_injective) hlines.2
  exact ⟨hnames, ⟨places, hplaces, hfound⟩, hrows⟩

end Program

end Abacus
