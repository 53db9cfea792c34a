import Abacus.Proofs.Binary64.Marked
import Abacus.Proofs.Program.RoundTrip
import Abacus.Proofs.Text.Delimited

/-!
# Layouts tell programs apart

Programs that texts mean are equal as soon as they are written in the same way in one layout. The
source layout is parsed back. The other two are lists of lines, and the texts of the lines alone, in
the order in which the nodes of a tree are met, determine the tree: the first line of a tree tells
its form, and the form tells how many trees follow. So the depths of the lines do not matter, and
neither does the width of the indentation.
-/

namespace Abacus

open Text

namespace Binary64

variable {x y : Binary64}

/-- Finite numbers without a sign have different plain texts. -/
theorem eq_of_plainText_eq (hx : x.IsFinite ∧ x.negative = false)
    (hy : y.IsFinite ∧ y.negative = false) (h : x.plainText = y.plainText) : x = y := by
  have hread := ofText?_plainText hx.1 hx.2
  rw [h, ofText?_plainText hy.1 hy.2] at hread
  exact (Option.some.inj hread).symm

/-- Finite numbers without a sign have different debug texts. -/
theorem eq_of_debugText_eq (hx : x.IsFinite ∧ x.negative = false)
    (hy : y.IsFinite ∧ y.negative = false) (h : x.debugText = y.debugText) : x = y := by
  have hread := ofText?_debugText hx.1 hx.2
  rw [h, ofText?_debugText hy.1 hy.2] at hread
  exact (Option.some.inj hread).symm

end Binary64

/-- A name has no line feed in it. -/
theorem IsName.feed_not_mem {name : String} (h : IsName name) : '\n' ∉ name.toList := by
  obtain ⟨c, cs, htext, hc, hcs⟩ := h.1
  rw [htext, List.mem_cons, not_or]
  constructor
  · rintro rfl
    exact absurd hc (by decide)
  · intro hfeed
    exact absurd (hcs '\n' hfeed) (by decide)

section Outline

/-- Two expressions of one form, with the same value, name or operation at the root. -/
inductive Expr.SameRoot : Expr → Expr → Prop
  | number (value : Binary64) : SameRoot (.number value) (.number value)
  | ident (name : String) : SameRoot (.ident name) (.ident name)
  | binary (op : BinaryOp) (l r l' r' : Expr) : SameRoot (.binary op l r) (.binary op l' r')

theorem BinaryOp.spelling_injective : Function.Injective BinaryOp.spelling := by
  intro op op' h
  revert h
  cases op <;> cases op' <;> decide

/-- The first line of an outline tells the root. -/
theorem Expr.sameRoot_of_headline_eq {d e : Expr} (hd : d.HasValidLeaves) (he : e.HasValidLeaves)
    (h : d.headline = e.headline) : d.SameRoot e := by
  cases d with
  | number x =>
    cases e with
    | number y =>
      have htext : x.plainText = y.plainText := by simpa [headline, nodeType] using h
      rw [Binary64.eq_of_plainText_eq hd he htext]
      exact .number y
    | ident _ | binary _ _ _ =>
      have hlist := congrArg String.toList h
      simp [headline, nodeType] at hlist
  | ident name =>
    cases e with
    | ident name' =>
      obtain rfl : name = name' := by simpa [headline, nodeType] using h
      exact .ident name
    | number _ | binary _ _ _ =>
      have hlist := congrArg String.toList h
      simp [headline, nodeType] at hlist
  | binary op l r =>
    cases e with
    | binary op' l' r' =>
      have hspelling : op.spelling = op'.spelling := by simpa [headline, nodeType] using h
      rw [BinaryOp.spelling_injective hspelling]
      exact .binary op' l r l' r'
    | number _ | ident _ =>
      have hlist := congrArg String.toList h
      simp [headline, nodeType] at hlist

/-- The outlines of the operands, one level further in. -/
def Expr.operandLines (depth : Nat) : Expr → List IndentedLine
  | number _ => []
  | ident _ => []
  | binary _ left right => left.outline (depth + 1) ++ right.outline (depth + 1)

theorem Expr.outline_eq (depth : Nat) (e : Expr) :
    e.outline depth = ⟨depth, e.headline⟩ :: e.operandLines depth := by
  cases e <;> rfl

/-- The texts of an outline determine the expression and show where it ends. -/
theorem Expr.determines_outline (depth : Nat) :
    Determines HasValidLeaves (fun e => (e.outline depth).map IndentedLine.text) id := by
  intro d e hd he rest rest' heq
  induction d generalizing depth e rest rest' with
  | number _ | ident _ =>
    simp only [outline_eq, List.map_cons, List.cons_append] at heq
    obtain ⟨hhead, htail⟩ := List.cons.inj heq
    cases sameRoot_of_headline_eq hd he hhead
    exact ⟨rfl, htail⟩
  | binary op l r ihl ihr =>
    simp only [outline_eq, List.map_cons, List.cons_append] at heq
    obtain ⟨hhead, htail⟩ := List.cons.inj heq
    cases sameRoot_of_headline_eq hd he hhead with
    | binary _ _ _ l' r' =>
      simp only [operandLines, List.map_append, List.append_assoc] at htail
      obtain ⟨rfl, hright⟩ := ihl (depth + 1) hd.1 he.1 htail
      obtain ⟨rfl, hrest⟩ := ihr (depth + 1) hd.2 he.2 hright
      exact ⟨rfl, hrest⟩

/-- The texts of an outline are plain. -/
theorem Expr.isPlain_of_mem_outline {e : Expr} (he : e.HasValidLeaves) {depth : Nat}
    {line : IndentedLine} (h : line ∈ e.outline depth) : IsPlain line.text := by
  induction e generalizing depth with
  | number x =>
    obtain rfl := List.mem_singleton.mp h
    have hfeed : '\n' ∉ x.plainText.toList := by
      intro hmem
      rcases (Binary64.isPlainNumber_plainText he.1 he.2).isDigit_or_eq '\n' hmem with h | h
      · exact absurd h (by decide)
      · exact absurd h (by decide)
    exact ⟨by simp [headline, nodeType, hfeed], by simp [headline, nodeType]⟩
  | ident name =>
    obtain rfl := List.mem_singleton.mp h
    exact ⟨by simp [headline, nodeType, IsName.feed_not_mem he], by simp [headline, nodeType]⟩
  | binary op l r ihl ihr =>
    rcases List.mem_cons.mp h with rfl | h
    · have hspelling : '\n' ∉ op.spelling.toList := by cases op <;> decide
      exact ⟨by simp [headline, nodeType, hspelling], by simp [headline, nodeType]⟩
    · rcases List.mem_append.mp h with h | h
      · exact ihl he.1 h
      · exact ihr he.2 h

/-- Programs with valid leaves are equal when their outlines are written in the same way, whatever
the width of the indentation. -/
theorem Program.eq_of_render_outline {p q : Program} (hp : p.HasValidLeaves)
    (hq : q.HasValidLeaves) {width : Nat}
    (h : renderLines width p.outline = renderLines width q.outline) : p = q := by
  have hplain {p : Program} (hp : p.HasValidLeaves) : ∀ line ∈ p.outline, IsPlain line.text := by
    intro line hline
    rcases List.mem_cons.mp hline with rfl | hline
    · exact ⟨by decide, by decide⟩
    · obtain ⟨e, he, hline⟩ := List.mem_flatMap.mp hline
      exact Expr.isPlain_of_mem_outline (hp e he) hline
  have htexts := texts_eq_of_renderLines (hplain hp) (hplain hq) h
  simp only [outline, List.map_cons, List.map_flatMap] at htexts
  have hbody := (List.cons.inj htexts).2
  have hstop : ∀ e : Expr, e.HasValidLeaves → ∀ more,
      (e.outline 1).map IndentedLine.text ++ more ≠ [] := by
    intro e _ more
    simp [Expr.outline_eq]
  have hbodies := ((Expr.determines_outline 1).flatMap hp hq hstop hstop (by simpa using hbody)).1
  rw [List.map_id, List.map_id] at hbodies
  exact congrArg Program.mk hbodies

end Outline

section Detail

theorem BinaryOp.name_injective : Function.Injective BinaryOp.name := by
  intro op op' h
  revert h
  cases op <;> cases op' <;> decide

/-- The texts of a constructor with its fields. -/
theorem Expr.map_text_detailNode (depth : Nat) (name : String) (fields : List IndentedLine) :
    (detailNode depth name fields).map IndentedLine.text =
      (name ++ "(") :: (fields.map IndentedLine.text ++ ["),"]) := by
  simp [detailNode]

/-- The texts of a detail determine the expression and show where it ends. -/
theorem Expr.determines_detail (depth : Nat) :
    Determines HasValidLeaves (fun e => (e.detail depth).map IndentedLine.text) id := by
  intro d e hd he rest rest' heq
  induction d generalizing depth e rest rest' with
  | number x =>
    cases e with
    | number y =>
      obtain ⟨htext, hrest⟩ : x.debugText = y.debugText ∧ rest = rest' := by
        simpa [detail, map_text_detailNode] using heq
      exact ⟨congrArg number (Binary64.eq_of_debugText_eq hd he htext), hrest⟩
    | ident _ | binary _ _ _ => simp [detail, map_text_detailNode] at heq
  | ident name =>
    cases e with
    | ident name' =>
      obtain ⟨htext, hrest⟩ : quoted name = quoted name' ∧ rest = rest' := by
        simpa [detail, map_text_detailNode] using heq
      exact ⟨congrArg ident (quoted_injective htext), hrest⟩
    | number _ | binary _ _ _ => simp [detail, map_text_detailNode] at heq
  | binary op l r ihl ihr =>
    cases e with
    | binary op' l' r' =>
      simp only [detail, map_text_detailNode, List.map_append, List.map_cons, List.cons_append,
        List.append_assoc] at heq
      obtain ⟨rfl, hoperator⟩ := ihl (depth + 1) hd.1 he.1 (List.cons.inj heq).2
      obtain ⟨hname, hright⟩ := List.cons.inj hoperator
      obtain ⟨rfl, hclose⟩ := ihr (depth + 1) hd.2 he.2 hright
      obtain rfl : op = op' := BinaryOp.name_injective (by simpa using hname)
      exact ⟨rfl, (List.cons.inj hclose).2⟩
    | number _ | ident _ => simp [detail, map_text_detailNode] at heq

/-- The texts of a constructor are plain if its first one is and those of its fields are. -/
theorem Expr.isPlain_of_mem_detailNode {depth : Nat} {name : String} {fields : List IndentedLine}
    (hname : IsPlain (name ++ "(")) (hfields : ∀ line ∈ fields, IsPlain line.text)
    {line : IndentedLine} (h : line ∈ detailNode depth name fields) : IsPlain line.text := by
  have hclose : IsPlain ")," := ⟨by decide, by decide⟩
  rcases List.mem_cons.mp h with rfl | h
  · exact hname
  · rcases List.mem_append.mp h with h | h
    · exact hfields line h
    · rwa [List.mem_singleton.mp h]

/-- A finite number without a sign, and a comma behind it. -/
theorem Binary64.isPlain_debugText {x : Binary64} (hx : x.IsFinite ∧ x.negative = false) :
    IsPlain (x.debugText ++ ",") := by
  have hfeed : '\n' ∉ x.debugText.toList := by
    rw [toList_debugText hx.1 hx.2]
    exact Decimal.not_mem_marked (by decide) (by decide) _
  obtain ⟨c, hc, hdigit⟩ := (ofText?_eq_some_iff.mp (ofText?_debugText hx.1 hx.2)).1
  refine ⟨by simp [hfeed], ?_⟩
  rw [String.toList_append, List.head?_append, Option.mem_def.mp hc]
  rintro ⟨⟩
  exact absurd hdigit (by decide)

/-- The texts of a detail are plain. -/
theorem Expr.isPlain_of_mem_detail {e : Expr} (he : e.HasValidLeaves) {depth : Nat}
    {line : IndentedLine} (h : line ∈ e.detail depth) : IsPlain line.text := by
  induction e generalizing depth line with
  | number x =>
    refine isPlain_of_mem_detailNode ⟨by decide, by decide⟩ ?_ h
    intro field hfield
    rw [List.mem_singleton.mp hfield]
    exact Binary64.isPlain_debugText he
  | ident name =>
    refine isPlain_of_mem_detailNode ⟨by decide, by decide⟩ ?_ h
    intro field hfield
    rw [List.mem_singleton.mp hfield]
    exact ⟨by simp [feed_not_mem_quoted], by simp [quoted, between]⟩
  | binary op l r ihl ihr =>
    have hop : IsPlain (op.name ++ ",") := by cases op <;> exact ⟨by decide, by decide⟩
    refine isPlain_of_mem_detailNode ⟨by decide, by decide⟩ ?_ h
    intro field hfield
    rcases List.mem_append.mp hfield with hfield | hfield
    · exact ihl he.1 hfield
    · rcases List.mem_cons.mp hfield with rfl | hfield
      · exact hop
      · exact ihr he.2 hfield

/-- The texts of a statement in detail. -/
def Expr.statementTexts (e : Expr) : List String :=
  (detailNode 2 "Expr" (e.detail 3)).map IndentedLine.text

/-- The texts of a statement in detail determine it and show where it ends. -/
theorem Expr.determines_statementTexts : Determines HasValidLeaves statementTexts id := by
  intro d e hd he rest rest' heq
  simp only [statementTexts, map_text_detailNode, List.cons_append, List.append_assoc] at heq
  obtain ⟨heq, hclose⟩ := determines_detail 3 hd he (List.cons.inj heq).2
  exact ⟨heq, (List.cons.inj hclose).2⟩

theorem Program.map_text_detailBody_cons (e : Expr) (body : List Expr) :
    (detailBody (e :: body)).map IndentedLine.text =
      "body: [" :: ((e :: body).flatMap Expr.statementTexts ++ ["],"]) := by
  simp only [detailBody, List.map_cons, List.map_append, List.map_flatMap, List.map_nil]
  rfl

/-- The texts of the statements of a program in detail determine the statements. -/
theorem Program.eq_of_detailBody_eq {body body' : List Expr}
    (hbody : ∀ e ∈ body, e.HasValidLeaves) (hbody' : ∀ e ∈ body', e.HasValidLeaves)
    (h : (detailBody body).map IndentedLine.text = (detailBody body').map IndentedLine.text) :
    body = body' := by
  have hstop : ∀ e : Expr, e.HasValidLeaves → ∀ more, e.statementTexts ++ more ≠ ["],"] := by
    intro e _ more
    simp [Expr.statementTexts, Expr.map_text_detailNode]
  cases body with
  | nil =>
    cases body' with
    | nil => rfl
    | cons e body' =>
      rw [map_text_detailBody_cons] at h
      simp [detailBody] at h
  | cons d body =>
    cases body' with
    | nil =>
      rw [map_text_detailBody_cons] at h
      simp [detailBody] at h
    | cons e body' =>
      rw [map_text_detailBody_cons, map_text_detailBody_cons] at h
      have hbodies := (Expr.determines_statementTexts.flatMap hbody hbody' hstop hstop
        (List.cons.inj h).2).1
      rwa [List.map_id, List.map_id] at hbodies

/-- The texts of the statements of a program in detail are plain. -/
theorem Program.isPlain_of_mem_detailBody {body : List Expr}
    (hbody : ∀ e ∈ body, e.HasValidLeaves) {line : IndentedLine} (h : line ∈ detailBody body) :
    IsPlain line.text := by
  cases body with
  | nil =>
    rw [List.mem_singleton.mp h]
    exact ⟨by decide, by decide⟩
  | cons e body =>
    rcases List.mem_cons.mp h with rfl | h
    · exact ⟨by decide, by decide⟩
    · rcases List.mem_append.mp h with h | h
      · obtain ⟨d, hd, hline⟩ := List.mem_flatMap.mp h
        exact Expr.isPlain_of_mem_detailNode ⟨by decide, by decide⟩
          (fun _ => Expr.isPlain_of_mem_detail (hbody d hd)) hline
      · rw [List.mem_singleton.mp h]
        exact ⟨by decide, by decide⟩

/-- Programs with valid leaves are equal when their details are written in the same way. -/
theorem Program.eq_of_render_detail {p q : Program} (hp : p.HasValidLeaves)
    (hq : q.HasValidLeaves) {width : Nat}
    (h : renderLines width p.detail = renderLines width q.detail) : p = q := by
  have hplain {p : Program} (hp : p.HasValidLeaves) : ∀ line ∈ p.detail, IsPlain line.text := by
    intro line hline
    rcases List.mem_cons.mp hline with rfl | hline
    · exact ⟨by decide, by decide⟩
    · rcases List.mem_append.mp hline with hline | hline
      · exact isPlain_of_mem_detailBody hp hline
      · rw [List.mem_singleton.mp hline]
        exact ⟨by decide, by decide⟩
  have htexts := texts_eq_of_renderLines (hplain hp) (hplain hq) h
  simp only [detail, List.map_cons, List.map_append] at htexts
  have hbodies := List.append_cancel_right (List.cons.inj htexts).2
  exact congrArg Program.mk (eq_of_detailBody_eq hp hq hbodies)

end Detail

section Values

/-- Among finite numbers without a sign, equality by value is equality. -/
theorem Binary64.sameValue_iff {x y : Binary64} (hx : x.IsFinite ∧ x.negative = false)
    (hy : y.IsFinite ∧ y.negative = false) : x.sameValue y = true ↔ x = y := by
  have hdefined : ¬ x.IsUndefined := Nat.not_lt.mpr (Nat.le_of_lt hx.1)
  simp only [sameValue, hdefined, decide_false, Bool.not_false, Bool.true_and, Bool.or_eq_true,
    decide_eq_true_eq, Bool.and_eq_true, beq_iff_eq, or_iff_left_iff_imp]
  rintro ⟨hzero, hzero'⟩
  exact ext_parts (hx.2.trans hy.2.symm) (hzero.trans hzero'.symm)

/-- Among expressions with valid leaves, equality by value is equality. -/
theorem Expr.sameValue_iff {d e : Expr} (hd : d.HasValidLeaves) (he : e.HasValidLeaves) :
    d.sameValue e = true ↔ d = e := by
  induction d generalizing e with
  | number x =>
    cases e with
    | number y => simp [sameValue, Binary64.sameValue_iff hd he]
    | ident _ | binary _ _ _ => simp [sameValue]
  | ident name => cases e <;> simp [sameValue]
  | binary op l r ihl ihr =>
    cases e with
    | binary op' l' r' => simp [sameValue, ihl hd.1 he.1, ihr hd.2 he.2, and_assoc]
    | number _ | ident _ => simp [sameValue]

/-- Among programs with valid leaves, equality by value is equality. -/
theorem Program.sameValue_iff {p q : Program} (hp : p.HasValidLeaves) (hq : q.HasValidLeaves) :
    p.sameValue q = true ↔ p = q := by
  obtain ⟨body⟩ := p
  obtain ⟨body'⟩ := q
  induction body generalizing body' with
  | nil => cases body' <;> simp [sameValue]
  | cons d body ih =>
    cases body' with
    | nil => simp [sameValue]
    | cons e body' =>
      obtain ⟨hd, hbody⟩ := List.forall_mem_cons.mp hp
      obtain ⟨he, hbody'⟩ := List.forall_mem_cons.mp hq
      have htail := ih hbody body' hbody'
      simp only [sameValue, Bool.and_eq_true, beq_iff_eq, mk.injEq] at htail
      simp only [sameValue, List.length_cons, List.zip_cons_cons, List.all_cons,
        Bool.and_eq_true, beq_iff_eq, Nat.add_right_cancel_iff, Expr.sameValue_iff hd he, mk.injEq,
        List.cons.injEq, ← htail]
      tauto

end Values

/-- Every layout tells programs apart. Programs that texts mean are equal as soon as they are
written in the same way, as source, in detail or as outlines of any width; so two texts have the
same canonical form exactly when they mean the same program. The same it is bit for bit and by
value. -/
theorem Program.eq_of_render_eq (source source' : String) (p q : Program)
    (hp : parseSource source = .ok p) (hq : parseSource source' = .ok q) :
    (∀ layout : Layout, p.render layout = q.render layout → p = q) ∧
      (formatSource source = formatSource source' ↔ p = q) ∧ (p.sameValue q = true ↔ p = q) := by
  obtain ⟨hleaves, -⟩ := hasValidLeaves_of_parseSource hp
  obtain ⟨hleaves', -⟩ := hasValidLeaves_of_parseSource hq
  have hformat := formatSource_eq_ok_iff.mpr ⟨p, hp, rfl⟩
  have hformat' := formatSource_eq_ok_iff.mpr ⟨q, hq, rfl⟩
  have hsource (h : p.source = q.source) : p = q := by
    have hparse := (parseSource_of_formatSource hformat).1
    rw [h, (parseSource_of_formatSource hformat').1, hp, hq] at hparse
    exact (Except.ok.inj hparse).symm
  refine ⟨?_, ?_, sameValue_iff hleaves hleaves'⟩
  · rintro ⟨width, style⟩ h
    cases style with
    | source => exact hsource (by rwa [render_source, render_source] at h)
    | tree => exact eq_of_render_outline hleaves hleaves' (by rwa [render_tree, render_tree] at h)
    | debug => exact eq_of_render_detail hleaves hleaves' h
  · rw [hformat, hformat', Except.ok.injEq]
    exact ⟨hsource, fun h => congrArg Program.source h⟩

/-- Names spelled like the first lines of nodes, and an outline without indentation: the texts mean
different programs, and no layout writes both in the same way. -/
theorem Program.eq_of_render_eq_labels :
    let source := "NumberLiteral - (Identifier + 1)"
    let source' := "(NumberLiteral - Identifier) + 1"
    let p : Program := ⟨[.binary .sub (.ident "NumberLiteral")
      (.binary .add (.ident "Identifier") (.number (.ofBits 0x3ff0000000000000)))]⟩
    let q : Program := ⟨[.binary .add (.binary .sub (.ident "NumberLiteral") (.ident "Identifier"))
      (.number (.ofBits 0x3ff0000000000000))]⟩
    (parseSource source = .ok p ∧ parseSource source' = .ok q) ∧
      p.render ⟨0, .tree⟩ ≠ q.render ⟨0, .tree⟩ ∧ p.render ⟨0, .debug⟩ ≠ q.render ⟨0, .debug⟩ ∧
      formatSource source ≠ formatSource source' := by
  intro source source' p q
  have hp : parseSource source = .ok p := by decide +kernel
  have hq : parseSource source' = .ok q := by decide +kernel
  have hne : p ≠ q := by decide
  obtain ⟨hrender, hformat, -⟩ := eq_of_render_eq source source' p q hp hq
  exact ⟨⟨hp, hq⟩, fun h => hne (hrender _ h), fun h => hne (hrender _ h),
    fun h => hne (hformat.mp h)⟩

end Abacus
