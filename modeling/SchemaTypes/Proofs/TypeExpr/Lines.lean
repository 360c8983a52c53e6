import SchemaTypes.Proofs.TypeExpr.Depth
import SchemaTypes.Proofs.TypeExpr.Preorder
import SchemaTypes.Proofs.TypeExpr.References
import SchemaTypes.TypeExpr.References
import SchemaTypes.TypeExpr.Render

/-! # Source lines are visible to equality only

Erasing the lines of a type changes nothing in what is written, fragment by fragment, nor in its
depth and the names it refers to. Types that differ in lines only are told apart by the lists of
their lines, which split between the children of a node at the same places.
-/
namespace SchemaTypes
open Text

namespace Reference

theorem eq_of_eraseLine_eq {r q : Reference} (h : r.eraseLine = q.eraseLine)
    (hline : r.line = q.line) : r = q := by
  cases r
  cases q
  rw [mk.injEq]
  exact ⟨(mk.inj h).1, hline⟩

end Reference

namespace Annotation

theorem script_eraseLine (a : Annotation) : a.eraseLine.script = a.script := rfl

theorem blockScript_eraseLine (as : List Annotation) :
    blockScript (as.map eraseLine) = blockScript as := by
  cases as with
  | nil => rfl
  | cons a as =>
    simp only [List.map_cons, blockScript, List.map_map, Function.comp_def, script_eraseLine]

theorem tailScript_eraseLine (as : List Annotation) :
    tailScript (as.map eraseLine) = tailScript as := by
  have h := blockScript_eraseLine as
  cases as with
  | nil => rfl
  | cons a as =>
    rw [List.map_cons] at h ⊢
    simp only [tailScript, h]

theorem eq_of_eraseLine_eq {a b : Annotation} (h : a.eraseLine = b.eraseLine)
    (hline : a.line = b.line) : a = b := by
  cases a
  cases b
  rw [mk.injEq]
  exact ⟨(mk.inj h).1, (mk.inj h).2.1, hline⟩

/-- The list comes first, and the number of its lines is known from the list without lines. -/
theorem append_lines_inj {as bs : List Annotation} (h : as.map eraseLine = bs.map eraseLine)
    {x y : List Nat} (hline : as.map line ++ x = bs.map line ++ y) : as = bs ∧ x = y := by
  induction as generalizing bs with
  | nil =>
    have hbs : bs = [] := List.map_eq_nil_iff.mp h.symm
    subst hbs
    exact ⟨rfl, hline⟩
  | cons a as ih =>
    cases bs with
    | nil => cases h
    | cons b bs =>
      obtain ⟨hhead, hrest⟩ := List.cons.inj h
      obtain ⟨hheadLine, hrestLine⟩ := List.cons.inj hline
      obtain ⟨rfl, hxy⟩ := ih hrest hrestLine
      exact ⟨by rw [eq_of_eraseLine_eq hhead hheadLine], hxy⟩

end Annotation

namespace TypeExpr

theorem script_eraseLines (t : TypeExpr) : t.eraseLines.script = t.script := by
  induction t with
  | primitive p as => simp only [eraseLines, script, Annotation.tailScript_eraseLine]
  | map k v as ihk ihv =>
    simp only [eraseLines, script, ihk, ihv, Annotation.tailScript_eraseLine]
  | list e as ih | set e as ih =>
    simp only [eraseLines, script, ih, Annotation.tailScript_eraseLine]
  | reference r => rfl

theorem height_eraseLines (t : TypeExpr) : t.eraseLines.height = t.height := by
  induction t with
  | primitive p as => rfl
  | map k v as ihk ihv => simp only [eraseLines, height, ihk, ihv]
  | list e as ih | set e as ih => simp only [eraseLines, height, ih]
  | reference r => rfl

theorem depth_eraseLines (t : TypeExpr) : t.eraseLines.depth = t.depth := by
  rw [depth_eq_height, depth_eq_height, height_eraseLines]

theorem references_eraseLines (t : TypeExpr) :
    t.eraseLines.references = t.references.map Reference.eraseLine := by
  induction t with
  | primitive p as => rfl
  | map k v as ihk ihv =>
    simp only [eraseLines, references_map, ihk, ihv, List.map_append]
  | list e as ih => simp only [eraseLines, references_list, ih]
  | set e as ih => simp only [eraseLines, references_set, ih]
  | reference r => rfl

theorem names_eraseLines (t : TypeExpr) :
    t.eraseLines.references.map Reference.name = t.references.map Reference.name := by
  rw [references_eraseLines, List.map_map]
  rfl

section ListsOfLines

@[simp] theorem referenceLines_map (k v : TypeExpr) (as : List Annotation) :
    (TypeExpr.map k v as).referenceLines = k.referenceLines ++ v.referenceLines := by
  simp only [referenceLines, references_map, List.map_append]
@[simp] theorem referenceLines_list (e : TypeExpr) (as : List Annotation) :
    (TypeExpr.list e as).referenceLines = e.referenceLines := by
  simp only [referenceLines, references_list]
@[simp] theorem referenceLines_set (e : TypeExpr) (as : List Annotation) :
    (TypeExpr.set e as).referenceLines = e.referenceLines := by
  simp only [referenceLines, references_set]

theorem length_referenceLines_eraseLines (t : TypeExpr) :
    t.eraseLines.referenceLines.length = t.referenceLines.length := by
  simp only [referenceLines, references_eraseLines, List.length_map]

theorem annotationLines_eq_flatMap (t : TypeExpr) :
    t.annotationLines = t.nodes.flatMap fun node => node.annotations.map Annotation.line := by
  rw [annotationLines, preorder_eq_sites, ← map_node_sites [] t, List.flatMap_map]

@[simp] theorem annotationLines_primitive (p : Primitive) (as : List Annotation) :
    (TypeExpr.primitive p as).annotationLines = as.map Annotation.line := by
  simp [annotationLines_eq_flatMap, nodes, annotations]
@[simp] theorem annotationLines_map (k v : TypeExpr) (as : List Annotation) :
    (TypeExpr.map k v as).annotationLines =
      as.map Annotation.line ++ (k.annotationLines ++ v.annotationLines) := by
  simp [annotationLines_eq_flatMap, nodes, annotations]
@[simp] theorem annotationLines_list (e : TypeExpr) (as : List Annotation) :
    (TypeExpr.list e as).annotationLines = as.map Annotation.line ++ e.annotationLines := by
  simp [annotationLines_eq_flatMap, nodes, annotations]
@[simp] theorem annotationLines_set (e : TypeExpr) (as : List Annotation) :
    (TypeExpr.set e as).annotationLines = as.map Annotation.line ++ e.annotationLines := by
  simp [annotationLines_eq_flatMap, nodes, annotations]
@[simp] theorem annotationLines_reference (r : Reference) :
    (TypeExpr.reference r).annotationLines = [] := rfl

theorem length_annotationLines_eraseLines (t : TypeExpr) :
    t.eraseLines.annotationLines.length = t.annotationLines.length := by
  induction t with
  | primitive p as => simp [eraseLines]
  | map k v as ihk ihv => simp [eraseLines, ihk, ihv]
  | list e as ih | set e as ih => simp [eraseLines, ih]
  | reference r => rfl

end ListsOfLines

namespace SameUpToLines
variable {a b : TypeExpr}

/-- What does not change with the lines erased is the same for both. -/
theorem apply_eq {α : Type} {f : TypeExpr → α} (hf : ∀ t : TypeExpr, f t.eraseLines = f t)
    (h : a.SameUpToLines b) : f a = f b := by
  rw [← hf a, h, hf b]

theorem script_eq (h : a.SameUpToLines b) : a.script = b.script := h.apply_eq script_eraseLines

theorem length_referenceLines_eq (h : a.SameUpToLines b) :
    a.referenceLines.length = b.referenceLines.length :=
  h.apply_eq (f := fun t => t.referenceLines.length) length_referenceLines_eraseLines

theorem length_annotationLines_eq (h : a.SameUpToLines b) :
    a.annotationLines.length = b.annotationLines.length :=
  h.apply_eq (f := fun t => t.annotationLines.length) length_annotationLines_eraseLines

/-- The lines of a node come before those of its children, and those of a key before those of
the value. As the numbers of lines agree, every list of lines falls into the same pieces. -/
theorem eq_of_lines_eq (h : a.SameUpToLines b) (href : a.referenceLines = b.referenceLines)
    (hann : a.annotationLines = b.annotationLines) : a = b := by
  induction a generalizing b with
  | primitive p as =>
    cases b with
    | primitive q bs =>
      obtain ⟨rfl, has⟩ := primitive.inj h
      have hlines : as.map Annotation.line ++ [] = bs.map Annotation.line ++ [] := by
        simpa using hann
      obtain ⟨rfl, _⟩ := Annotation.append_lines_inj has hlines
      rfl
    | _ => cases h
  | map k v as ihk ihv =>
    cases b with
    | map k' v' bs =>
      obtain ⟨hk, hv, has⟩ := map.inj h
      rw [referenceLines_map, referenceLines_map] at href
      rw [annotationLines_map, annotationLines_map] at hann
      obtain ⟨hkref, hvref⟩ := List.append_inj href (length_referenceLines_eq hk)
      obtain ⟨rfl, hrest⟩ := Annotation.append_lines_inj has hann
      obtain ⟨hkann, hvann⟩ := List.append_inj hrest (length_annotationLines_eq hk)
      rw [ihk hk hkref hkann, ihv hv hvref hvann]
    | _ => cases h
  | list e as ih =>
    cases b with
    | list e' bs =>
      obtain ⟨he, has⟩ := list.inj h
      rw [referenceLines_list, referenceLines_list] at href
      rw [annotationLines_list, annotationLines_list] at hann
      obtain ⟨rfl, hrest⟩ := Annotation.append_lines_inj has hann
      rw [ih he href hrest]
    | _ => cases h
  | set e as ih =>
    cases b with
    | set e' bs =>
      obtain ⟨he, has⟩ := set.inj h
      rw [referenceLines_set, referenceLines_set] at href
      rw [annotationLines_set, annotationLines_set] at hann
      obtain ⟨rfl, hrest⟩ := Annotation.append_lines_inj has hann
      rw [ih he href hrest]
    | _ => cases h
  | reference r =>
    cases b with
    | reference q =>
      have hline : [r.line] = [q.line] := href
      rw [Reference.eq_of_eraseLine_eq (reference.inj h) (List.cons.inj hline).1]
    | _ => cases h

/-- Nothing but equality looks at the lines, and equality looks at every one of them. -/
theorem visible_to_eq_only (h : a.SameUpToLines b) :
    a.render = b.render ∧ (∀ limit, a.renderBounded limit = b.renderBounded limit) ∧
      a.depth = b.depth ∧ a.references.map Reference.name = b.references.map Reference.name ∧
      (a = b ↔ a.referenceLines = b.referenceLines ∧ a.annotationLines = b.annotationLines) := by
  have hscript := h.script_eq
  have hnames := h.apply_eq (f := fun t => t.references.map Reference.name) names_eraseLines
  refine ⟨?_, ?_, h.apply_eq depth_eraseLines, hnames, ?_, ?_⟩
  · rw [← text_script .plain a, ← text_script .plain b, hscript]
  · intro limit
    rw [renderBounded, renderBounded, ← write_script, ← write_script, hscript]
  · rintro rfl
    exact ⟨rfl, rfl⟩
  · rintro ⟨href, hann⟩
    exact h.eq_of_lines_eq href hann

/-- One reference line and one annotation line differ, deep on either side of a map. -/
theorem visible_to_eq_only_map :
    let a : TypeExpr := .map (.list (.reference ⟨"k", 1⟩) [⟨"n", "v", 2⟩])
      (.set (.primitive .bool [⟨"m", "", 3⟩]) []) [⟨"o", "w", 4⟩]
    let b : TypeExpr := .map (.list (.reference ⟨"k", 5⟩) [⟨"n", "v", 2⟩])
      (.set (.primitive .bool [⟨"m", "", 6⟩]) []) [⟨"o", "w", 4⟩]
    a.SameUpToLines b ∧
    (a.render = b.render ∧ (∀ limit, a.renderBounded limit = b.renderBounded limit) ∧
      a.depth = b.depth ∧ a.references.map Reference.name = b.references.map Reference.name ∧
      (a = b ↔ a.referenceLines = b.referenceLines ∧ a.annotationLines = b.annotationLines)) := by
  intro a b
  have h : a.SameUpToLines b := by decide
  exact ⟨h, visible_to_eq_only h⟩

end SameUpToLines

end TypeExpr

end SchemaTypes
