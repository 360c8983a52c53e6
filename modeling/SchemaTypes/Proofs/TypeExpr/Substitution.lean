import SchemaTypes.Proofs.TypeExpr.References
import SchemaTypes.TypeExpr.References
import SchemaTypes.TypeExpr.Render

/-! # Substitution in the written form

The text of a type is a template with one gap for each of its references, in the order of the
walk. Whatever replaces the references is written into the gaps and leaves the rest as it is.
-/
namespace SchemaTypes

/-- A text with gaps: what stands before the first gap, and what follows each of them. -/
structure Template where
  opening : String
  pieces : List String

namespace Template

def fill (p : Template) (fillings : List String) : String :=
  p.opening ++ String.join (List.zipWith (· ++ ·) fillings p.pieces)

/-- The template behind some more text. -/
def withText (s : String) (p : Template) : Template := ⟨s ++ p.opening, p.pieces⟩

/-- The template behind one more gap. -/
def withGap (p : Template) : Template := ⟨"", p.opening :: p.pieces⟩

@[simp] theorem fill_withText (s : String) (p : Template) (fillings : List String) :
    (p.withText s).fill fillings = s ++ p.fill fillings := by
  simp only [withText, fill, String.append_assoc]

@[simp] theorem fill_withGap (p : Template) (filling : String) (fillings : List String) :
    p.withGap.fill (filling :: fillings) = filling ++ p.fill fillings := by
  simp only [withGap, fill, List.zipWith_cons_cons, String.join_cons, String.empty_append,
    String.append_assoc]

@[simp] theorem pieces_withText (s : String) (p : Template) :
    (p.withText s).pieces = p.pieces := rfl
@[simp] theorem pieces_withGap (p : Template) : p.withGap.pieces = p.opening :: p.pieces := rfl

end Template

namespace TypeExpr

/-- The template of the type, in front of the one for what follows it. -/
def template : TypeExpr → Template → Template
  | .primitive p as, rest => rest.withText (p.keyword ++ Annotation.tail as)
  | .map k v as, rest =>
    (k.template ((v.template (rest.withText (">" ++ Annotation.tail as))).withText ", ")).withText
      "map<"
  | .list e as, rest => (e.template (rest.withText (">" ++ Annotation.tail as))).withText "list<"
  | .set e as, rest => (e.template (rest.withText (">" ++ Annotation.tail as))).withText "set<"
  | .reference _, rest => rest.withGap

theorem length_template (t : TypeExpr) (rest : Template) :
    (t.template rest).pieces.length = t.references.length + rest.pieces.length := by
  induction t generalizing rest with
  | primitive p as => simp [template]
  | map k v as ihk ihv =>
    simp only [template, Template.pieces_withText, references_map, List.length_append, ihk, ihv]
    omega
  | list e as ih => simp only [template, Template.pieces_withText, references_list, ih]
  | set e as ih => simp only [template, Template.pieces_withText, references_set, ih]
  | reference r =>
    simp only [template, Template.pieces_withGap, references_reference, List.length_cons,
      List.length_nil]
    omega

theorem substitute_snd (t : TypeExpr) (us : List TypeExpr) :
    (t.substitute us).2 = us.drop t.references.length := by
  induction t generalizing us with
  | primitive p as => rfl
  | map k v as ihk ihv =>
    simp only [substitute, references_map, List.length_append]
    rw [ihv, ihk, List.drop_drop]
  | list e as ih =>
    simp only [substitute, references_list]
    exact ih us
  | set e as ih =>
    simp only [substitute, references_set]
    exact ih us
  | reference r => cases us <;> rfl

/-- Each reference takes one type from the list, and its text goes into the next gap. -/
theorem fill_template (t : TypeExpr) (rest : Template) {us : List TypeExpr}
    (h : t.references.length ≤ us.length) :
    (t.template rest).fill (us.map render) =
      (t.substitute us).1.render ++ rest.fill ((t.substitute us).2.map render) := by
  induction t generalizing rest us with
  | primitive p as => simp only [template, substitute, Template.fill_withText, render_primitive]
  | map k v as ihk ihv =>
    rw [references_map, List.length_append] at h
    have hv : v.references.length ≤ (k.substitute us).2.length := by
      rw [substitute_snd, List.length_drop]
      omega
    simp only [template, substitute, Template.fill_withText, render_map]
    rw [ihk _ (by omega), Template.fill_withText, ihv _ hv, Template.fill_withText]
    simp only [String.append_assoc]
  | list e as ih =>
    rw [references_list] at h
    simp only [template, substitute, Template.fill_withText, render_list]
    rw [ih _ h, Template.fill_withText]
    simp only [String.append_assoc]
  | set e as ih =>
    rw [references_set] at h
    simp only [template, substitute, Template.fill_withText, render_set]
    rw [ih _ h, Template.fill_withText]
    simp only [String.append_assoc]
  | reference r =>
    cases us with
    | nil => simp at h
    | cons u us => exact Template.fill_withGap rest u.render (us.map render)

theorem references_substitute (t : TypeExpr) {us : List TypeExpr}
    (h : t.references.length ≤ us.length) :
    (t.substitute us).1.references = (us.take t.references.length).flatMap references := by
  induction t generalizing us with
  | primitive p as => rfl
  | map k v as ihk ihv =>
    rw [references_map, List.length_append] at h
    have hv : v.references.length ≤ (us.drop k.references.length).length := by
      rw [List.length_drop]
      omega
    simp only [substitute, references_map, List.length_append]
    rw [substitute_snd, ihk (by omega), ihv hv, List.take_add, List.flatMap_append]
  | list e as ih =>
    simp only [substitute, references_list] at h ⊢
    exact ih h
  | set e as ih =>
    simp only [substitute, references_set] at h ⊢
    exact ih h
  | reference r =>
    cases us with
    | nil => simp at h
    | cons u us => simp [substitute]

/-- A type's own references, put in place of themselves, change nothing. -/
theorem substitute_references (t : TypeExpr) (us : List TypeExpr) :
    t.substitute (t.references.map .reference ++ us) = (t, us) := by
  induction t generalizing us with
  | primitive p as => rfl
  | map k v as ihk ihv =>
    simp only [substitute, references_map, List.map_append, List.append_assoc, ihk, ihv]
  | list e as ih => simp only [substitute, references_list, ih]
  | set e as ih => simp only [substitute, references_set, ih]
  | reference r => rfl

/-- One template serves all replacements, and the replaced type's references are those of the
replacements in order. The references are those among all nodes of the type. -/
theorem exists_template (t : TypeExpr) :
    ∃ p : Template, p.pieces.length = t.references.length ∧
      (∀ us : List TypeExpr, us.length = t.references.length →
        (t.replaceReferences us).render = p.fill (us.map render) ∧
        (t.replaceReferences us).references = us.flatMap references) ∧
      t.replaceReferences (t.references.map .reference) = t ∧
      p.fill (t.references.map Reference.name) = t.render ∧
      t.references = t.nodes.filterMap asReference := by
  have hself : t.replaceReferences (t.references.map .reference) = t := by
    rw [replaceReferences, ← List.append_nil (t.references.map _), substitute_references]
  have hfill (us : List TypeExpr) (h : us.length = t.references.length) :
      (t.replaceReferences us).render = (t.template ⟨"", []⟩).fill (us.map render) := by
    rw [fill_template t _ (Nat.le_of_eq h.symm), replaceReferences]
    simp [Template.fill]
  -- the template is chosen before any replacement is known
  refine ⟨t.template ⟨"", []⟩, length_template t _, ?_, hself, ?_, t.references_eq_filterMap⟩
  · intro us h
    refine ⟨hfill us h, ?_⟩
    rw [replaceReferences, references_substitute t (Nat.le_of_eq h.symm), ← h, List.take_length]
  · have hnames : t.references.map Reference.name = (t.references.map .reference).map render := by
      simp
    rw [hnames, ← hfill _ (List.length_map _), hself]

/-- The same name twice, replaced by a type without references and by one with two. -/
theorem exists_template_repeated :
    let t : TypeExpr := .map (.reference ⟨"A", 1⟩) (.list (.reference ⟨"A", 1⟩) [⟨"k", "<", 2⟩]) []
    let us : List TypeExpr :=
      [.set (.primitive .i16 []) [], .map (.reference ⟨"B", 3⟩) (.reference ⟨"", 4⟩) []]
    us.length = t.references.length ∧ ∃ p : Template,
      (t.replaceReferences us).render = p.fill (us.map render) ∧
      (t.replaceReferences us).references = us.flatMap references ∧
      p.fill ["A", "A"] = t.render := by
  intro t us
  have hlen : us.length = t.references.length := by decide
  obtain ⟨p, -, hall, -, hself, -⟩ := exists_template t
  obtain ⟨htext, hrefs⟩ := hall us hlen
  exact ⟨hlen, p, htext, hrefs, hself⟩

end TypeExpr

end SchemaTypes
