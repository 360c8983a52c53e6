import SchemaTypes.Primitive.Lookup
import SchemaTypes.Proofs.TypeExpr.Marks

/-! # Texts that are keywords

A container is written with an angle bracket and a block with a parenthesis, and no keyword holds
either. So the text of a type is found among the keywords only if the type is a bare primitive or
a reference that is called like one. All other texts are rejected as they are.
-/
namespace SchemaTypes
open Text

namespace Designation

/-- A word is a keyword and found without an event, or it is rejected with one. -/
theorem lookup_keyword (word : String) :
    (∃ p : Primitive, word = p.keyword ∧ (keyword word).lookup = ⟨.ok p, []⟩) ∨
      (∀ p : Primitive, word ≠ p.keyword) ∧
        (keyword word).lookup = ⟨.error (.rejected (.keyword word)),
          [⟨"DEBUG", "rejected primitive keyword", .keyword word⟩]⟩ := by
  rw [lookup, Primitive.lookupKeyword]
  cases h : Primitive.ofKeyword? word with
  | some p => exact .inl ⟨p, Primitive.ofKeyword?_eq_some_iff.mp h, rfl⟩
  | none =>
    refine .inr ⟨?_, rfl⟩
    intro p hp
    rw [Primitive.ofKeyword?_eq_some_iff.mpr hp] at h
    cases h

end Designation

namespace TypeExpr
open Annotation (tail tail_nil toList_tail_cons)

/-- Nothing but the keyword of the primitive is written. -/
def Spells (t : TypeExpr) (p : Primitive) : Prop :=
  t = .bare p ∨ ∃ r : Reference, t = .reference r ∧ r.name = p.keyword

theorem angle_mem_render {t : TypeExpr} (h : t.isContainer = true) : '<' ∈ t.render.toList := by
  cases t with
  | map k v as =>
    rw [toList_render_map]
    exact List.mem_append_right _ List.mem_cons_self
  | list e as =>
    rw [toList_render_list]
    exact List.mem_append_right _ List.mem_cons_self
  | set e as =>
    rw [toList_render_set]
    exact List.mem_append_right _ List.mem_cons_self
  | primitive p as => cases h
  | reference r => cases h

theorem render_ne_keyword {t : TypeExpr} (h : t.isContainer = true) (p : Primitive) :
    t.render ≠ p.keyword := by
  intro hp
  have hangle := angle_mem_render h
  rw [hp] at hangle
  exact avoids_keyword p '<' hangle (by decide)

theorem render_eq_keyword_iff {t : TypeExpr} {p : Primitive} :
    t.render = p.keyword ↔ t.Spells p := by
  constructor
  · intro h
    cases t with
    | primitive q as =>
      cases as with
      | nil =>
        rw [render_primitive, tail_nil, String.append_empty] at h
        exact .inl (by rw [Primitive.keyword_inj.mp h, bare])
      | cons a as =>
        have hparen : '(' ∈ (TypeExpr.primitive q (a :: as)).render.toList := by
          rw [render_primitive, String.toList_append, toList_tail_cons]
          exact List.mem_append_right _ (List.mem_cons_of_mem _ List.mem_cons_self)
        rw [h] at hparen
        exact absurd (by decide) (avoids_keyword p '(' hparen)
    | map k v as => exact absurd h (render_ne_keyword rfl p)
    | list e as => exact absurd h (render_ne_keyword rfl p)
    | set e as => exact absurd h (render_ne_keyword rfl p)
    | reference r =>
      rw [render_reference] at h
      exact .inr ⟨r, rfl, h⟩
  · rintro (rfl | ⟨r, rfl, hr⟩)
    · rw [bare, render_primitive, tail_nil, String.append_empty]
    · rw [render_reference, hr]

/-- The text of a type is looked up with success for the types that spell a primitive, with that
primitive, and leaves no event. The text of any other type comes back in the error and in the
only event. -/
theorem lookup_keyword_render (t : TypeExpr) :
    let found := (Designation.keyword t.render).lookup
    let rejection : Event := ⟨"DEBUG", "rejected primitive keyword", .keyword t.render⟩
    (∀ p, found.result = .ok p ↔ t.Spells p) ∧
      ((∃ p, t.Spells p) ∧ found.log = [] ∨
        (∀ p, ¬ t.Spells p) ∧ found.result = .error (.rejected (.keyword t.render)) ∧
          found.log = [rejection]) := by
  intro found rejection
  rcases Designation.lookup_keyword t.render with ⟨p, hp, hfound⟩ | ⟨hne, hfound⟩
  · have hresult : found.result = .ok p := congrArg Lookup.result hfound
    have hspells : t.Spells p := render_eq_keyword_iff.mp hp
    refine ⟨fun q => ?_, .inl ⟨⟨p, hspells⟩, congrArg Lookup.log hfound⟩⟩
    rw [hresult, ← render_eq_keyword_iff, hp, Primitive.keyword_inj, Except.ok.injEq]
  · have hresult : found.result = .error (.rejected (.keyword t.render)) :=
      congrArg Lookup.result hfound
    have hspells (p : Primitive) : ¬ t.Spells p := fun h => hne p (render_eq_keyword_iff.mpr h)
    refine ⟨fun p => ?_, .inr ⟨hspells, hresult, congrArg Lookup.log hfound⟩⟩
    rw [hresult]
    exact iff_of_false (fun h => nomatch h) (hspells p)

end TypeExpr

end SchemaTypes
