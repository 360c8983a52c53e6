import SchemaTypes.TypeExpr.Basic

/-! # Conditions on names

Values are quoted in the written form but names are not. What holds of a text therefore often
depends on the names in it, of references and of annotations at every node.
-/
namespace SchemaTypes

/-- None of the marks occurs in the name. -/
def Avoids (marks : List Char) (name : String) : Prop := ∀ c ∈ name.toList, c ∉ marks

-- over the characters of the name, not over all characters
instance (marks : List Char) (name : String) : Decidable (Avoids marks name) :=
  List.decidableBAll (fun c => c ∉ marks) name.toList

theorem Avoids.mono {marks more : List Char} {name : String} (h : Avoids more name)
    (hm : marks ⊆ more) : Avoids marks name :=
  fun c hc hmem => h c hc (hm hmem)

namespace TypeExpr

/-- Every reference and every annotation in the type has a name as required. -/
def NamesSatisfy (reference annotation : String → Prop) : TypeExpr → Prop
  | .primitive _ as => ∀ a ∈ as, annotation a.name
  | .map k v as => k.NamesSatisfy reference annotation ∧ v.NamesSatisfy reference annotation ∧
      ∀ a ∈ as, annotation a.name
  | .list e as | .set e as => e.NamesSatisfy reference annotation ∧ ∀ a ∈ as, annotation a.name
  | .reference r => reference r.name

section
variable {reference annotation : String → Prop}

instance decidableNamesSatisfy [DecidablePred reference] [DecidablePred annotation] :
    (t : TypeExpr) → Decidable (t.NamesSatisfy reference annotation)
  | .primitive _ as => inferInstanceAs (Decidable (∀ a ∈ as, annotation a.name))
  | .map k v _ =>
    have := decidableNamesSatisfy k
    have := decidableNamesSatisfy v
    inferInstanceAs (Decidable (_ ∧ _ ∧ _))
  | .list e _ | .set e _ =>
    have := decidableNamesSatisfy e
    inferInstanceAs (Decidable (_ ∧ _))
  | .reference r => inferInstanceAs (Decidable (reference r.name))

theorem NamesSatisfy.imp {reference' annotation' : String → Prop} {t : TypeExpr}
    (h : t.NamesSatisfy reference annotation) (hr : ∀ name, reference name → reference' name)
    (ha : ∀ name, annotation name → annotation' name) :
    t.NamesSatisfy reference' annotation' := by
  induction t with
  | primitive p as => exact fun a hmem => ha a.name (h a hmem)
  | map k v as ihk ihv => exact ⟨ihk h.1, ihv h.2.1, fun a hmem => ha a.name (h.2.2 a hmem)⟩
  | list e as ih | set e as ih => exact ⟨ih h.1, fun a hmem => ha a.name (h.2 a hmem)⟩
  | reference r => exact hr r.name h

theorem NamesSatisfy.avoids_mono {marks more : List Char} {t : TypeExpr}
    (h : t.NamesSatisfy (Avoids more) (Avoids more)) (hm : marks ⊆ more) :
    t.NamesSatisfy (Avoids marks) (Avoids marks) :=
  h.imp (fun _ hn => hn.mono hm) fun _ hn => hn.mono hm

end

end TypeExpr

end SchemaTypes
