import SchemaTypes.Primitive.Lookup
import SchemaTypes.TypeExpr.Basic

/-! # Drafts

A draft is a type expression whose primitives are still to be looked up. They are looked up
in the order in which they are written, and the first unknown one decides the outcome.
-/
namespace SchemaTypes

inductive Draft
  | primitive (kind : Designation) (annotations : List Annotation)
  | map (key value : Draft) (annotations : List Annotation)
  | list (element : Draft) (annotations : List Annotation)
  | set (element : Draft) (annotations : List Annotation)
  | reference (target : Reference)
  deriving DecidableEq, Repr

namespace Draft

def resolve : Draft → Except LookupError TypeExpr
  | .primitive kind as => do
    let p ← kind.resolve
    return .primitive p as
  | .map key value as => do
    let k ← key.resolve
    let v ← value.resolve
    return .map k v as
  | .list element as => do
    let e ← element.resolve
    return .list e as
  | .set element as => do
    let e ← element.resolve
    return .set e as
  | .reference r => return .reference r

/-- The draft that names every primitive by its keyword. -/
def ofTypeExpr : TypeExpr → Draft
  | .primitive p as => .primitive (.keyword p.keyword) as
  | .map k v as => .map (ofTypeExpr k) (ofTypeExpr v) as
  | .list e as => .list (ofTypeExpr e) as
  | .set e as => .set (ofTypeExpr e) as
  | .reference r => .reference r

theorem resolve_ofTypeExpr (t : TypeExpr) : (ofTypeExpr t).resolve = .ok t := by
  induction t with
  | primitive p as =>
    have h : Primitive.ofKeyword? p.keyword = some p := Primitive.ofKeyword?_eq_some_iff.mpr rfl
    simp only [ofTypeExpr, resolve, Designation.resolve, Designation.lookup,
      Primitive.lookupKeyword, h]
    rfl
  | map k v as ihk ihv =>
    simp only [ofTypeExpr, resolve, ihk, ihv]
    rfl
  | list e as ih | set e as ih =>
    simp only [ofTypeExpr, resolve, ih]
    rfl
  | reference r => rfl

end Draft

end SchemaTypes
