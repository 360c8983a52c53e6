import SchemaTypes.TypeExpr.Render
import SchemaTypes.TypeExpr.Visitor

/-! # References of a type

The references of a type are collected in the order of the walk, repetitions included. One
collector may go over several types; it keeps what it has and adds to the end. In the same order
the references are replaced by other types.
-/
namespace SchemaTypes

structure Collector where
  references : Array Reference := #[]
  deriving DecidableEq, Repr

namespace Collector

def add (c : Collector) (site : Site) : Collector :=
  match site.node with
  | .reference r => ⟨c.references.push r⟩
  | _ => c

def visitor : Visitor Collector where
  enter site c := (true, c.add site)

def collect (c : Collector) (start : Start) (t : TypeExpr) : Collector := visitor.run start t c

def dump (c : Collector) : Text.Dump :=
  .record "ReferenceCollector" [("references", .list (c.references.toList.map Reference.dump))]

end Collector

namespace TypeExpr

def references (t : TypeExpr) : List Reference :=
  (Collector.collect {} .root t).references.toList

end TypeExpr

namespace Collector

/-- A collector's references after one more type, beside those of the type alone. -/
structure Progress where
  all : List Reference
  own : List Reference
  deriving DecidableEq, Repr

/-- The progress after each type in turn, and the collector at the end. -/
def collectEach (c : Collector) : List (Start × TypeExpr) → List Progress × Collector
  | [] => ([], c)
  | (start, t) :: rest =>
    let c := c.collect start t
    let (progress, final) := c.collectEach rest
    (⟨c.references.toList, t.references⟩ :: progress, final)

end Collector

/-! ## Substitution -/

namespace TypeExpr

/-- The new type, and the replacements that are left over. Where they end, the remaining references
stay. -/
def substitute : TypeExpr → List TypeExpr → TypeExpr × List TypeExpr
  | .primitive p as, us => (.primitive p as, us)
  | .map k v as, us =>
    let (k, us) := k.substitute us
    let (v, us) := v.substitute us
    (.map k v as, us)
  | .list e as, us =>
    let (e, us) := e.substitute us
    (.list e as, us)
  | .set e as, us =>
    let (e, us) := e.substitute us
    (.set e as, us)
  | .reference _, u :: us => (u, us)
  | .reference r, [] => (.reference r, [])

def replaceReferences (t : TypeExpr) (us : List TypeExpr) : TypeExpr := (t.substitute us).1

theorem substitute_nil (t : TypeExpr) : t.substitute [] = (t, []) := by
  induction t with
  | primitive p as => rfl
  | map k v as ihk ihv => simp only [substitute, ihk, ihv]
  | list e as ih | set e as ih => simp only [substitute, ih]
  | reference r => rfl

/-! ## Lists of source lines -/

def referenceLines (t : TypeExpr) : List Nat := t.references.map Reference.line

/-- Node by node as they are entered, and in list order within a node. -/
def annotationLines (t : TypeExpr) : List Nat :=
  t.preorder.flatMap fun site => site.node.annotations.map Annotation.line

end TypeExpr

end SchemaTypes
