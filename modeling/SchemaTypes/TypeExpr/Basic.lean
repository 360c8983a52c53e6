import SchemaTypes.Annotation
import SchemaTypes.Primitive.Basic

/-! # Type expressions

A type expression is a finite tree: primitives and references are its leaves, maps, lists
and sets its inner nodes. Every node but a reference carries a list of annotations. The head of
a node is the node without its children. Two types that differ in source lines only are the same
type written at different places.
-/
namespace SchemaTypes

/-- A type that is declared elsewhere, by name. -/
structure Reference where
  name : String
  /-- Where it stands in the source; never written. -/
  line : Nat
  deriving DecidableEq, Repr

inductive TypeExpr
  | primitive (kind : Primitive) (annotations : List Annotation)
  | map (key value : TypeExpr) (annotations : List Annotation)
  | list (element : TypeExpr) (annotations : List Annotation)
  | set (element : TypeExpr) (annotations : List Annotation)
  | reference (target : Reference)
  deriving DecidableEq, Repr

inductive Variant
  | primitive | map | list | set | reference
  deriving DecidableEq, Repr

namespace Variant

def all : List Variant := [.primitive, .map, .list, .set, .reference]

def name : Variant → String
  | .primitive => "primitive"
  | .map => "map"
  | .list => "list"
  | .set => "set"
  | .reference => "reference"

def isContainer : Variant → Bool
  | .map | .list | .set => true
  | .primitive | .reference => false

end Variant

/-- The way to a node from the root: the index of a child at every step, the last step first.
The paths to the node's ancestors are the suffixes. -/
abbrev Path := List Nat

namespace TypeExpr

/-- A primitive without annotations. -/
def bare (p : Primitive) : TypeExpr := .primitive p []

def variant : TypeExpr → Variant
  | .primitive .. => .primitive
  | .map .. => .map
  | .list .. => .list
  | .set .. => .set
  | .reference _ => .reference

def isPrimitive (t : TypeExpr) : Bool := t.variant == .primitive
def isMap (t : TypeExpr) : Bool := t.variant == .map
def isList (t : TypeExpr) : Bool := t.variant == .list
def isSet (t : TypeExpr) : Bool := t.variant == .set
def isReference (t : TypeExpr) : Bool := t.variant == .reference
def isContainer (t : TypeExpr) : Bool := t.variant.isContainer

def annotations : TypeExpr → List Annotation
  | .primitive _ as | .map _ _ as | .list _ as | .set _ as => as
  | .reference _ => []

/-- A reference stays as it is. -/
def withAnnotations (as : List Annotation) : TypeExpr → TypeExpr
  | .primitive p _ => .primitive p as
  | .map k v _ => .map k v as
  | .list e _ => .list e as
  | .set e _ => .set e as
  | .reference r => .reference r

theorem annotations_withAnnotations (t : TypeExpr) (as : List Annotation)
    (h : t.isReference = false) : (t.withAnnotations as).annotations = as := by
  cases t with
  | reference r => cases h
  | _ => rfl

def asPrimitive : TypeExpr → Option Primitive
  | .primitive p _ => some p
  | _ => none

def asReference : TypeExpr → Option Reference
  | .reference r => some r
  | _ => none

def line (t : TypeExpr) : Option Nat := t.asReference.map Reference.line

/-- The key of a map stands before its value. -/
def children : TypeExpr → List TypeExpr
  | .primitive .. | .reference _ => []
  | .map k v _ => [k, v]
  | .list e _ | .set e _ => [e]

def nodeCount : TypeExpr → Nat
  | .primitive .. | .reference _ => 1
  | .map k v _ => k.nodeCount + v.nodeCount + 1
  | .list e _ | .set e _ => e.nodeCount + 1

/-- The node at the end of the path. -/
def at? (t : TypeExpr) : Path → Option TypeExpr
  | [] => some t
  | i :: path => (t.at? path).bind fun n => n.children[i]?

@[simp] theorem at?_nil (t : TypeExpr) : t.at? [] = some t := rfl

theorem at?_append (t : TypeExpr) (p q : Path) :
    t.at? (p ++ q) = (t.at? q).bind fun n => n.at? p := by
  induction p with
  | nil => simp only [List.nil_append, at?_nil, Option.bind_fun_some]
  | cons i p ih => simp only [List.cons_append, at?, ih, Option.bind_assoc]

end TypeExpr

/-! ## Heads -/

inductive Head
  | primitive (kind : Primitive) (annotations : List Annotation)
  | map (annotations : List Annotation)
  | list (annotations : List Annotation)
  | set (annotations : List Annotation)
  | reference (target : Reference)
  deriving DecidableEq, Repr

namespace Head

def arity : Head → Nat
  | .primitive .. | .reference _ => 0
  | .map _ => 2
  | .list _ | .set _ => 1

def assemble? : Head → List TypeExpr → Option TypeExpr
  | .primitive p as, [] => some (.primitive p as)
  | .map as, [k, v] => some (.map k v as)
  | .list as, [e] => some (.list e as)
  | .set as, [e] => some (.set e as)
  | .reference r, [] => some (.reference r)
  | _, _ => none

end Head

namespace TypeExpr

def head : TypeExpr → Head
  | .primitive p as => .primitive p as
  | .map _ _ as => .map as
  | .list _ as => .list as
  | .set _ as => .set as
  | .reference r => .reference r

@[simp] theorem length_children (t : TypeExpr) : t.children.length = t.head.arity := by
  cases t <;> rfl

@[simp] theorem assemble?_head (t : TypeExpr) : t.head.assemble? t.children = some t := by
  cases t <;> rfl

theorem head_of_assemble? {h : Head} {ts : List TypeExpr} {t : TypeExpr}
    (ht : h.assemble? ts = some t) : t.head = h ∧ t.children = ts := by
  revert ht
  unfold Head.assemble?
  split <;> intro ht <;> cases ht <;> exact ⟨rfl, rfl⟩

end TypeExpr

/-! ## Source lines -/

namespace Reference

def eraseLine (r : Reference) : Reference := { r with line := 0 }

end Reference

namespace Annotation

def eraseLine (a : Annotation) : Annotation := { a with line := 0 }

end Annotation

namespace TypeExpr

def eraseLines : TypeExpr → TypeExpr
  | .primitive p as => .primitive p (as.map Annotation.eraseLine)
  | .map k v as => .map k.eraseLines v.eraseLines (as.map Annotation.eraseLine)
  | .list e as => .list e.eraseLines (as.map Annotation.eraseLine)
  | .set e as => .set e.eraseLines (as.map Annotation.eraseLine)
  | .reference r => .reference r.eraseLine

def SameUpToLines (s t : TypeExpr) : Prop := s.eraseLines = t.eraseLines

instance (s t : TypeExpr) : Decidable (SameUpToLines s t) :=
  inferInstanceAs (Decidable (s.eraseLines = t.eraseLines))

end TypeExpr

end SchemaTypes
