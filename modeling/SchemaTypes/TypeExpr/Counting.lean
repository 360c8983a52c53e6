import SchemaTypes.TypeExpr.Visitor

/-! # Counting nodes

Counts are totals of a weight over all visited nodes. A census lists the totals by variant
and by primitive, without those that are zero, and the number of all annotations. The depth is
counted on a walk that knows how many nodes are open and how many were open at most.
-/
namespace SchemaTypes

namespace TypeExpr

/-- The visitor that adds up a weight. -/
def tally (weight : TypeExpr → Nat) : Visitor Nat where
  enter site n := (true, n + weight site.node)

def total (weight : TypeExpr → Nat) (t : TypeExpr) : Nat := (tally weight).run .root t 0

def count (p : TypeExpr → Bool) (t : TypeExpr) : Nat := t.total fun n => (p n).toNat

end TypeExpr

structure Census where
  variants : List (Variant × Nat)
  primitives : List (Primitive × Nat)
  annotations : Nat
  deriving DecidableEq, Repr

namespace Census

/-- How often each key occurs among the nodes, for the keys that do. -/
def occurrences {α : Type} (keys : List α) (p : α → TypeExpr → Bool) (t : TypeExpr) :
    List (α × Nat) :=
  (keys.map fun a => (a, t.count (p a))).filter fun e => e.2 != 0

def of (t : TypeExpr) : Census where
  variants := occurrences Variant.all (fun v n => n.variant == v) t
  primitives := occurrences Primitive.all (fun p n => n.asPrimitive == some p) t
  annotations := t.total fun n => n.annotations.length

end Census

/-! ## Depth -/

/-- How many nodes were open at most, and how many are open. -/
structure DepthCounter where
  deepest : Nat
  current : Nat
  deriving DecidableEq, Repr

namespace DepthCounter

/-- Whether a counter can hold the number. Its capacity is the largest that it can, if any is. -/
def holds (capacity : Option Nat) (n : Nat) : Bool := capacity.all (n ≤ ·)

/-- One more node is open, if the counter can hold the count. -/
def opened (capacity : Option Nat) (c : DepthCounter) : Option DepthCounter :=
  if holds capacity (c.current + 1) then some ⟨max c.deepest (c.current + 1), c.current + 1⟩
  else none

/-- One node less is open, if there is one. -/
def closed (c : DepthCounter) : Option DepthCounter :=
  match c.current with
  | 0 => none
  | n + 1 => some ⟨c.deepest, n⟩

/-- Where a count would leave the range of the counter, the counter is lost. -/
def visitor (capacity : Option Nat) : Visitor (Option DepthCounter) where
  enter _ c := (true, c.bind (opened capacity))
  leave _ c := c.bind closed

end DepthCounter

namespace TypeExpr

/-- The depth, if no more than the capacity has to be counted. -/
def depthWithin (capacity : Option Nat) (t : TypeExpr) : Option Nat :=
  ((DepthCounter.visitor capacity).run .root t (some ⟨0, 0⟩)).map DepthCounter.deepest

/-- Without a capacity no count is lost. -/
def depth (t : TypeExpr) : Nat := (t.depthWithin none).getD 0

/-- The number of nodes on a longest way from the root to a leaf. -/
def height : TypeExpr → Nat
  | .primitive .. | .reference _ => 1
  | .map k v _ => max k.height v.height + 1
  | .list e _ | .set e _ => e.height + 1

theorem height_pos (t : TypeExpr) : 0 < t.height := by
  cases t <;> exact Nat.succ_pos _

end TypeExpr

end SchemaTypes
