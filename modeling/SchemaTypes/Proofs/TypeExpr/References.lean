import SchemaTypes.Proofs.TypeExpr.Preorder
import SchemaTypes.TypeExpr.References

/-! # References, node by node

A collector's walk appends to what the collector holds, whatever it holds and wherever the walk
starts. What it appends are the references among the nodes of the type, parents before children.
So a collector that goes over one type after the other holds the references of each in turn; only
a reference at a root that is passed over is left out.
-/
namespace SchemaTypes

namespace Collector

theorem toList_add (c : Collector) (site : Site) :
    (c.add site).references.toList = c.references.toList ++ site.node.asReference.toList := by
  obtain ⟨path, t⟩ := site
  cases t with
  | reference r => exact Array.toList_push
  | _ => exact (List.append_nil _).symm

theorem toList_foldl_add (sites : List Site) (c : Collector) :
    (sites.foldl add c).references.toList =
      c.references.toList ++ (sites.map Site.node).filterMap TypeExpr.asReference := by
  induction sites generalizing c with
  | nil => exact (List.append_nil _).symm
  | cons site sites ih =>
    rw [List.foldl_cons, ih, toList_add, List.append_assoc, List.map_cons]
    cases h : site.node.asReference with
    | none => rw [List.filterMap_cons_none h, Option.toList_none, List.nil_append]
    | some r => rw [List.filterMap_cons_some h, Option.toList_some, List.singleton_append]

theorem actsOnEntering : visitor.ActsOnEntering := ⟨fun _ _ => rfl, fun _ _ => rfl⟩

theorem toList_walk_nodes (path : Path) (t : TypeExpr) (c : Collector) :
    (visitor.walk path t c).references.toList =
      c.references.toList ++ t.nodes.filterMap TypeExpr.asReference := by
  rw [actsOnEntering.walk_eq, ← t.map_node_sites path]
  exact toList_foldl_add (t.sites path) c

end Collector

namespace TypeExpr

theorem references_eq_filterMap (t : TypeExpr) :
    t.references = t.nodes.filterMap asReference := Collector.toList_walk_nodes [] t {}

@[simp] theorem references_primitive (p : Primitive) (as : List Annotation) :
    (TypeExpr.primitive p as).references = [] := rfl

@[simp] theorem references_map (k v : TypeExpr) (as : List Annotation) :
    (TypeExpr.map k v as).references = k.references ++ v.references := by
  simp only [references_eq_filterMap]
  rw [nodes, List.filterMap_cons_none rfl, List.filterMap_append]

@[simp] theorem references_list (e : TypeExpr) (as : List Annotation) :
    (TypeExpr.list e as).references = e.references := by
  simp only [references_eq_filterMap]
  rw [nodes, List.filterMap_cons_none rfl]

@[simp] theorem references_set (e : TypeExpr) (as : List Annotation) :
    (TypeExpr.set e as).references = e.references := by
  simp only [references_eq_filterMap]
  rw [nodes, List.filterMap_cons_none rfl]

@[simp] theorem references_reference (r : Reference) :
    (TypeExpr.reference r).references = [r] := rfl

end TypeExpr

namespace Collector

/-- The path is not recorded, and what was collected before is kept in front. -/
theorem toList_walk (path : Path) (t : TypeExpr) (c : Collector) :
    (visitor.walk path t c).references.toList = c.references.toList ++ t.references := by
  rw [toList_walk_nodes, t.references_eq_filterMap]

/-- What the walk of one more type adds. -/
def contribution (item : Start × TypeExpr) : List Reference :=
  if item.1 = .children ∧ item.2.isReference then [] else item.2.references

theorem contribution_root (t : TypeExpr) : contribution (.root, t) = t.references :=
  if_neg fun h => Start.noConfusion h.1

theorem contribution_children {t : TypeExpr} (h : t.isReference = false) :
    contribution (.children, t) = t.references :=
  if_neg fun hr => Bool.false_ne_true (h.symm.trans hr.2)

theorem toList_collect_root (t : TypeExpr) (c : Collector) :
    (c.collect .root t).references.toList = c.references.toList ++ t.references :=
  toList_walk [] t c

/-- Entering a node that is no reference leaves the collector as it is. -/
theorem collect_children {t : TypeExpr} (h : t.isReference = false) (c : Collector) :
    c.collect .children t = c.collect .root t := by
  cases t with
  | reference r => cases h
  | _ => rfl

theorem toList_collect (start : Start) (t : TypeExpr) (c : Collector) :
    (c.collect start t).references.toList = c.references.toList ++ contribution (start, t) := by
  cases start with
  | root => rw [contribution_root, toList_collect_root]
  | children =>
    cases t with
    | reference r => exact (List.append_nil _).symm
    | _ => rw [contribution_children rfl, collect_children rfl, toList_collect_root]

theorem collectEach_cons (c : Collector) (start : Start) (t : TypeExpr)
    (items : List (Start × TypeExpr)) :
    c.collectEach ((start, t) :: items) =
      (⟨(c.collect start t).references.toList, t.references⟩ ::
        ((c.collect start t).collectEach items).1, ((c.collect start t).collectEach items).2) := rfl

theorem toList_collectEach (c : Collector) (items : List (Start × TypeExpr)) :
    (c.collectEach items).2.references.toList =
      c.references.toList ++ items.flatMap contribution := by
  induction items generalizing c with
  | nil => exact (List.append_nil _).symm
  | cons item items ih =>
    obtain ⟨start, t⟩ := item
    rw [collectEach_cons, ih, toList_collect, List.append_assoc, List.flatMap_cons]

theorem getElem?_collectEach (c : Collector) (items : List (Start × TypeExpr)) (i : Nat) :
    (c.collectEach items).1[i]? = items[i]?.map fun item =>
      ⟨c.references.toList ++ (items.take (i + 1)).flatMap contribution, item.2.references⟩ := by
  induction items generalizing c i with
  | nil => rfl
  | cons item items ih =>
    obtain ⟨start, t⟩ := item
    rw [collectEach_cons, List.take_succ_cons, List.flatMap_cons, ← List.append_assoc,
      ← toList_collect]
    cases i with
    | zero =>
      rw [List.take_zero, List.flatMap_nil, List.append_nil]
      rfl
    | succ i => exact ih (c.collect start t) i

/-- After each type the collector holds what it held before and then the references of the type,
as the pre-order walk meets them; so after all of them it holds one contribution after the other. -/
theorem collectEach_concatenates (c : Collector) (items : List (Start × TypeExpr)) :
    (∀ (d : Collector) (start : Start) (t : TypeExpr),
      (d.collect start t).references.toList = d.references.toList ++
        if start = .children ∧ t.isReference then [] else t.references) ∧
    (∀ i : Nat, (c.collectEach items).1[i]? = items[i]?.map fun item =>
      { all := c.references.toList ++ (items.take (i + 1)).flatMap contribution
        own := item.2.references }) ∧
    (c.collectEach items).2.references.toList =
      c.references.toList ++ items.flatMap contribution ∧
    ∀ t : TypeExpr, t.references = t.nodes.filterMap TypeExpr.asReference ∧
      t.references = t.preorder.filterMap fun site => site.node.asReference := by
  refine ⟨fun d start t => toList_collect start t d, getElem?_collectEach c items,
    toList_collectEach c items, fun t => ⟨t.references_eq_filterMap, ?_⟩⟩
  rw [t.references_eq_filterMap, t.preorder_eq_sites, ← t.map_node_sites [], List.filterMap_map]
  rfl

/-- A root that is passed over is left out, and a name that comes again is kept. -/
example :
    let items : List (Start × TypeExpr) :=
      [(.root, .reference ⟨"A", 1⟩), (.children, .reference ⟨"B", 2⟩),
        (.children, .list (.reference ⟨"A", 3⟩) [])]
    (Collector.collectEach {} items).2.references = #[⟨"A", 1⟩, ⟨"A", 3⟩] := by decide

end Collector

end SchemaTypes
