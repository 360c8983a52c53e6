import SchemaTypes.TypeExpr.Counting
import SchemaTypes.TypeExpr.Visitor

/-! # Walks in pre-order

A visitor that always descends and acts on entering only goes through the sites of a tree one
after the other. What it computes is a fold over one list, which does not depend on the visitor.
-/
namespace SchemaTypes

namespace TypeExpr

/-- All sites of a tree that stands at the path, parents before children. -/
def sites (path : Path) : TypeExpr → List Site
  | .primitive p as => [⟨path, .primitive p as⟩]
  | .map k v as => ⟨path, .map k v as⟩ :: (k.sites (0 :: path) ++ v.sites (1 :: path))
  | .list e as => ⟨path, .list e as⟩ :: e.sites (0 :: path)
  | .set e as => ⟨path, .set e as⟩ :: e.sites (0 :: path)
  | .reference r => [⟨path, .reference r⟩]

/-- All nodes of a tree, parents before children. -/
def nodes : TypeExpr → List TypeExpr
  | .primitive p as => [.primitive p as]
  | .map k v as => .map k v as :: (k.nodes ++ v.nodes)
  | .list e as => .list e as :: e.nodes
  | .set e as => .set e as :: e.nodes
  | .reference r => [.reference r]

theorem map_node_sites (path : Path) (t : TypeExpr) : (t.sites path).map Site.node = t.nodes := by
  induction t generalizing path with
  | primitive p as => rfl
  | map k v as ihk ihv => simp only [sites, nodes, List.map_cons, List.map_append, ihk, ihv]
  | list e as ih | set e as ih => simp only [sites, nodes, List.map_cons, ih]
  | reference r => rfl

end TypeExpr

namespace Visitor
variable {σ : Type} {v : Visitor σ}

/-- The visitor descends everywhere and does nothing on leaving. -/
structure ActsOnEntering (v : Visitor σ) : Prop where
  descends (site : Site) (s : σ) : (v.enter site s).1 = true
  leaves (site : Site) (s : σ) : v.leave site s = s

theorem ActsOnEntering.around_eq (h : v.ActsOnEntering) (site : Site) (descend : σ → σ) (s : σ) :
    v.around site descend s = descend (v.enter site s).2 := by
  change v.leave site (if (v.enter site s).1 then descend _ else _) = _
  rw [h.leaves, h.descends, if_pos rfl]

theorem ActsOnEntering.walk_eq (h : v.ActsOnEntering) (path : Path) (t : TypeExpr) (s : σ) :
    v.walk path t s = (t.sites path).foldl (fun s site => (v.enter site s).2) s := by
  induction t generalizing path s with
  | primitive p as => exact h.around_eq _ _ s
  | map key value as ihk ihv =>
    rw [walk, h.around_eq, ihk, ihv, TypeExpr.sites, List.foldl_cons, List.foldl_append]
  | list e as ih | set e as ih => rw [walk, h.around_eq, ih, TypeExpr.sites, List.foldl_cons]
  | reference r => exact h.around_eq _ _ s

end Visitor

namespace TypeExpr
variable (weight : TypeExpr → Nat)

/-- The weight of all nodes of a list together. -/
def weigh : List TypeExpr → Nat
  | [] => 0
  | node :: nodes => weight node + weigh nodes

theorem weigh_append (m n : List TypeExpr) :
    weigh weight (m ++ n) = weigh weight m + weigh weight n := by
  induction m with
  | nil => exact (Nat.zero_add _).symm
  | cons node m ih => rw [List.cons_append, weigh, weigh, ih, Nat.add_assoc]

theorem total_eq_weigh (t : TypeExpr) : t.total weight = weigh weight t.nodes := by
  have hacts : (tally weight).ActsOnEntering := ⟨fun _ _ => rfl, fun _ _ => rfl⟩
  have hfold (sites : List Site) (n : Nat) :
      sites.foldl (fun n site => n + weight site.node) n =
        n + weigh weight (sites.map Site.node) := by
    induction sites generalizing n with
    | nil => rfl
    | cons site sites ih => rw [List.foldl_cons, ih, List.map_cons, weigh, Nat.add_assoc]
  have hwalk : t.total weight = _ := hacts.walk_eq [] t 0
  rw [hwalk, ← map_node_sites [] t]
  exact (hfold _ 0).trans (Nat.zero_add _)

@[simp] theorem total_primitive (p : Primitive) (as : List Annotation) :
    (TypeExpr.primitive p as).total weight = weight (.primitive p as) := total_eq_weigh weight _
@[simp] theorem total_map (k v : TypeExpr) (as : List Annotation) :
    (TypeExpr.map k v as).total weight =
      weight (.map k v as) + (k.total weight + v.total weight) := by
  simp only [total_eq_weigh, nodes, weigh, weigh_append]
@[simp] theorem total_list (e : TypeExpr) (as : List Annotation) :
    (TypeExpr.list e as).total weight = weight (.list e as) + e.total weight := by
  simp only [total_eq_weigh, nodes, weigh]
@[simp] theorem total_set (e : TypeExpr) (as : List Annotation) :
    (TypeExpr.set e as).total weight = weight (.set e as) + e.total weight := by
  simp only [total_eq_weigh, nodes, weigh]
@[simp] theorem total_reference (r : Reference) :
    (TypeExpr.reference r).total weight = weight (.reference r) := total_eq_weigh weight _

section Count
variable (p : TypeExpr → Bool)

@[simp] theorem count_primitive (q : Primitive) (as : List Annotation) :
    (TypeExpr.primitive q as).count p = (p (.primitive q as)).toNat := total_primitive _ q as
@[simp] theorem count_map (k v : TypeExpr) (as : List Annotation) :
    (TypeExpr.map k v as).count p = (p (.map k v as)).toNat + (k.count p + v.count p) :=
  total_map _ k v as
@[simp] theorem count_list (e : TypeExpr) (as : List Annotation) :
    (TypeExpr.list e as).count p = (p (.list e as)).toNat + e.count p := total_list _ e as
@[simp] theorem count_set (e : TypeExpr) (as : List Annotation) :
    (TypeExpr.set e as).count p = (p (.set e as)).toNat + e.count p := total_set _ e as
@[simp] theorem count_reference (r : Reference) :
    (TypeExpr.reference r).count p = (p (.reference r)).toNat := total_reference _ r

end Count

theorem preorder_eq_sites (t : TypeExpr) : t.preorder = t.sites [] := by
  let recorder : Recorder := { order := .pre }
  have hacts : recorder.visitor.ActsOnEntering := ⟨fun _ _ => rfl, fun _ _ => rfl⟩
  have hfold (sites : List Site) (recorded : Array Site) :
      (sites.foldl (fun recorded site => recorded.push site) recorded).toList =
        recorded.toList ++ sites := by
    simp
  have hwalk : recorder.visitor.walk [] t #[] = _ := hacts.walk_eq [] t #[]
  change (recorder.visitor.walk [] t #[]).toList = _
  rw [hwalk]
  exact hfold _ #[]

end TypeExpr

end SchemaTypes
