import SchemaTypes.Proofs.TypeExpr.Recorder
import SchemaTypes.TypeExpr.Basic

/-! # The heads of a walk determine the type

A head tells how many children follow it, so the heads of a walk in pre-order can be read from
the left, and those of a walk in post-order from the right: there each head comes before those
of its children, the last child first. In either direction a type ends where its heads end.
-/
namespace SchemaTypes

namespace TypeExpr

theorem eq_of_head_eq {a b : TypeExpr} (hhead : a.head = b.head)
    (hchildren : a.children = b.children) : a = b := by
  have h := assemble?_head a
  rw [hhead, hchildren, assemble?_head] at h
  exact (Option.some.inj h).symm

/-- The heads of all nodes in the order of the walk. -/
def heads (order : Order) (t : TypeExpr) : List Head :=
  (({ order } : Recorder).record .root t).map fun site => site.node.head

end TypeExpr

namespace Order
variable {α : Type}

/-- The list in the direction in which a node comes before those below it. -/
def downward : Order → List α → List α
  | .pre, l => l
  | .post, l => l.reverse

theorem mem_downward {order : Order} {a : α} {l : List α} : a ∈ order.downward l ↔ a ∈ l := by
  cases order with
  | pre => exact Iff.rfl
  | post => exact List.mem_reverse

theorem length_downward (order : Order) (l : List α) :
    (order.downward l).length = l.length := by
  cases order with
  | pre => rfl
  | post => exact List.length_reverse

theorem map_downward {β : Type} (order : Order) (f : α → β) (l : List α) :
    (order.downward l).map f = order.downward (l.map f) := by
  cases order with
  | pre => rfl
  | post => exact List.map_reverse

theorem downward_inj {order : Order} {l l' : List α} :
    order.downward l = order.downward l' ↔ l = l' := by
  cases order with
  | pre => exact Iff.rfl
  | post => exact List.reverse_inj

/-- Turned downward, both orders enter a node first and differ in the order of the children. -/
theorem downward_join_flatMap {β : Type} (order : Order) (a : β) (f : α → List β) (l : List α) :
    order.downward (order.join a (l.flatMap f)) =
      a :: (order.downward l).flatMap fun b => order.downward (f b) := by
  cases order with
  | pre => rfl
  | post =>
    simp only [downward, join, List.reverse_append, List.reverse_cons, List.reverse_nil,
      List.nil_append, List.singleton_append, List.reverse_flatMap]
    rfl

end Order

namespace Site
variable {order : Order}

/-- The heads of a site and of those below it, in the direction away from the root. -/
def headsDownward (order : Order) (site : Site) : List Head :=
  order.downward ((({ order } : Recorder).kept site.path site.node).map fun x => x.node.head)

theorem headsDownward_eq (site : Site) : site.headsDownward order =
    site.node.head :: (order.downward site.children).flatMap (headsDownward order) := by
  have hkept := ({ order } : Recorder).kept_eq site
  rw [headsDownward, hkept, Order.map_join]
  change order.downward (order.join _ ((site.children.flatMap _).map _)) = _
  rw [List.map_flatMap, Order.downward_join_flatMap]
  rfl

/-- The heads of the site, before any others, determine its node and where they end. -/
def Delimited (order : Order) (site : Site) : Prop :=
  ∀ ⦃other : Site⦄ ⦃s s' : List Head⦄,
    site.headsDownward order ++ s = other.headsDownward order ++ s' →
      site.node = other.node ∧ s = s'

theorem flatMap_headsDownward_inj {cs ds : List Site} (h : ∀ c ∈ cs, c.Delimited order)
    (hlen : cs.length = ds.length) {s s' : List Head}
    (heq : cs.flatMap (headsDownward order) ++ s = ds.flatMap (headsDownward order) ++ s') :
    cs.map node = ds.map node ∧ s = s' := by
  induction cs generalizing ds with
  | nil =>
    obtain rfl := List.length_eq_zero_iff.mp hlen.symm
    exact ⟨rfl, heq⟩
  | cons c cs ih =>
    cases ds with
    | nil => cases hlen
    | cons d ds =>
      rw [List.flatMap_cons, List.flatMap_cons, List.append_assoc, List.append_assoc] at heq
      obtain ⟨hnode, hrest⟩ := h c List.mem_cons_self heq
      obtain ⟨hnodes, hs⟩ := ih (fun e he => h e (List.mem_cons_of_mem c he))
        (Nat.succ.inj hlen) hrest
      exact ⟨by rw [List.map_cons, List.map_cons, hnode, hnodes], hs⟩

theorem delimited (order : Order) (site : Site) : site.Delimited order := by
  induction site using Site.induction with
  | h site ih =>
    intro other s s' heq
    rw [headsDownward_eq, headsDownward_eq, List.cons_append, List.cons_append] at heq
    obtain ⟨hhead, hrest⟩ := List.cons.inj heq
    have hlen (x : Site) : (order.downward x.children).length = x.node.head.arity := by
      rw [Order.length_downward, ← TypeExpr.length_children, ← map_node_children,
        List.length_map]
    obtain ⟨hnodes, hs⟩ := flatMap_headsDownward_inj (fun c hc => ih c (Order.mem_downward.mp hc))
      (by rw [hlen, hlen, hhead]) hrest
    rw [Order.map_downward, Order.map_downward, Order.downward_inj, map_node_children,
      map_node_children] at hnodes
    exact ⟨TypeExpr.eq_of_head_eq hhead hnodes, hs⟩

end Site

namespace TypeExpr

theorem downward_heads (order : Order) (t : TypeExpr) :
    order.downward (t.heads order) = (Site.mk [] t).headsDownward order := by
  rw [heads, Recorder.record_eq_kept rfl]
  rfl

theorem eq_of_prefix_downward_heads (order : Order) {a b : TypeExpr}
    (h : order.downward (a.heads order) <+: order.downward (b.heads order)) : a = b := by
  obtain ⟨s, hs⟩ := h
  rw [downward_heads, downward_heads] at hs
  have heq : (Site.mk [] a).headsDownward order ++ s = (Site.mk [] b).headsDownward order ++ [] :=
    hs.trans (List.append_nil _).symm
  exact (Site.delimited order ⟨[], a⟩ heq).1

/-- The heads of one type begin those of another in pre-order, or end them in post-order, only
if the types are the same. -/
theorem heads_related_iff (a b : TypeExpr) :
    (a.heads .pre = b.heads .pre ∨ a.heads .pre <+: b.heads .pre ∨ b.heads .pre <+: a.heads .pre ↔
      a = b) ∧
    (a.heads .post = b.heads .post ∨ a.heads .post <:+ b.heads .post ∨
      b.heads .post <:+ a.heads .post ↔ a = b) := by
  constructor
  · constructor
    · rintro (h | h | h)
      · exact eq_of_prefix_downward_heads .pre (h ▸ List.prefix_rfl)
      · exact eq_of_prefix_downward_heads .pre h
      · exact (eq_of_prefix_downward_heads .pre h).symm
    · exact fun h => .inl (congrArg (heads .pre) h)
  · constructor
    · rintro (h | h | h)
      · exact eq_of_prefix_downward_heads .post (h ▸ List.prefix_rfl)
      · exact eq_of_prefix_downward_heads .post (List.reverse_prefix.mpr h)
      · exact (eq_of_prefix_downward_heads .post (List.reverse_prefix.mpr h)).symm
    · exact fun h => .inl (congrArg (heads .post) h)

end TypeExpr

end SchemaTypes
