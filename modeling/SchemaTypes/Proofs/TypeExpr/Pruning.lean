import SchemaTypes.Proofs.TypeExpr.Recorder

/-! # Walks that stop at some variants

A walk that does not go below some variants visits every node once that has none of them above
it, in the order of the full walk. The two orders differ on a node and its ancestors, and agree
on nodes that lie beside each other.
-/
namespace SchemaTypes

/-- In a list ordered by an asymmetric relation, the relation tells which entry stands first. -/
theorem pair_sublist_iff {α : Type} {R : α → α → Prop} (hasymm : ∀ {a b}, R a b → ¬ R b a)
    {l : List α} (h : l.Pairwise R) {a b : α} (ha : a ∈ l) (hb : b ∈ l) :
    [a, b].Sublist l ↔ R a b := by
  constructor
  · exact fun hab => List.pairwise_iff_forall_sublist.mp h hab
  · intro hab
    induction h with
    | nil => cases ha
    | @cons c l hc h ih =>
      rcases List.mem_cons.mp hb with rfl | hb
      · rcases List.mem_cons.mp ha with rfl | ha
        · exact absurd hab (hasymm hab)
        · exact absurd hab (hasymm (hc a ha))
      · rcases List.mem_cons.mp ha with hac | ha
        · rw [hac]
          exact (List.singleton_sublist.mpr hb).cons_cons c
        · exact (ih ha hb).cons c

namespace Recorder
variable {r : Recorder}

theorem nodup_kept (r : Recorder) (t : TypeExpr) : ((r.kept [] t).map Site.path).Nodup := by
  refine List.pairwise_map.mpr ((pairwise_kept ⟨[], t⟩).imp ?_)
  intro a b hab heq
  rw [heq] at hab
  exact hab.asymm hab

theorem pair_sublist_kept_iff {t : TypeExpr} {a b : Site} (ha : a ∈ r.kept [] t)
    (hb : b ∈ r.kept [] t) : [a, b].Sublist (r.kept [] t) ↔ r.order.Before a.path b.path :=
  pair_sublist_iff Order.Before.asymm (pairwise_kept ⟨[], t⟩) ha hb

end Recorder

/-- The orders agree on two nodes that lie beside each other, and on no others. -/
theorem Order.before_iff_before_iff {p q : Path} :
    (Order.pre.Before p q ↔ Order.post.Before p q) ↔ ¬ p.Above q ∧ ¬ q.Above p := by
  constructor
  · intro h
    constructor
    · intro hpq
      have hlater : Order.post.Before q p := .inl hpq
      exact hlater.asymm (h.mp (.inl hpq))
    · intro hqp
      have hearlier : Order.pre.Before q p := .inl hqp
      exact hearlier.asymm (h.mpr (.inl hqp))
  · rintro ⟨hpq, hqp⟩
    exact (or_iff_right hpq).trans (or_iff_right hqp).symm

namespace TypeExpr
open Recorder

/-- Both walks record the unhidden nodes once each, in the order of the full walks, and place two
of them alike unless one is above the other. -/
theorem record_pruned (stop : Variant → Bool) (t : TypeExpr) :
    let pre := (⟨.pre, stop, none⟩ : Recorder).record .root t
    let post := (⟨.post, stop, none⟩ : Recorder).record .root t
    ((pre.map Site.path).Nodup ∧ (post.map Site.path).Nodup) ∧
      (∀ x : Site, (x ∈ pre ↔ t.at? x.path = some x.node ∧ t.Unhidden stop x.path) ∧
        (x ∈ post ↔ t.at? x.path = some x.node ∧ t.Unhidden stop x.path)) ∧
      (pre.Sublist t.preorder ∧ post.Sublist t.postorder) ∧
      ∀ a ∈ pre, ∀ b ∈ pre,
        (([a, b].Sublist pre ↔ [a, b].Sublist post) ↔
          ¬ a.path.Above b.path ∧ ¬ b.path.Above a.path) ∧
        (a.path.Above b.path → [a, b].Sublist pre ∧ [b, a].Sublist post) := by
  intro pre post
  have hpre : pre = (⟨.pre, stop, none⟩ : Recorder).kept [] t := record_eq_kept rfl t
  have hpost : post = (⟨.post, stop, none⟩ : Recorder).kept [] t := record_eq_kept rfl t
  have hfull (order : Order) : ({ order } : Recorder).record .root t =
      ({ order } : Recorder).kept [] t := record_eq_kept rfl t
  rw [preorder, postorder, hfull, hfull, hpre, hpost]
  refine ⟨⟨nodup_kept _ t, nodup_kept _ t⟩, fun x => ⟨mem_kept_root_iff, mem_kept_root_iff⟩,
    ⟨kept_sublist ⟨[], t⟩, kept_sublist ⟨[], t⟩⟩, ?_⟩
  intro a ha b hb
  have hboth {x : Site} (hx : x ∈ (⟨.pre, stop, none⟩ : Recorder).kept [] t) :
      x ∈ (⟨.post, stop, none⟩ : Recorder).kept [] t :=
    mem_kept_root_iff.mpr ((mem_kept_root_iff (r := ⟨.pre, stop, none⟩)).mp hx)
  rw [pair_sublist_kept_iff ha hb, pair_sublist_kept_iff (hboth ha) (hboth hb),
    pair_sublist_kept_iff (hboth hb) (hboth ha)]
  exact ⟨Order.before_iff_before_iff, fun h => ⟨.inl h, .inl h⟩⟩

/-- The same list stands at two places, beside itself once and below a map that is not hidden. -/
theorem record_pruned_lists :
    let list : TypeExpr := .list (.set (.reference ⟨"A", 1⟩) []) []
    let inner : TypeExpr := .map list (.primitive .i32 []) []
    let t : TypeExpr := .map list inner []
    let stop (v : Variant) : Bool := v == .list
    let pre := (⟨.pre, stop, none⟩ : Recorder).record .root t
    let post := (⟨.post, stop, none⟩ : Recorder).record .root t
    (⟨[0], list⟩ ∈ pre ∧ ⟨[0, 1], list⟩ ∈ pre ∧ ⟨[1], inner⟩ ∈ pre) ∧
      ([⟨[0], list⟩, ⟨[0, 1], list⟩].Sublist pre ↔ [⟨[0], list⟩, ⟨[0, 1], list⟩].Sublist post) ∧
      Path.Above [1] [0, 1] ∧
      [⟨[1], inner⟩, ⟨[0, 1], list⟩].Sublist pre ∧ [⟨[0, 1], list⟩, ⟨[1], inner⟩].Sublist post := by
  intro list inner t stop pre post
  have hkey : ⟨[0], list⟩ ∈ pre := by decide
  have hlist : ⟨[0, 1], list⟩ ∈ pre := by decide
  have hinner : ⟨[1], inner⟩ ∈ pre := by decide
  have habove : Path.Above [1] [0, 1] := by decide
  obtain ⟨-, -, -, horder⟩ := record_pruned stop t
  obtain ⟨hsame, -⟩ := horder _ hkey _ hlist
  obtain ⟨-, hancestor⟩ := horder _ hinner _ hlist
  exact ⟨⟨hkey, hlist, hinner⟩, hsame.mpr (by decide), habove, hancestor habove⟩

end TypeExpr

end SchemaTypes
