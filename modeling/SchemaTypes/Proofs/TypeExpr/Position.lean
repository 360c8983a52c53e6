import SchemaTypes.TypeExpr.Visitor

/-! # Positions in a tree

A node is known by its path. Of two nodes, one may stand above the other; otherwise their paths
part at a node above both, where one goes into an earlier child. The children of a site stand in
the order of their indices, and what holds of a site if it holds of its children holds everywhere.
-/
namespace SchemaTypes

namespace Path
variable {p q : Path}

/-- The first node is a proper ancestor of the second. -/
def Above (p q : Path) : Prop := p <:+ q ∧ p ≠ q

instance (p q : Path) : Decidable (Above p q) := inferInstanceAs (Decidable (_ ∧ _))

/-- Below a common ancestor, the first node lies in an earlier child than the second. -/
def LeftOf (p q : Path) : Prop := ∃ r i j, i < j ∧ i :: r <:+ p ∧ j :: r <:+ q

theorem not_above_nil (p : Path) : ¬ p.Above [] := fun h => h.2 (List.suffix_nil.mp h.1)

theorem above_cons {i : Nat} : p.Above (i :: q) ↔ p = q ∨ p.Above q := by
  constructor
  · rintro ⟨hp, hne⟩
    have hpq : p <:+ q := (List.suffix_cons_iff.mp hp).resolve_left hne
    by_cases h : p = q
    · exact .inl h
    · exact .inr ⟨hpq, h⟩
  · rintro (rfl | ⟨hpq, -⟩)
    · exact ⟨List.suffix_cons i p, (List.cons_ne_self i p).symm⟩
    · refine ⟨hpq.trans (List.suffix_cons i q), ?_⟩
      rintro rfl
      have := hpq.length_le
      simp only [List.length_cons] at this
      omega

/-- With one more step before all others, the root itself comes to the proper ancestors. -/
theorem above_concat {i : Nat} :
    p.Above (q ++ [i]) ↔ p = [] ∨ ∃ p' : Path, p = p' ++ [i] ∧ p'.Above q := by
  constructor
  · rintro ⟨hp, hne⟩
    rcases List.suffix_concat_iff.mp hp with rfl | ⟨p', rfl, hpq⟩
    · exact .inl rfl
    · exact .inr ⟨p', rfl, hpq, fun h => hne (by rw [h])⟩
  · rintro (rfl | ⟨p', rfl, hpq, hne⟩)
    · exact ⟨List.nil_suffix, by simp⟩
    · exact ⟨List.suffix_concat_iff.mpr (.inr ⟨p', rfl, hpq⟩),
        fun h => hne (List.append_cancel_right h)⟩

theorem Above.not_suffix (h : p.Above q) : ¬ q <:+ p :=
  fun hqp => h.2 (h.1.eq_of_length_le hqp.length_le)

theorem Above.asymm (h : p.Above q) : ¬ q.Above p := fun hqp => h.not_suffix hqp.1

/-- One path takes one child at a node. -/
theorem index_eq_of_suffix {r : Path} {i j : Nat} (hi : i :: r <:+ p) (hj : j :: r <:+ p) :
    i = j := by
  have h : i :: r <:+ j :: r := List.suffix_of_suffix_length_le hi hj (Nat.le_refl _)
  exact (List.cons.inj (h.eq_of_length rfl)).1

theorem LeftOf.not_suffix (h : p.LeftOf q) : ¬ p <:+ q ∧ ¬ q <:+ p := by
  obtain ⟨r, i, j, hij, hi, hj⟩ := h
  constructor
  · intro hpq
    have := index_eq_of_suffix (hi.trans hpq) hj
    omega
  · intro hqp
    have := index_eq_of_suffix hi (hj.trans hqp)
    omega

theorem LeftOf.not_above (h : p.LeftOf q) : ¬ p.Above q ∧ ¬ q.Above p :=
  ⟨fun hpq => h.not_suffix.1 hpq.1, fun hqp => h.not_suffix.2 hqp.1⟩

/-- Two paths have nothing in common beyond the node where they part. -/
theorem length_le_of_parted {r s : Path} {i j : Nat} (hij : i ≠ j) (hi : i :: r <:+ p)
    (hj : j :: r <:+ q) (hp : s <:+ p) (hq : s <:+ q) : s.length ≤ r.length := by
  by_cases h : s.length ≤ r.length
  · exact h
  · have hlen : r.length + 1 ≤ s.length := by omega
    exact absurd (index_eq_of_suffix (List.suffix_of_suffix_length_le hi hp hlen)
      (List.suffix_of_suffix_length_le hj hq hlen)) hij

theorem LeftOf.asymm (h : p.LeftOf q) : ¬ q.LeftOf p := by
  obtain ⟨r, i, j, hij, hi, hj⟩ := h
  rintro ⟨s, k, l, hkl, hk, hl⟩
  have hs := (List.suffix_cons l s).trans hl
  have hs' := (List.suffix_cons k s).trans hk
  have hr := (List.suffix_cons i r).trans hi
  have hr' := (List.suffix_cons j r).trans hj
  -- both pairs part at the same node
  have hlen : r.length = s.length :=
    Nat.le_antisymm (length_le_of_parted (by omega) hl hk hr hr')
      (length_le_of_parted (by omega) hi hj hs hs')
  have hrs : r = s := (List.suffix_of_suffix_length_le hr hs (Nat.le_of_eq hlen)).eq_of_length hlen
  subst hrs
  have hil := index_eq_of_suffix hi hl
  have hjk := index_eq_of_suffix hj hk
  omega

end Path

namespace TypeExpr

theorem at?_concat (t : TypeExpr) (path : Path) (i : Nat) :
    t.at? (path ++ [i]) = t.children[i]?.bind fun c => c.at? path := by
  rw [at?_append]
  rfl

/-- The nodes above a node are there. -/
theorem exists_at?_of_suffix {t n : TypeExpr} {p q : Path} (hpq : p <:+ q)
    (h : t.at? q = some n) : ∃ m, t.at? p = some m := by
  obtain ⟨r, rfl⟩ := hpq
  rw [at?_append] at h
  obtain ⟨m, hm, -⟩ := Option.bind_eq_some_iff.mp h
  exact ⟨m, hm⟩

end TypeExpr

namespace Site

/-- Induction along the walk: a site comes after its children. -/
theorem induction {P : Site → Prop} (h : ∀ site : Site, (∀ c ∈ site.children, P c) → P site)
    (site : Site) : P site := by
  obtain ⟨path, t⟩ := site
  induction t generalizing path with
  | primitive p as => exact h _ fun c hc => nomatch hc
  | map k v as ihk ihv =>
    apply h
    intro c hc
    rcases List.mem_cons.mp hc with rfl | hc
    · exact ihk (0 :: path)
    · rw [List.mem_singleton.mp hc]
      exact ihv (1 :: path)
  | list e as ih | set e as ih =>
    apply h
    intro c hc
    rw [List.mem_singleton.mp hc]
    exact ih (0 :: path)
  | reference r => exact h _ fun c hc => nomatch hc

theorem children_eq_mapIdx (site : Site) :
    site.children = site.node.children.mapIdx fun i n => ⟨i :: site.path, n⟩ := by
  obtain ⟨path, t⟩ := site
  cases t <;> rfl

theorem map_node_children (site : Site) : site.children.map node = site.node.children := by
  obtain ⟨path, t⟩ := site
  cases t <;> rfl

theorem mem_children_iff {site c : Site} :
    c ∈ site.children ↔
      ∃ i, c.path = i :: site.path ∧ site.node.children[i]? = some c.node := by
  rw [children_eq_mapIdx, List.mem_mapIdx]
  constructor
  · rintro ⟨i, hi, rfl⟩
    exact ⟨i, rfl, List.getElem?_eq_getElem hi⟩
  · rintro ⟨i, hpath, hnode⟩
    obtain ⟨hi, hnode⟩ := List.getElem?_eq_some_iff.mp hnode
    refine ⟨i, hi, ?_⟩
    rw [hnode, ← hpath]

theorem pairwise_children (site : Site) :
    site.children.Pairwise fun c d =>
      ∃ i j, i < j ∧ c.path = i :: site.path ∧ d.path = j :: site.path := by
  obtain ⟨path, t⟩ := site
  cases t with
  | map k v as =>
    exact List.pairwise_pair.mpr ⟨0, 1, Nat.zero_lt_one, rfl, rfl⟩
  | primitive p as => exact .nil
  | list e as | set e as => exact List.pairwise_singleton _ _
  | reference r => exact .nil

end Site

end SchemaTypes
