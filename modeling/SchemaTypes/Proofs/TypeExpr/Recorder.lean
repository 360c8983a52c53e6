import Mathlib.Data.List.Flatten
import SchemaTypes.Proofs.TypeExpr.Position
import SchemaTypes.TypeExpr.Visitor

/-! # What a recorder keeps

Without a limit, a recorder adds the same sites to whatever it holds: those with no node above
them where it stops. They come in one of two orders, which differ in where a node stands among
the nodes below it.
-/
namespace SchemaTypes

namespace Order
variable {α β : Type} {order : Order}

/-- The entry of a node with the entries of the nodes below it. -/
def join : Order → α → List α → List α
  | .pre, a, below => a :: below
  | .post, a, below => below ++ [a]

theorem join_nil (a : α) : order.join a [] = [a] := by cases order <;> rfl

theorem mem_join {a b : α} {below : List α} : b ∈ order.join a below ↔ b = a ∨ b ∈ below := by
  cases order with
  | pre => exact List.mem_cons
  | post => rw [join, List.mem_append, List.mem_singleton, or_comm]

theorem length_join (a : α) (below : List α) :
    (order.join a below).length = below.length + 1 := by
  cases order with
  | pre => exact List.length_cons
  | post => exact List.length_append

theorem map_join (f : α → β) (a : α) (below : List α) :
    (order.join a below).map f = order.join (f a) (below.map f) := by
  cases order with
  | pre => rfl
  | post => exact List.map_append

theorem join_sublist_join {below below' : List α} (h : below.Sublist below') (a : α) :
    (order.join a below).Sublist (order.join a below') := by
  cases order with
  | pre => exact h.cons_cons a
  | post => exact h.append (List.Sublist.refl [a])

/-- The first node is recorded before the second, if both are. -/
def Before : Order → Path → Path → Prop
  | .pre, p, q => p.Above q ∨ p.LeftOf q
  | .post, p, q => q.Above p ∨ p.LeftOf q

theorem before_of_leftOf {p q : Path} (h : p.LeftOf q) : order.Before p q := by
  cases order with
  | pre => exact .inr h
  | post => exact .inr h

theorem Before.asymm {p q : Path} (h : order.Before p q) : ¬ order.Before q p := by
  cases order with
  | pre =>
    rcases h with h | h
    · rintro (h' | h')
      · exact h.asymm h'
      · exact h'.not_above.2 h
    · rintro (h' | h')
      · exact h.not_above.2 h'
      · exact h.asymm h'
  | post =>
    rcases h with h | h
    · rintro (h' | h')
      · exact h.asymm h'
      · exact h'.not_above.1 h
    · rintro (h' | h')
      · exact h.not_above.1 h'
      · exact h.asymm h'

theorem pairwise_join {site : Site} {below : List Site}
    (h : below.Pairwise fun a b => order.Before a.path b.path)
    (habove : ∀ x ∈ below, site.path.Above x.path) :
    (order.join site below).Pairwise fun a b => order.Before a.path b.path := by
  cases order with
  | pre => exact List.pairwise_cons.mpr ⟨fun x hx => .inl (habove x hx), h⟩
  | post =>
    refine List.pairwise_append.mpr ⟨h, List.pairwise_singleton _ _, ?_⟩
    intro x hx y hy
    rw [List.mem_singleton.mp hy]
    exact .inl (habove x hx)

/-- What is held when the turn of the children comes. -/
def entered : Order → Site → Array Site → Array Site
  | .pre, site, recorded => recorded.push site
  | .post, _, recorded => recorded

/-- What is held when the node is left. -/
def left : Order → Site → Array Site → Array Site
  | .pre, _, held => held
  | .post, site, held => held.push site

theorem toList_left {site : Site} {recorded held : Array Site} {below : List Site}
    (h : held.toList = (order.entered site recorded).toList ++ below) :
    (order.left site held).toList = recorded.toList ++ order.join site below := by
  cases order with
  | pre =>
    rw [entered, Array.toList_push, List.append_assoc, List.singleton_append] at h
    exact h
  | post =>
    rw [entered] at h
    rw [left, join, Array.toList_push, h, List.append_assoc]

end Order

namespace TypeExpr

/-- No node above the path is of a variant where the walk stops. -/
def Unhidden (stop : Variant → Bool) (t : TypeExpr) (path : Path) : Prop :=
  ∀ (p : Path) (n : TypeExpr), p.Above path → t.at? p = some n → stop n.variant = false

variable {stop : Variant → Bool} {t : TypeExpr}

theorem unhidden_nil : t.Unhidden stop [] := fun p _ hp => absurd hp p.not_above_nil

theorem unhidden_concat {c : TypeExpr} {i : Nat} (hc : t.children[i]? = some c) (path : Path) :
    t.Unhidden stop (path ++ [i]) ↔ stop t.variant = false ∧ c.Unhidden stop path := by
  have hat (p : Path) : t.at? (p ++ [i]) = c.at? p := by
    rw [at?_concat, hc, Option.bind_some]
  constructor
  · intro h
    refine ⟨h [] t (Path.above_concat.mpr (.inl rfl)) rfl, ?_⟩
    intro p n hp hn
    exact h (p ++ [i]) n (Path.above_concat.mpr (.inr ⟨p, rfl, hp⟩)) ((hat p).trans hn)
  · rintro ⟨hroot, hbelow⟩ p n hp hn
    rcases Path.above_concat.mp hp with rfl | ⟨p', rfl, hp'⟩
    · cases hn
      exact hroot
    · exact hbelow p' n hp' ((hat p').symm.trans hn)

end TypeExpr

namespace Recorder
variable (r : Recorder)

/-- What the recorder keeps, but for its limit, of a tree that stands at the path. -/
def kept (path : Path) : TypeExpr → List Site
  | .primitive p as => [⟨path, .primitive p as⟩]
  | .map k v as =>
    r.order.join ⟨path, .map k v as⟩
      (if r.stop .map then [] else kept (0 :: path) k ++ kept (1 :: path) v)
  | .list e as =>
    r.order.join ⟨path, .list e as⟩ (if r.stop .list then [] else kept (0 :: path) e)
  | .set e as =>
    r.order.join ⟨path, .set e as⟩ (if r.stop .set then [] else kept (0 :: path) e)
  | .reference t => [⟨path, .reference t⟩]

theorem kept_eq (site : Site) :
    r.kept site.path site.node = r.order.join site
      (if r.stop site.node.variant then []
        else site.children.flatMap fun c => r.kept c.path c.node) := by
  have hleaf (s : Site) (b : Bool) : [s] = r.order.join s (if b then [] else []) := by
    rw [ite_self, Order.join_nil]
  obtain ⟨path, t⟩ := site
  cases t with
  | primitive p as => exact hleaf _ _
  | map k v as =>
    simp only [kept, Site.children, List.flatMap_cons, List.flatMap_nil, List.append_nil]
    rfl
  | list e as | set e as =>
    simp only [kept, Site.children, List.flatMap_cons, List.flatMap_nil, List.append_nil]
    rfl
  | reference q => exact hleaf _ _

/-- The limit has no part in it. -/
theorem kept_limit (limit : Option Nat) (path : Path) (t : TypeExpr) :
    ({ r with limit } : Recorder).kept path t = r.kept path t := by
  induction t generalizing path with
  | primitive p as => rfl
  | map k v as ihk ihv => simp only [kept, ihk, ihv]
  | list e as ih | set e as ih => simp only [kept, ih]
  | reference q => rfl

variable {r}

/-- A site is kept with its node, unless it is hidden below a stop. -/
theorem mem_kept_iff (site : Site) {x : Site} :
    x ∈ r.kept site.path site.node ↔ ∃ q : Path, x.path = q ++ site.path ∧
      site.node.at? q = some x.node ∧ site.node.Unhidden r.stop q := by
  induction site using Site.induction generalizing x with
  | h site ih =>
    rw [kept_eq, Order.mem_join]
    constructor
    · rintro (rfl | hx)
      · exact ⟨[], rfl, rfl, TypeExpr.unhidden_nil⟩
      · split at hx
        case isTrue => cases hx
        case isFalse hstop =>
          obtain ⟨c, hc, hx⟩ := List.mem_flatMap.mp hx
          obtain ⟨i, hpath, hchild⟩ := Site.mem_children_iff.mp hc
          obtain ⟨q, hq, hat, hopen⟩ := (ih c hc).mp hx
          refine ⟨q ++ [i], ?_, ?_, ?_⟩
          · rw [hq, hpath, List.append_assoc, List.singleton_append]
          · rw [TypeExpr.at?_concat, hchild, Option.bind_some, hat]
          · exact (TypeExpr.unhidden_concat hchild q).mpr ⟨Bool.eq_false_iff.mpr hstop, hopen⟩
    · rintro ⟨q, hq, hat, hopen⟩
      rcases List.eq_nil_or_concat q with rfl | ⟨q, i, rfl⟩
      · left
        cases x
        cases hat
        cases hq
        rfl
      · right
        rw [List.concat_eq_append] at hq hat hopen
        rw [TypeExpr.at?_concat] at hat
        obtain ⟨c, hchild, hat⟩ := Option.bind_eq_some_iff.mp hat
        obtain ⟨hstop, hopen⟩ := (TypeExpr.unhidden_concat hchild q).mp hopen
        have hc : Site.mk (i :: site.path) c ∈ site.children :=
          Site.mem_children_iff.mpr ⟨i, rfl, hchild⟩
        rw [if_neg (Bool.eq_false_iff.mp hstop)]
        refine List.mem_flatMap.mpr ⟨_, hc, (ih _ hc).mpr ⟨q, ?_, hat, hopen⟩⟩
        rw [hq, List.append_assoc, List.singleton_append]

theorem mem_kept_root_iff {t : TypeExpr} {x : Site} :
    x ∈ r.kept [] t ↔ t.at? x.path = some x.node ∧ t.Unhidden r.stop x.path := by
  constructor
  · intro hx
    obtain ⟨q, hq, hat, hopen⟩ := (mem_kept_iff ⟨[], t⟩).mp hx
    rw [List.append_nil] at hq
    rw [hq]
    exact ⟨hat, hopen⟩
  · rintro ⟨hat, hopen⟩
    exact (mem_kept_iff ⟨[], t⟩).mpr ⟨x.path, (List.append_nil _).symm, hat, hopen⟩

theorem suffix_of_mem_kept {site x : Site} (h : x ∈ r.kept site.path site.node) :
    site.path <:+ x.path := by
  obtain ⟨q, hq, -⟩ := (mem_kept_iff site).mp h
  rw [hq]
  exact List.suffix_append q site.path

theorem above_of_mem_kept {site c x : Site} (hc : c ∈ site.children)
    (hx : x ∈ r.kept c.path c.node) : site.path.Above x.path := by
  obtain ⟨i, hpath, -⟩ := Site.mem_children_iff.mp hc
  have hsuffix := suffix_of_mem_kept hx
  rw [hpath] at hsuffix
  have habove : site.path.Above (i :: site.path) := Path.above_cons.mpr (.inl rfl)
  refine ⟨habove.1.trans hsuffix, ?_⟩
  intro heq
  exact habove.not_suffix (heq ▸ hsuffix)

/-- What is kept of a child lies to the left of what is kept of a later one. -/
theorem leftOf_of_mem_kept {c d x y : Site} {path : Path}
    (hcd : ∃ i j, i < j ∧ c.path = i :: path ∧ d.path = j :: path)
    (hx : x ∈ r.kept c.path c.node) (hy : y ∈ r.kept d.path d.node) : x.path.LeftOf y.path := by
  obtain ⟨i, j, hij, hc, hd⟩ := hcd
  have hi := suffix_of_mem_kept hx
  have hj := suffix_of_mem_kept hy
  rw [hc] at hi
  rw [hd] at hj
  exact ⟨path, i, j, hij, hi, hj⟩

theorem pairwise_kept (site : Site) :
    (r.kept site.path site.node).Pairwise fun a b => r.order.Before a.path b.path := by
  induction site using Site.induction with
  | h site ih =>
    rw [kept_eq]
    split
    · exact Order.pairwise_join .nil fun x hx => nomatch hx
    · apply Order.pairwise_join
      · refine List.pairwise_flatMap.mpr ⟨ih, ?_⟩
        exact site.pairwise_children.imp fun hcd x hx y hy =>
          Order.before_of_leftOf (leftOf_of_mem_kept hcd hx hy)
      · intro x hx
        obtain ⟨c, hc, hx⟩ := List.mem_flatMap.mp hx
        exact above_of_mem_kept hc hx

/-- Stopping anywhere leaves sites out and does not move the others. -/
theorem kept_sublist (site : Site) :
    (r.kept site.path site.node).Sublist
      (({ order := r.order } : Recorder).kept site.path site.node) := by
  induction site using Site.induction with
  | h site ih =>
    rw [kept_eq, kept_eq]
    apply Order.join_sublist_join
    split
    · exact List.nil_sublist _
    · exact List.Sublist.flatMap_right site.children ih

theorem around_visitor (r : Recorder) (site : Site) (descend : Array Site → Array Site)
    (recorded : Array Site) :
    r.visitor.around site descend recorded =
      let held := r.order.entered site recorded
      r.order.left site (if r.descends site held then descend held else held) := by
  obtain ⟨order, stop, limit⟩ := r
  cases order <;> rfl

/-- If the walk of the children adds to what is held, so does the walk of the node. -/
theorem toList_around {site : Site} {descend : Array Site → Array Site} {recorded : Array Site}
    {below : List Site} (h : (descend (r.order.entered site recorded)).toList =
      (r.order.entered site recorded).toList ++ below) :
    (r.visitor.around site descend recorded).toList = recorded.toList ++ r.order.join site
      (if r.descends site (r.order.entered site recorded) then below else []) := by
  rw [around_visitor]
  apply Order.toList_left
  split
  · exact h
  · exact (List.append_nil _).symm

theorem toList_walks {sites : List Site} (h : ∀ c ∈ sites, ∀ recorded : Array Site,
    (r.visitor.walk c.path c.node recorded).toList = recorded.toList ++ r.kept c.path c.node)
    (recorded : Array Site) :
    (sites.foldl (fun s c => r.visitor.walk c.path c.node s) recorded).toList =
      recorded.toList ++ sites.flatMap fun c => r.kept c.path c.node := by
  induction sites generalizing recorded with
  | nil => rw [List.foldl_nil, List.flatMap_nil, List.append_nil]
  | cons c sites ih =>
    rw [List.foldl_cons, ih fun d hd => h d (List.mem_cons_of_mem c hd),
      h c List.mem_cons_self, List.flatMap_cons, List.append_assoc]

theorem toList_walk (hr : r.limit = none) (site : Site) (recorded : Array Site) :
    (r.visitor.walk site.path site.node recorded).toList =
      recorded.toList ++ r.kept site.path site.node := by
  induction site using Site.induction generalizing recorded with
  | h site ih =>
    have hbelow := toList_walks ih (r.order.entered site recorded)
    rw [← Visitor.walkChildren_eq_foldl] at hbelow
    have hdescends (held : Array Site) : r.descends site held = !r.stop site.node.variant := by
      rw [descends, hr, Option.all_none, Bool.and_true]
    rw [Visitor.walk_eq, toList_around hbelow, kept_eq, hdescends]
    cases r.stop site.node.variant <;> rfl

theorem record_eq_kept (hr : r.limit = none) (t : TypeExpr) : r.record .root t = r.kept [] t := by
  change (r.visitor.walk [] t #[]).toList = _
  rw [toList_walk hr ⟨[], t⟩]
  rfl

theorem mem_record_iff (hr : r.limit = none) {t : TypeExpr} {x : Site} :
    x ∈ r.record .root t ↔ t.at? x.path = some x.node ∧ t.Unhidden r.stop x.path := by
  rw [record_eq_kept hr, mem_kept_root_iff]

end Recorder

namespace TypeExpr
variable {t : TypeExpr} {x : Site}

/-- Where nothing stops the walk, all nodes are visited, and nothing else is. -/
theorem mem_record_order_iff {order : Order} :
    x ∈ ({ order } : Recorder).record .root t ↔ t.at? x.path = some x.node := by
  rw [Recorder.mem_record_iff rfl]
  exact and_iff_left fun _ _ _ _ => rfl

theorem mem_preorder_iff : x ∈ t.preorder ↔ t.at? x.path = some x.node := mem_record_order_iff

theorem mem_postorder_iff : x ∈ t.postorder ↔ t.at? x.path = some x.node := mem_record_order_iff

end TypeExpr

end SchemaTypes
