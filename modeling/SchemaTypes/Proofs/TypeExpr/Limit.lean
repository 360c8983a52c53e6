import SchemaTypes.Proofs.TypeExpr.Depth
import SchemaTypes.Proofs.TypeExpr.Recorder

/-! # Walks with a limit

Up to its limit, a recorder records what it would record without it. Once the limit is reached
it goes no deeper: all it still adds is, for every open node, the child that waits for its turn
and, in post-order, the node itself.
-/
namespace SchemaTypes

/-- Entries of the full list are missing in the short one, but none of the first ones. -/
def Shortened {α : Type} (n : Nat) (short full : List α) : Prop :=
  short.Sublist full ∧ short.take n = full.take n

namespace Shortened
variable {α : Type} {n : Nat} {short full short' full' : List α}

theorem refl (n : Nat) (l : List α) : Shortened n l l := ⟨List.Sublist.refl l, rfl⟩

theorem nil (full : List α) : Shortened 0 [] full := ⟨List.nil_sublist full, rfl⟩

theorem append (h : Shortened n short full) (h' : Shortened (n - short.length) short' full') :
    Shortened n (short ++ short') (full ++ full') := by
  refine ⟨h.1.append h'.1, ?_⟩
  have hlen := congrArg List.length h.2
  simp only [List.length_take] at hlen
  have hrest : n - full.length = n - short.length := by omega
  rw [List.take_append, List.take_append, h.2, hrest, h'.2]

end Shortened

namespace Order
variable {order : Order}

/-- How many entries a node itself has when the turn of its children comes. -/
def early : Order → Nat
  | .pre => 1
  | .post => 0

/-- How many entries an open node still causes, at most, once the limit is reached. -/
def overshoot : Order → Nat
  | .pre => 1
  | .post => 2

theorem size_entered (site : Site) (recorded : Array Site) :
    (order.entered site recorded).size = recorded.size + order.early := by
  cases order with
  | pre => exact Array.size_push _
  | post => rfl

theorem shortened_join {α : Type} {n : Nat} {short full : List α}
    (h : Shortened (n - order.early) short full) (a : α) :
    Shortened n (order.join a short) (order.join a full) := by
  cases order with
  | pre => exact (Shortened.refl n [a]).append h
  | post => exact Shortened.append h (.refl _ [a])

end Order

theorem Site.height_lt_of_mem_children {site c : Site} (h : c ∈ site.children) :
    c.node.height < site.node.height := by
  apply TypeExpr.height_lt_of_mem_children
  rw [← site.map_node_children]
  exact List.mem_map_of_mem h

theorem Site.length_children_le (site : Site) : site.children.length ≤ 2 := by
  obtain ⟨path, t⟩ := site
  cases t <;> simp [children]

namespace Recorder
variable {r : Recorder} {limit : Nat}

/-- What the limit makes of the walks of some sites, one after the other, if so many entries are
held before. -/
structure Curbed (r : Recorder) (limit held : Nat) (sites added : List Site) : Prop where
  shortened : Shortened (limit - held) added (sites.flatMap fun c => r.kept c.path c.node)
  /-- Once the limit is reached, nothing below the sites is added. -/
  full : limit ≤ held → added = sites
  bounded (height : Nat) (hsites : ∀ c ∈ sites, c.node.height ≤ height) (hheld : held < limit) :
    held + added.length ≤ limit + r.order.overshoot * (height - 1) + (sites.length - 1)

theorem Curbed.nil (r : Recorder) (limit held : Nat) : Curbed r limit held [] [] where
  shortened := .refl _ []
  full _ := rfl
  bounded _ _ hheld := by
    simp only [List.length_nil]
    omega

theorem Curbed.cons {held : Nat} {c : Site} {sites first rest : List Site}
    (hfirst : Curbed r limit held [c] first)
    (hrest : Curbed r limit (held + first.length) sites rest) :
    Curbed r limit held (c :: sites) (first ++ rest) where
  shortened := by
    have hf := hfirst.shortened
    have hr := hrest.shortened
    rw [← Nat.sub_sub] at hr
    rw [List.flatMap_singleton] at hf
    exact hf.append hr
  full hheld := by
    rw [hfirst.full hheld, hrest.full (by omega)]
    rfl
  bounded height hsites hheld := by
    have hf := hfirst.bounded height
      (fun d hd => hsites d (List.mem_singleton.mp hd ▸ List.mem_cons_self)) hheld
    rw [List.length_append, List.length_cons]
    rw [List.length_singleton] at hf
    -- the limit is reached in the first site or left to the others
    by_cases hlimit : held + first.length < limit
    · have hr := hrest.bounded height (fun d hd => hsites d (List.mem_cons_of_mem c hd)) hlimit
      omega
    · rw [hrest.full (by omega)]
      omega

theorem Curbed.alone {held : Nat} {site : Site}
    (h : r.stop site.node.variant = true ∨ limit ≤ held + r.order.early) :
    Curbed r limit held [site] [site] where
  -- without the limit there may be more below the site, but only past the limit
  shortened := by
    have hsite : [site] = r.order.join site [] := (Order.join_nil site).symm
    rw [List.flatMap_singleton, kept_eq, hsite]
    rcases h with hstop | hlimit
    · rw [if_pos hstop]
      exact .refl _ _
    · apply Order.shortened_join
      have hzero : limit - held - r.order.early = 0 := by omega
      rw [hzero]
      exact .nil _
  full _ := rfl
  bounded _ _ hheld := by
    simp only [List.length_singleton]
    omega

theorem Curbed.opened {held : Nat} {site : Site} {below : List Site}
    (hstop : r.stop site.node.variant = false) (hlimit : held + r.order.early < limit)
    (h : Curbed r limit (held + r.order.early) site.children below) :
    Curbed r limit held [site] (r.order.join site below) where
  shortened := by
    have hbelow := h.shortened
    rw [← Nat.sub_sub] at hbelow
    rw [List.flatMap_singleton, kept_eq, if_neg (Bool.eq_false_iff.mp hstop)]
    exact Order.shortened_join hbelow site
  full hheld := by omega
  bounded height hsites _ := by
    have hheight := hsites site List.mem_cons_self
    have hbelow := h.bounded (site.node.height - 1)
      (fun c hc => by have := site.height_lt_of_mem_children hc; omega) hlimit
    have hwaiting := site.length_children_le
    rw [Order.length_join, List.length_singleton]
    cases hchildren : site.children with
    | nil =>
      have hnil : below = [] := by
        have hsub := h.shortened.1
        rw [hchildren] at hsub
        exact List.sublist_nil.mp hsub
      rw [hnil, List.length_nil]
      omega
    | cons c cs =>
      -- a level is left for the children, and pays for one of them that waits for its turn
      have hc : c ∈ site.children := hchildren ▸ List.mem_cons_self
      have hdeep := site.height_lt_of_mem_children hc
      have hpos := c.node.height_pos
      cases horder : r.order with
      | pre =>
        simp only [horder, Order.early, Order.overshoot] at hbelow ⊢
        omega
      | post =>
        simp only [horder, Order.early, Order.overshoot] at hbelow ⊢
        omega

theorem descends_entered_iff (hr : r.limit = some limit) {site : Site} {recorded : Array Site} :
    r.descends site (r.order.entered site recorded) = true ↔
      r.stop site.node.variant = false ∧ recorded.size + r.order.early < limit := by
  rw [descends, hr, Option.all_some, Order.size_entered, Bool.and_eq_true, Bool.not_eq_true',
    decide_eq_true_eq]

theorem exists_curbed_all {sites : List Site} (h : ∀ c ∈ sites, ∀ recorded : Array Site,
    ∃ added, (r.visitor.walk c.path c.node recorded).toList = recorded.toList ++ added ∧
      Curbed r limit recorded.size [c] added) (recorded : Array Site) :
    ∃ added, (sites.foldl (fun s c => r.visitor.walk c.path c.node s) recorded).toList =
      recorded.toList ++ added ∧ Curbed r limit recorded.size sites added := by
  induction sites generalizing recorded with
  | nil => exact ⟨[], (List.append_nil _).symm, .nil r limit _⟩
  | cons c sites ih =>
    obtain ⟨first, hwalk, hfirst⟩ := h c List.mem_cons_self recorded
    obtain ⟨rest, hwalks, hrest⟩ := ih (fun d hd => h d (List.mem_cons_of_mem c hd))
      (r.visitor.walk c.path c.node recorded)
    have hsize : (r.visitor.walk c.path c.node recorded).size = recorded.size + first.length := by
      rw [← Array.length_toList, hwalk, List.length_append, Array.length_toList]
    rw [hsize] at hrest
    refine ⟨first ++ rest, ?_, hfirst.cons hrest⟩
    rw [List.foldl_cons, hwalks, hwalk, List.append_assoc]

theorem exists_curbed (hr : r.limit = some limit) (site : Site) (recorded : Array Site) :
    ∃ added, (r.visitor.walk site.path site.node recorded).toList = recorded.toList ++ added ∧
      Curbed r limit recorded.size [site] added := by
  induction site using Site.induction generalizing recorded with
  | h site ih =>
    obtain ⟨below, hwalks, hbelow⟩ := exists_curbed_all ih (r.order.entered site recorded)
    rw [← Visitor.walkChildren_eq_foldl] at hwalks
    rw [Order.size_entered] at hbelow
    have hwalk := toList_around hwalks
    rw [← Visitor.walk_eq] at hwalk
    refine ⟨_, hwalk, ?_⟩
    by_cases hd : r.descends site (r.order.entered site recorded) = true
    · obtain ⟨hstop, hlimit⟩ := (descends_entered_iff hr).mp hd
      rw [if_pos hd]
      exact hbelow.opened hstop hlimit
    · rw [if_neg hd, Order.join_nil]
      rw [descends_entered_iff hr, Decidable.not_and_iff_or_not] at hd
      exact .alone (hd.imp (Bool.not_eq_false _).mp Nat.not_lt.mp)

theorem curbed_record (hr : r.limit = some limit) (t : TypeExpr) :
    Curbed r limit 0 [⟨[], t⟩] (r.record .root t) := by
  obtain ⟨added, hwalk, hcurbed⟩ := exists_curbed hr ⟨[], t⟩ #[]
  have hadded : r.record .root t = added := hwalk
  rw [hadded]
  exact hcurbed

theorem length_record_le (hr : r.limit = some limit) (t : TypeExpr) :
    (r.record .root t).length ≤ max limit 1 + r.order.overshoot * (t.height - 1) := by
  have h := curbed_record hr t
  by_cases hlimit : 0 < limit
  · have hroot : ∀ c ∈ [Site.mk [] t], c.node.height ≤ t.height := by
      intro c hc
      obtain rfl := List.mem_singleton.mp hc
      exact Nat.le_refl _
    have hbound := h.bounded t.height hroot hlimit
    rw [List.length_singleton] at hbound
    omega
  · rw [h.full (Nat.le_of_not_lt hlimit), List.length_singleton]
    omega

end Recorder

namespace TypeExpr
open Recorder

/-- Without the limit all unhidden nodes are recorded. The limit cuts nothing off before it is
reached, and is overshot by one entry a level in pre-order and by two in post-order. -/
theorem record_limited (order : Order) (stop : Variant → Bool) (limit : Nat) (t : TypeExpr) :
    let recorded := (⟨order, stop, some limit⟩ : Recorder).record .root t
    let unlimited := (⟨order, stop, none⟩ : Recorder).record .root t
    (∀ x : Site, x ∈ unlimited ↔ t.at? x.path = some x.node ∧ t.Unhidden stop x.path) ∧
      recorded.Sublist unlimited ∧
      recorded.take (min limit unlimited.length) = unlimited.take (min limit unlimited.length) ∧
      recorded.length ≤ match order with
        | .pre => max limit 1 + t.depth - 1
        | .post => max limit 1 + 2 * (t.depth - 1) := by
  intro recorded unlimited
  let r : Recorder := ⟨order, stop, some limit⟩
  have hunlimited : unlimited = r.kept [] t :=
    (record_eq_kept rfl t).trans (r.kept_limit none [] t)
  have hshort : Shortened limit recorded unlimited := by
    have h := (curbed_record (r := r) rfl t).shortened
    rwa [List.flatMap_singleton, ← hunlimited] at h
  have hlength : recorded.length ≤ max limit 1 + order.overshoot * (t.height - 1) :=
    length_record_le (r := r) rfl t
  refine ⟨fun x => mem_record_iff rfl, hshort.1, ?_, ?_⟩
  · have htake := congrArg (List.take unlimited.length) hshort.2
    rwa [List.take_take, List.take_take, Nat.min_comm] at htake
  · have hpos := t.height_pos
    rw [depth_eq_height]
    cases order with
    | pre =>
      change recorded.length ≤ max limit 1 + 1 * (t.height - 1) at hlength
      change recorded.length ≤ max limit 1 + t.height - 1
      omega
    | post => exact hlength

/-- Both bounds are reached: the first leaf leaves the values of all open maps to come. -/
example :
    let t : TypeExpr := .map (.map (.bare .i32) (.bare .bool) []) (.list (.bare .bool) []) []
    let limited (order : Order) (limit : Nat) : List Site :=
      (⟨order, fun _ => false, some limit⟩ : Recorder).record .root t
    (limited .pre 3).length = 3 + t.depth - 1 ∧
      (limited .post 1).length = 1 + 2 * (t.depth - 1) := by decide

end TypeExpr

end SchemaTypes
