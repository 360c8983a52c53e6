import SchemaTypes.Proofs.TypeExpr.Recorder
import SchemaTypes.TypeExpr.Render

/-! # Where the nodes are written

Every node of a type is written somewhere in the text of the type. Its place is found on the way
down to it: each step skips what the node above writes before the child.

A node's own text stands at its place, strictly within the place of the node above it, and a
key's place ends before that of the value begins. So places begin in the order in which a walk
enters the nodes and end in the order in which it leaves them.
-/
namespace SchemaTypes

/-- So many characters of a text from `start` on. -/
structure Span where
  start : Nat
  length : Nat
  deriving DecidableEq, Repr

namespace Span

def stop (span : Span) : Nat := span.start + span.length

/-- The part stands at the span, and the span within the text. -/
def Holds (span : Span) (text part : String) : Prop :=
  span.stop ≤ text.length ∧ text.toList.extract span.start span.stop = part.toList

instance (span : Span) (text part : String) : Decidable (span.Holds text part) :=
  inferInstanceAs (Decidable (_ ∧ _))

end Span

namespace TypeExpr

/-- How much of the node is written before the child. -/
def childOffset (i : Nat) : TypeExpr → Nat
  | .map k _ _ =>
    if i = 0 then "map<".length else "map<".length + k.render.length + ", ".length
  | .list .. => "list<".length
  | .set .. => "set<".length
  | .primitive .. | .reference _ => 0

/-- How much of the type is written before the node. -/
def offset (t : TypeExpr) : Path → Nat
  | [] => 0
  | i :: path => t.offset path + ((t.at? path).map (childOffset i)).getD 0

def place (t : TypeExpr) (path : Path) : Span where
  start := t.offset path
  length := ((t.at? path).map fun n => n.render.length).getD 0

open Annotation (tail)
variable {t n c : TypeExpr} {path p q : Path} {i : Nat}

@[simp] theorem start_place (t : TypeExpr) (path : Path) :
    (t.place path).start = t.offset path := rfl

theorem offset_cons (h : t.at? path = some n) (i : Nat) :
    t.offset (i :: path) = t.offset path + n.childOffset i := by
  rw [offset, h, Option.map_some, Option.getD_some]

theorem stop_place (h : t.at? path = some n) :
    (t.place path).stop = t.offset path + n.render.length := by
  rw [Span.stop, place, h, Option.map_some, Option.getD_some]

/-- Something is written on either side of a child. -/
theorem exists_render_child (h : n.children[i]? = some c) :
    ∃ before after : List Char, n.render.toList = before ++ (c.render.toList ++ after) ∧
      before.length = n.childOffset i ∧ 0 < before.length ∧ 0 < after.length := by
  cases n with
  | primitive p as => cases h
  | map k v as =>
    match i with
    | 0 =>
      obtain rfl : k = c := Option.some.inj h
      exact ⟨"map<".toList, ',' :: ' ' :: (v.render.toList ++ '>' :: (tail as).toList),
        toList_render_map k v as, rfl, by decide, Nat.succ_pos _⟩
    | 1 =>
      obtain rfl : v = c := Option.some.inj h
      refine ⟨"map<".toList ++ (k.render.toList ++ [',', ' ']), '>' :: (tail as).toList,
        ?_, ?_, Nat.succ_pos _, Nat.succ_pos _⟩
      · rw [toList_render_map, List.append_assoc, List.append_assoc]
        rfl
      · rw [List.length_append, List.length_append, String.length_toList, ← Nat.add_assoc]
        rfl
    | i + 2 => cases h
  | list e as =>
    match i with
    | 0 =>
      obtain rfl : e = c := Option.some.inj h
      exact ⟨"list<".toList, '>' :: (tail as).toList, toList_render_list e as, rfl, by decide,
        Nat.succ_pos _⟩
    | i + 1 => cases h
  | set e as =>
    match i with
    | 0 =>
      obtain rfl : e = c := Option.some.inj h
      exact ⟨"set<".toList, '>' :: (tail as).toList, toList_render_set e as, rfl, by decide,
        Nat.succ_pos _⟩
    | i + 1 => cases h
  | reference r => cases h

theorem exists_render_at (h : t.at? path = some n) :
    ∃ before after : List Char, t.render.toList = before ++ (n.render.toList ++ after) ∧
      before.length = t.offset path := by
  induction path generalizing n with
  | nil =>
    cases h
    exact ⟨[], [], by simp, rfl⟩
  | cons i path ih =>
    obtain ⟨m, hm, hn⟩ := Option.bind_eq_some_iff.mp h
    obtain ⟨before, after, htext, hlen⟩ := ih hm
    obtain ⟨before', after', htext', hlen', -⟩ := exists_render_child hn
    refine ⟨before ++ before', after' ++ after, ?_, ?_⟩
    · rw [htext, htext']
      simp only [List.append_assoc]
    · rw [List.length_append, hlen, hlen', offset_cons hm]

theorem holds_place (h : t.at? path = some n) : (t.place path).Holds t.render n.render := by
  obtain ⟨before, after, htext, hlen⟩ := exists_render_at h
  constructor
  · have hall := congrArg List.length htext
    simp only [List.length_append, String.length_toList, hlen] at hall
    rw [stop_place h]
    omega
  · rw [List.extract_eq_take_drop, stop_place h, start_place, Nat.add_sub_cancel_left, htext,
      ← hlen, List.drop_left, ← String.length_toList, List.take_left]

/-- A child's place lies strictly within that of its parent. -/
theorem place_child (h : t.at? (i :: path) = some c) :
    (t.place path).start < (t.place (i :: path)).start ∧
      (t.place (i :: path)).stop < (t.place path).stop := by
  obtain ⟨n, hn, hc⟩ := Option.bind_eq_some_iff.mp h
  obtain ⟨before, after, htext, hlen, hbefore, hafter⟩ := exists_render_child hc
  have hall := congrArg List.length htext
  simp only [List.length_append, String.length_toList] at hall
  rw [stop_place h, stop_place hn, start_place, start_place, offset_cons hn]
  omega

theorem place_key_value {k v : TypeExpr} {as : List Annotation}
    (h : t.at? path = some (.map k v as)) :
    (t.place (0 :: path)).stop < (t.place (1 :: path)).start := by
  have hk : t.at? (0 :: path) = some k := by rw [at?, h, Option.bind_some]; rfl
  have hseparator : 0 < ", ".length := by decide
  rw [stop_place hk, start_place, offset_cons h, offset_cons h, childOffset, childOffset,
    if_pos rfl, if_neg Nat.one_ne_zero]
  omega

/-- A node with two children is a map. -/
theorem eq_map_of_children {d : TypeExpr} {j : Nat} (hij : i < j) (hc : n.children[i]? = some c)
    (hd : n.children[j]? = some d) : i = 0 ∧ j = 1 ∧ ∃ k v as, n = .map k v as := by
  obtain ⟨hj, -⟩ := List.getElem?_eq_some_iff.mp hd
  cases n with
  | primitive p as => cases hd
  | map k v as =>
    change j < 2 at hj
    exact ⟨by omega, by omega, k, v, as, rfl⟩
  | list e as | set e as =>
    change j < 1 at hj
    omega
  | reference r => cases hd

theorem place_above (hpq : p.Above q) (h : t.at? q = some n) :
    (t.place p).start < (t.place q).start ∧ (t.place q).stop < (t.place p).stop := by
  induction q generalizing n with
  | nil => exact absurd hpq p.not_above_nil
  | cons i q ih =>
    have hchild := place_child h
    rcases Path.above_cons.mp hpq with rfl | hpq
    · exact hchild
    · obtain ⟨m, hm⟩ := exists_at?_of_suffix (List.suffix_cons i q) h
      have hupper := ih hpq hm
      omega

theorem place_suffix (hpq : p <:+ q) (h : t.at? q = some n) :
    (t.place p).start ≤ (t.place q).start ∧ (t.place q).stop ≤ (t.place p).stop := by
  by_cases heq : p = q
  · rw [heq]
    exact ⟨Nat.le_refl _, Nat.le_refl _⟩
  · have hstrict := place_above ⟨hpq, heq⟩ h
    omega

theorem place_leftOf {m : TypeExpr} (hpq : p.LeftOf q) (hp : t.at? p = some n)
    (hq : t.at? q = some m) : (t.place p).stop < (t.place q).start := by
  obtain ⟨r, i, j, hij, hi, hj⟩ := hpq
  obtain ⟨c, hc⟩ := exists_at?_of_suffix hi hp
  obtain ⟨d, hd⟩ := exists_at?_of_suffix hj hq
  obtain ⟨u, hu, hc⟩ := Option.bind_eq_some_iff.mp hc
  obtain ⟨u', hu', hd⟩ := Option.bind_eq_some_iff.mp hd
  obtain rfl : u = u' := Option.some.inj (hu.symm.trans hu')
  obtain ⟨rfl, rfl, k, v, as, rfl⟩ := eq_map_of_children hij hc hd
  have hkey := place_key_value hu
  have hbelowKey := place_suffix hi hp
  have hbelowValue := place_suffix hj hq
  omega

theorem start_lt_of_before {m : TypeExpr} (hpq : Order.pre.Before p q) (hp : t.at? p = some n)
    (hq : t.at? q = some m) : (t.place p).start < (t.place q).start := by
  rcases hpq with habove | hleft
  · exact (place_above habove hq).1
  · exact Nat.lt_of_le_of_lt (Nat.le_add_right _ _) (place_leftOf hleft hp hq)

theorem stop_lt_of_before {m : TypeExpr} (hpq : Order.post.Before p q) (hp : t.at? p = some n)
    (hq : t.at? q = some m) : (t.place p).stop < (t.place q).stop := by
  rcases hpq with habove | hleft
  · exact (place_above habove hp).2
  · exact Nat.lt_of_lt_of_le (place_leftOf hleft hp hq) (Nat.le_add_right _ _)

/-- The places hold the texts of the nodes and are nested like the nodes. They begin one after
the other in pre-order and end one after the other in post-order, and both walks visit all nodes. -/
theorem place_in_walk_order (t : TypeExpr) :
    (∀ path n, t.at? path = some n → (t.place path).Holds t.render n.render) ∧
      ((t.place []).start = 0 ∧ (t.place []).stop = t.render.length) ∧
      (∀ path i c, t.at? (i :: path) = some c →
        (t.place path).start < (t.place (i :: path)).start ∧
          (t.place (i :: path)).stop < (t.place path).stop) ∧
      (∀ path k v as, t.at? path = some (.map k v as) →
        (t.place (0 :: path)).stop < (t.place (1 :: path)).start) ∧
      (t.preorder.Pairwise fun a b => (t.place a.path).start < (t.place b.path).start) ∧
      (t.postorder.Pairwise fun a b => (t.place a.path).stop < (t.place b.path).stop) ∧
      ∀ site : Site, (site ∈ t.preorder ↔ t.at? site.path = some site.node) ∧
        (site ∈ t.postorder ↔ t.at? site.path = some site.node) := by
  have hbefore (order : Order) : (({ order } : Recorder).record .root t).Pairwise
      fun a b => order.Before a.path b.path := by
    rw [Recorder.record_eq_kept rfl]
    exact Recorder.pairwise_kept (r := { order }) ⟨[], t⟩
  refine ⟨fun path n => holds_place, ⟨rfl, ?_⟩, fun path i c => place_child,
    fun path k v as => place_key_value, ?_, ?_, fun site => ⟨mem_preorder_iff, mem_postorder_iff⟩⟩
  · rw [stop_place (at?_nil t), offset, Nat.zero_add]
  · exact (hbefore .pre).imp_of_mem fun ha hb hab =>
      start_lt_of_before hab (mem_preorder_iff.mp ha) (mem_preorder_iff.mp hb)
  · exact (hbefore .post).imp_of_mem fun ha hb hab =>
      stop_lt_of_before hab (mem_postorder_iff.mp ha) (mem_postorder_iff.mp hb)

/-- A reference without a name is written as nothing, and still has a place between its
neighbours: the text is `map<, list<> (k = "<")>`. -/
theorem place_in_walk_order_nameless :
    let key : TypeExpr := .reference ⟨"", 1⟩
    let element : TypeExpr := .reference ⟨"", 2⟩
    let value : TypeExpr := .list element [⟨"k", "<", 3⟩]
    let t : TypeExpr := .map key value []
    t.at? [0, 1] = some element ∧ (t.place [0, 1]).Holds t.render "" ∧
      ((t.place [1]).start < (t.place [0, 1]).start ∧
        (t.place [0, 1]).stop < (t.place [1]).stop) ∧
      t.at? [] = some (.map key value []) ∧ (t.place [0]).stop < (t.place [1]).start := by
  intro key element value t
  have helement : t.at? [0, 1] = some element := rfl
  obtain ⟨hholds, -, hinside, hparted, -, -, -⟩ := place_in_walk_order t
  have hempty := hholds _ _ helement
  rw [render_reference] at hempty
  exact ⟨helement, hempty, hinside _ _ _ helement, rfl, hparted _ _ _ _ rfl⟩

end TypeExpr

end SchemaTypes
