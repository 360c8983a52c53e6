import Mathlib.Data.List.Infix
import Mathlib.Order.Bounds.Defs
import SchemaTypes.Proofs.TypeExpr.Position
import SchemaTypes.TypeExpr.Counting

/-! # Depth and height

Every step down a tree costs a level of the height, and a highest child costs no more. So the
height is the number of nodes on a longest way from the root to a leaf. Wherever a count starts,
the walk of a type leaves as many nodes open as before and raises the deepest count to what the
height adds to them. It loses count only where that is more than the counter can hold.
-/
namespace SchemaTypes

namespace TypeExpr
variable {t n c : TypeExpr} {path : Path} {i : Nat}

/-- The nodes on the way from the root to the end of the path, the last one first. -/
def nodesAlong (t : TypeExpr) (path : Path) : List TypeExpr := path.tails.filterMap t.at?

/-- The path ends at a node without children. -/
def EndsAtLeaf (t : TypeExpr) (path : Path) : Prop :=
  ∃ leaf, t.at? path = some leaf ∧ leaf.children = []

theorem length_nodesAlong (h : t.at? path = some n) :
    (t.nodesAlong path).length = path.length + 1 := by
  induction path generalizing n with
  | nil => rfl
  | cons i path ih =>
    obtain ⟨m, hm, -⟩ := Option.bind_eq_some_iff.mp h
    have hpath : (t.nodesAlong path).length = path.length + 1 := ih hm
    rw [nodesAlong, List.tails_cons, List.filterMap_cons_some h, List.length_cons,
      List.length_cons, ← hpath, nodesAlong]

theorem height_of_leaf (h : t.children = []) : t.height = 1 := by
  cases t with
  | primitive | reference => rfl
  | map | list | set => cases h

theorem height_lt_of_mem_children (h : c ∈ t.children) : c.height < t.height := by
  cases t with
  | primitive p as => cases h
  | map k v as =>
    have hkey := Nat.le_max_left k.height v.height
    have hvalue := Nat.le_max_right k.height v.height
    change c.height < max k.height v.height + 1
    rcases List.mem_pair.mp h with rfl | rfl
    · omega
    · omega
  | list e as | set e as =>
    rw [List.mem_singleton.mp h]
    exact Nat.lt_succ_self _
  | reference r => cases h

theorem exists_highest_child (h : t.children ≠ []) :
    ∃ (i : Nat) (c : TypeExpr), t.children[i]? = some c ∧ c.height + 1 = t.height := by
  cases t with
  | primitive p as => exact absurd rfl h
  | map k v as =>
    rcases Nat.le_total k.height v.height with hkv | hkv
    · exact ⟨1, v, rfl, congrArg (· + 1) (Nat.max_eq_right hkv).symm⟩
    · exact ⟨0, k, rfl, congrArg (· + 1) (Nat.max_eq_left hkv).symm⟩
  | list e as | set e as => exact ⟨0, e, rfl, rfl⟩
  | reference r => exact absurd rfl h

theorem length_add_height_le (h : t.at? path = some n) : path.length + n.height ≤ t.height := by
  induction path generalizing n with
  | nil =>
    cases h
    exact Nat.le_of_eq (Nat.zero_add _)
  | cons i path ih =>
    obtain ⟨m, hm, hn⟩ := Option.bind_eq_some_iff.mp h
    have hstep := height_lt_of_mem_children (List.mem_of_getElem? hn)
    have hpath := ih hm
    rw [List.length_cons]
    omega

theorem EndsAtLeaf.of_child (hc : t.children[i]? = some c) (h : c.EndsAtLeaf path) :
    t.EndsAtLeaf (path ++ [i]) := by
  obtain ⟨leaf, hleaf, hnone⟩ := h
  refine ⟨leaf, ?_, hnone⟩
  rw [at?_concat, hc, Option.bind_some, hleaf]

theorem exists_longest_path (t : TypeExpr) :
    ∃ path, t.EndsAtLeaf path ∧ path.length + 1 = t.height := by
  induction hn : t.height generalizing t with
  | zero => exact absurd hn (Nat.ne_of_gt t.height_pos)
  | succ n ih =>
    by_cases hleaf : t.children = []
    · exact ⟨[], ⟨t, rfl, hleaf⟩, by rw [← hn, height_of_leaf hleaf, List.length_nil]⟩
    · obtain ⟨i, c, hc, hheight⟩ := exists_highest_child hleaf
      obtain ⟨path, hpath, hlen⟩ := ih c (by omega)
      refine ⟨path ++ [i], hpath.of_child hc, ?_⟩
      rw [List.length_append, List.length_singleton, hlen]

theorem isGreatest_height (t : TypeExpr) :
    IsGreatest {k | ∃ path, t.EndsAtLeaf path ∧ (t.nodesAlong path).length = k} t.height := by
  constructor
  · obtain ⟨path, hend, hlen⟩ := t.exists_longest_path
    obtain ⟨leaf, hleaf, hnone⟩ := hend
    exact ⟨path, ⟨leaf, hleaf, hnone⟩, by rw [length_nodesAlong hleaf, hlen]⟩
  · rintro k ⟨path, ⟨leaf, hleaf, -⟩, rfl⟩
    have hbelow := length_add_height_le hleaf
    have hpos := leaf.height_pos
    rw [length_nodesAlong hleaf]
    omega

end TypeExpr

namespace DepthCounter
variable {capacity : Option Nat}

theorem holds_of_le {m n : Nat} (hmn : m ≤ n) (hn : holds capacity n = true) :
    holds capacity m = true := by
  cases capacity with
  | none => rfl
  | some limit => exact decide_eq_true (hmn.trans (of_decide_eq_true hn))

theorem holds_max {m n : Nat} :
    holds capacity (max m n) = true ↔ holds capacity m = true ∧ holds capacity n = true := by
  refine ⟨fun h => ⟨holds_of_le (Nat.le_max_left m n) h, holds_of_le (Nat.le_max_right m n) h⟩, ?_⟩
  rintro ⟨hm, hn⟩
  rcases Nat.le_total m n with h | h
  · rwa [Nat.max_eq_right h]
  · rwa [Nat.max_eq_left h]

/-- The counter after a walk that leaves no node open and at most so many at once. -/
def raised (capacity : Option Nat) (n : Nat) (c : DepthCounter) : Option DepthCounter :=
  if holds capacity (c.current + n) then some ⟨max c.deepest (c.current + n), c.current⟩ else none

/-- Of two such walks in sequence the higher one decides. -/
theorem raised_bind_raised (m n : Nat) (c : DepthCounter) :
    (raised capacity m c).bind (raised capacity n) = raised capacity (max m n) c := by
  have hmax : c.current + max m n = max (c.current + m) (c.current + n) := by omega
  by_cases hm : holds capacity (c.current + m) = true
  · by_cases hn : holds capacity (c.current + n) = true
    · simp only [raised, hmax, holds_max, hm, hn, and_self, if_true, Option.bind_some,
        Nat.max_assoc]
    · simp only [raised, hmax, holds_max, hm, hn, Bool.false_eq_true, and_false, if_true, if_false,
        Option.bind_some]
  · simp only [raised, hmax, holds_max, hm, Bool.false_eq_true, false_and, if_false,
      Option.bind_none]

theorem opened_bind_closed (c : DepthCounter) :
    (opened capacity c).bind closed = raised capacity 1 c := by
  rw [opened, raised]
  split <;> rfl

/-- A node around such a walk makes it one higher. -/
theorem opened_bind_raised (n : Nat) (c : DepthCounter) :
    ((opened capacity c).bind fun d => (raised capacity n d).bind closed) =
      raised capacity (n + 1) c := by
  have hsum : c.current + 1 + n = c.current + (n + 1) := by omega
  have hle : c.current + 1 ≤ c.current + (n + 1) := by omega
  by_cases hn : holds capacity (c.current + (n + 1)) = true
  · have hopen := holds_of_le hle hn
    have hdeepest : max (max c.deepest (c.current + 1)) (c.current + (n + 1)) =
        max c.deepest (c.current + (n + 1)) := by omega
    simp only [opened, raised, closed, hopen, hsum, hn, hdeepest, if_true, Option.bind_some]
  · by_cases hopen : holds capacity (c.current + 1) = true
    · simp only [opened, raised, hopen, hsum, hn, Bool.false_eq_true, if_true, if_false,
        Option.bind_some, Option.bind_none]
    · simp only [opened, raised, hopen, hn, Bool.false_eq_true, if_false, Option.bind_none]

theorem around_visitor (site : Site) (descend : Option DepthCounter → Option DepthCounter)
    (s : Option DepthCounter) :
    (visitor capacity).around site descend s = (descend (s.bind (opened capacity))).bind closed :=
  rfl

/-- Between entering and leaving a node the counts of all nodes below it cancel out. -/
theorem walk_visitor (capacity : Option Nat) (path : Path) (t : TypeExpr)
    (s : Option DepthCounter) :
    (visitor capacity).walk path t s = s.bind (raised capacity t.height) := by
  induction t generalizing path s with
  | primitive p as | reference r =>
    rw [Visitor.walk, around_visitor, Option.bind_assoc]
    exact congrArg s.bind (funext opened_bind_closed)
  | map k v as ihk ihv =>
    rw [Visitor.walk, around_visitor]
    simp only [ihk, ihv, Option.bind_assoc, raised_bind_raised]
    exact congrArg s.bind (funext (opened_bind_raised (max k.height v.height)))
  | list e as ih | set e as ih =>
    rw [Visitor.walk, around_visitor]
    simp only [ih, Option.bind_assoc]
    exact congrArg s.bind (funext (opened_bind_raised e.height))

end DepthCounter

namespace TypeExpr
open DepthCounter (holds visitor)

theorem depthWithin_eq (capacity : Option Nat) (t : TypeExpr) :
    t.depthWithin capacity = if holds capacity t.height then some t.height else none := by
  have hwalk := DepthCounter.walk_visitor capacity [] t (some ⟨0, 0⟩)
  change ((visitor capacity).walk [] t (some ⟨0, 0⟩)).map _ = _
  rw [hwalk, Option.bind_some, DepthCounter.raised, Nat.zero_add, Nat.zero_max]
  split <;> rfl

theorem depth_eq_height (t : TypeExpr) : t.depth = t.height := by
  rw [depth, depthWithin_eq]
  rfl

/-- The depth is the number of nodes on a longest way to a leaf. From any count of open nodes the
walk comes back to it and keeps a greater depth that was reached before. It never counts down from
zero, and a counter with a largest number is lost exactly if the deepest node would exceed it. -/
theorem depth_longest_path_and_walk (t : TypeExpr) :
    IsGreatest {k | ∃ path, t.EndsAtLeaf path ∧ (t.nodesAlong path).length = k} t.depth ∧
      (t.depth = match t with
        | .primitive .. | .reference _ => 1
        | .list e _ | .set e _ => 1 + e.depth
        | .map k v _ => 1 + max k.depth v.depth) ∧
      (∀ (path : Path) (c : DepthCounter), (visitor none).walk path t (some c) =
        some ⟨max c.deepest (c.current + t.depth), c.current⟩) ∧
      ∀ limit : Nat,
        (t.depthWithin (some limit) = if t.depth ≤ limit then some t.depth else none) ∧
        ∀ (path : Path) (c : DepthCounter), (visitor (some limit)).walk path t (some c) =
          if c.current + t.depth ≤ limit then
            some ⟨max c.deepest (c.current + t.depth), c.current⟩ else none := by
  refine ⟨?_, ?_, fun path c => ?_, fun limit => ⟨?_, fun path c => ?_⟩⟩
  · rw [depth_eq_height]
    exact t.isGreatest_height
  · cases t with
    | primitive p as => rfl
    | map k v as =>
      simp only [depth_eq_height, height]
      omega
    | list e as | set e as =>
      simp only [depth_eq_height, height]
      omega
    | reference r => rfl
  · rw [DepthCounter.walk_visitor, depth_eq_height]
    rfl
  · rw [depthWithin_eq, depth_eq_height]
    simp [holds]
  · rw [DepthCounter.walk_visitor, depth_eq_height]
    simp [holds, DepthCounter.raised]

end TypeExpr

end SchemaTypes
