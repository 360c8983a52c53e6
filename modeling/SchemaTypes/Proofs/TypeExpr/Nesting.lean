import SchemaTypes.Proofs.TypeExpr.Depth
import SchemaTypes.Proofs.TypeExpr.Skeleton

/-! # The depth of a type in its text

The angle brackets of a text nest like the containers of the type. The level of the text rises
with every container that is entered and falls when it is left, so its peak is the depth.
-/
namespace SchemaTypes
open Text
open Brackets (angles)

theorem Annotation.free_angles_skeleton {as : List Annotation}
    (h : ∀ a ∈ as, angles.Free a.name.toList) : angles.Free (skeleton as) := by
  cases as with
  | nil => exact fun c hc => nomatch hc
  | cons a as =>
    have hopening : angles.Free [' ', '('] := by decide
    have hclosing : angles.Free [')'] := by decide
    exact hopening.append ((free_captions (by decide) h).append hclosing)

namespace TypeExpr
open Annotation (free_angles_skeleton)

theorem nested_container {word : String} (hword : angles.Free word.toList) {n : Int}
    {parts : List Char} (hparts : angles.Nested n parts) {as : List Annotation}
    (h : ∀ a ∈ as, angles.Free a.name.toList) :
    angles.Nested (n + 1) (containerSkeleton word parts as) := by
  have hall := (hword.nested.append hparts.enclose).append (free_angles_skeleton h).nested
  have hpeak : max (max 0 (n + 1)) 0 = n + 1 := by
    have := hparts.peak_nonneg
    omega
  rwa [hpeak] at hall

theorem nested_skeleton {t : TypeExpr}
    (h : t.NamesSatisfy (fun name => angles.Free name.toList) fun name => angles.Free name.toList) :
    angles.Nested (t.height - 1) t.skeleton := by
  induction t with
  | primitive p as =>
    have hp : angles.Free p.keyword.toList := by cases p <;> decide
    exact (hp.append (free_angles_skeleton h)).nested
  | map k v as ihk ihv =>
    have hseparator : angles.Free [',', ' '] := by decide
    have hparts := (ihk h.1).append (hseparator.nested.append (ihv h.2.1))
    have hpeak : max ((k.height : Int) - 1) (max 0 (v.height - 1)) + 1 =
        (TypeExpr.map k v as).height - 1 := by
      have := k.height_pos
      have := v.height_pos
      simp only [height]
      omega
    rw [← hpeak]
    exact nested_container (by decide) hparts h.2.2
  | list e as ih =>
    have hpeak : (e.height : Int) - 1 + 1 = (TypeExpr.list e as).height - 1 := by
      simp only [height]
      omega
    rw [← hpeak]
    exact nested_container (by decide) (ih h.1) h.2
  | set e as ih =>
    have hpeak : (e.height : Int) - 1 + 1 = (TypeExpr.set e as).height - 1 := by
      simp only [height]
      omega
    rw [← hpeak]
    exact nested_container (by decide) (ih h.1) h.2
  | reference r => exact h.nested

/-- Scanned past its quotes, the text of a type has its angle brackets paired, and their highest
level is one less than the depth. -/
theorem level_render {t : TypeExpr}
    (h : t.NamesSatisfy (Avoids ['<', '>', '\x22']) (Avoids ['<', '>', '\x22'])) :
    let text := t.render.toList
    let levelAfter (p : List Char) : Int := angles.level (unquoted p)
    Closed text ∧ (∀ p, p <+: text → 0 ≤ levelAfter p) ∧ levelAfter text = 0 ∧
      (∀ p, p <+: text → levelAfter p ≤ t.depth - 1) ∧
      ∃ p, p <+: text ∧ levelAfter p = t.depth - 1 := by
  intro text levelAfter
  have hshows : Shows text t.skeleton :=
    shows_render (h.avoids_mono (by decide))
  have hnested : angles.Nested (t.depth - 1) (unquoted text) := by
    rw [hshows.unquoted_eq, depth_eq_height]
    exact nested_skeleton (h.imp (fun _ hn => hn.free) fun _ hn => hn.free)
  refine ⟨hshows.closed, fun p hp => (hnested.level_unquoted hp).1, hnested.settled,
    fun p hp => (hnested.level_unquoted hp).2, ?_⟩
  obtain ⟨q, hq, hpeak⟩ := hnested.reached
  obtain ⟨p, hp, rfl⟩ := prefix_unquoted_iff.mp hq
  exact ⟨p, hp, hpeak⟩

/-- Values full of brackets and quotes, in a type that is deeper in its value than in its key. -/
theorem level_render_unbalanced :
    let t : TypeExpr := .map (.list (.reference ⟨"(\\", 1⟩) [⟨"k", ">\">\\", 2⟩])
      (.set (.list (.primitive .i32 [⟨"", "<\\\"<\n", 3⟩]) []) [⟨"k", "\\", 4⟩]) []
    t.NamesSatisfy (Avoids ['<', '>', '\x22']) (Avoids ['<', '>', '\x22']) ∧
      Closed t.render.toList ∧ angles.level (unquoted t.render.toList) = 0 ∧
      (∀ p, p <+: t.render.toList →
        0 ≤ angles.level (unquoted p) ∧ angles.level (unquoted p) ≤ 3) ∧
      ∃ p, p <+: t.render.toList ∧ angles.level (unquoted p) = 3 := by
  intro t
  have hnames : t.NamesSatisfy (Avoids ['<', '>', '\x22']) (Avoids ['<', '>', '\x22']) := by decide
  have hdepth : ((t.depth : Nat) : Int) - 1 = 3 := by decide
  obtain ⟨hclosed, hnonneg, hend, hle, hpeak⟩ := level_render hnames
  rw [hdepth] at hle hpeak
  exact ⟨hnames, hclosed, hend, fun p hp => ⟨hnonneg p hp, hle p hp⟩, hpeak⟩

end TypeExpr

end SchemaTypes
