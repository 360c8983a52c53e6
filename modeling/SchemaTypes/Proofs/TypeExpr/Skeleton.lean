import SchemaTypes.Proofs.Annotation
import SchemaTypes.Proofs.Text.Brackets
import SchemaTypes.TypeExpr.Render

/-! # The written form without its values

The skeleton of a type is what its text shows outside quotes. The values of annotations are
quoted and leave no trace in it, so its marks are those of the type and those in names.
-/
namespace SchemaTypes
open Text

theorem Avoids.free {b : Brackets} {marks : List Char} {name : String} (h : Avoids marks name)
    (ho : b.opening ∈ marks := by decide) (hc : b.closing ∈ marks := by decide) :
    b.Free name.toList := by
  intro c hmem
  have hmarks := h c hmem
  exact ⟨fun heq => hmarks (heq ▸ ho), fun heq => hmarks (heq ▸ hc)⟩

namespace Annotation

def caption (a : Annotation) : List Char := a.name.toList ++ [' ', '=', ' ']

/-- The captions after the first one, each with the separator before it. -/
def furtherCaptions (as : List Annotation) : List Char :=
  as.flatMap fun a => ',' :: ' ' :: a.caption

/-- The skeleton of the tail of a type. -/
def skeleton : List Annotation → List Char
  | [] => []
  | a :: as => ' ' :: '(' :: (a.caption ++ furtherCaptions as ++ [')'])

theorem mem_caption {a : Annotation} {c : Char} (h : c ∈ a.caption) :
    c ∈ a.name.toList ∨ c ∈ [' ', '='] := by
  have hmarks : [' ', '=', ' '] ⊆ [' ', '='] := by decide
  exact (List.mem_append.mp h).imp_right fun hc => hmarks hc

theorem mem_furtherCaptions {as : List Annotation} {c : Char} (h : c ∈ furtherCaptions as) :
    (∃ a ∈ as, c ∈ a.name.toList) ∨ c ∈ [' ', '=', ','] := by
  obtain ⟨a, ha, hc⟩ := List.mem_flatMap.mp h
  rcases List.mem_cons.mp hc with rfl | hc
  · exact .inr (by decide)
  · rcases List.mem_cons.mp hc with rfl | hc
    · exact .inr (by decide)
    · rcases mem_caption hc with hc | hc
      · exact .inl ⟨a, ha, hc⟩
      · exact .inr (List.mem_append_left [','] hc)

/-- A block shows nothing between its parentheses but names and three marks. -/
theorem mem_captions {a : Annotation} {as : List Annotation} {c : Char}
    (h : c ∈ a.caption ++ furtherCaptions as) :
    (∃ b ∈ a :: as, c ∈ b.name.toList) ∨ c ∈ [' ', '=', ','] := by
  rcases List.mem_append.mp h with hc | hc
  · rcases mem_caption hc with hc | hc
    · exact .inl ⟨a, List.mem_cons_self, hc⟩
    · exact .inr (List.mem_append_left [','] hc)
  · rcases mem_furtherCaptions hc with ⟨b, hb, hc⟩ | hc
    · exact .inl ⟨b, List.mem_cons_of_mem a hb, hc⟩
    · exact .inr hc

theorem free_captions {b : Brackets} (hmarks : b.Free [' ', '=', ',']) {a : Annotation}
    {as : List Annotation} (h : ∀ x ∈ a :: as, b.Free x.name.toList) :
    b.Free (a.caption ++ furtherCaptions as) := by
  intro c hc
  rcases mem_captions hc with ⟨x, hx, hc⟩ | hc
  · exact h x hx c hc
  · exact hmarks c hc

theorem shows_render {a : Annotation} (h : Avoids ['\x22'] a.name) :
    Shows a.render.toList a.caption := by
  have hcaption : '\x22' ∉ a.caption := by
    intro hc
    rcases mem_caption hc with hc | hc
    · exact h _ hc List.mem_cons_self
    · exact absurd hc (by decide)
  have htext : a.render.toList = a.caption ++ (quote a.value).toList := by
    simp [toList_render, caption]
  have hshows := (shows_of_not_mem hcaption).append (shows_quote a.value)
  rwa [List.append_nil, ← htext] at hshows

theorem shows_followers {as : List Annotation} (h : ∀ a ∈ as, Avoids ['\x22'] a.name) :
    Shows (followers as) (furtherCaptions as) := by
  induction as with
  | nil => exact ⟨rfl, rfl⟩
  | cons a as ih =>
    have hseparator : Shows [',', ' '] [',', ' '] := shows_of_not_mem (by decide)
    exact (hseparator.append (shows_render (h a List.mem_cons_self))).append
      (ih fun b hb => h b (List.mem_cons_of_mem a hb))

theorem shows_tail {as : List Annotation} (h : ∀ a ∈ as, Avoids ['\x22'] a.name) :
    Shows (tail as).toList (skeleton as) := by
  cases as with
  | nil => exact ⟨rfl, rfl⟩
  | cons a as =>
    have hopening : Shows [' ', '('] [' ', '('] := shows_of_not_mem (by decide)
    have hclosing : Shows [')'] [')'] := shows_of_not_mem (by decide)
    have hbody := (shows_render (h a List.mem_cons_self)).append
      (shows_followers fun b hb => h b (List.mem_cons_of_mem a hb))
    have hblock := hopening.append (hbody.append hclosing)
    rw [toList_tail_cons]
    rwa [List.append_assoc a.render.toList] at hblock

end Annotation

namespace TypeExpr
open Annotation (tail shows_tail)

/-- The skeleton of a container with what it shows between its brackets. -/
def containerSkeleton (word : String) (parts : List Char) (as : List Annotation) : List Char :=
  word.toList ++ '<' :: (parts ++ ['>']) ++ Annotation.skeleton as

def skeleton : TypeExpr → List Char
  | .primitive p as => p.keyword.toList ++ Annotation.skeleton as
  | .map k v as => containerSkeleton "map" (k.skeleton ++ ([',', ' '] ++ v.skeleton)) as
  | .list e as => containerSkeleton "list" e.skeleton as
  | .set e as => containerSkeleton "set" e.skeleton as
  | .reference r => r.name.toList

theorem shows_container {word : String} (hword : '\x22' ∉ word.toList) {text parts : List Char}
    (hparts : Shows text parts) {as : List Annotation} (h : ∀ a ∈ as, Avoids ['\x22'] a.name) :
    Shows (word.toList ++ '<' :: (text ++ '>' :: (tail as).toList))
      (containerSkeleton word parts as) := by
  have hopening : Shows ['<'] ['<'] := shows_of_not_mem (by decide)
  have hclosing : Shows ['>'] ['>'] := shows_of_not_mem (by decide)
  have hshows := ((shows_of_not_mem hword).append
    (hopening.append (hparts.append hclosing))).append (shows_tail h)
  simpa [containerSkeleton] using hshows

theorem shows_render {t : TypeExpr} (h : t.NamesSatisfy (Avoids ['\x22']) (Avoids ['\x22'])) :
    Shows t.render.toList t.skeleton := by
  induction t with
  | primitive p as =>
    have hp : '\x22' ∉ p.keyword.toList := by cases p <;> decide
    rw [render_primitive, String.toList_append]
    exact (shows_of_not_mem hp).append (shows_tail h)
  | map k v as ihk ihv =>
    have hseparator : Shows [',', ' '] [',', ' '] := shows_of_not_mem (by decide)
    have hparts := (ihk h.1).append (hseparator.append (ihv h.2.1))
    have hword : '\x22' ∉ "map".toList := by decide
    have hshows := shows_container hword hparts h.2.2
    rw [toList_render_map]
    rwa [List.append_assoc] at hshows
  | list e as ih =>
    rw [toList_render_list]
    exact shows_container (by decide) (ih h.1) h.2
  | set e as ih =>
    rw [toList_render_set]
    exact shows_container (by decide) (ih h.1) h.2
  | reference r =>
    rw [render_reference]
    exact shows_of_not_mem fun hc => h _ hc List.mem_cons_self

end TypeExpr

end SchemaTypes
