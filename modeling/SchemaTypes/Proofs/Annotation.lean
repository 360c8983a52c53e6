import SchemaTypes.Proofs.Names
import SchemaTypes.Proofs.Text.Scan
import SchemaTypes.TypeExpr.References

/-! # Annotation texts are self-delimiting

The text of an annotation, of a list of annotations and of the tail of a type determines the
names and values in it and what follows it. Nothing is asked of the values.
-/
namespace SchemaTypes
open Text
namespace Annotation

theorem eraseLine_eq_iff {a b : Annotation} :
    a.eraseLine = b.eraseLine ↔ a.name = b.name ∧ a.value = b.value := by
  simp only [eraseLine, mk.injEq, and_true]

@[simp] theorem toList_render (a : Annotation) :
    a.render.toList = a.name.toList ++ [' '] ++ '=' :: ' ' :: (quote a.value).toList := by
  simp [render_eq]

theorem render_append_inj {a b : Annotation} (ha : Avoids ['='] a.name)
    (hb : Avoids ['='] b.name) {s t : List Char}
    (h : a.render.toList ++ s = b.render.toList ++ t) :
    a.eraseLine = b.eraseLine ∧ s = t := by
  have hname {n : String} (hn : Avoids ['='] n) : ∀ c ∈ n.toList ++ [' '], (c != '=') = true := by
    intro c hc
    rcases List.mem_append.mp hc with hc | hc
    · simpa using hn c hc
    · rw [List.mem_singleton.mp hc]
      rfl
  simp only [toList_render, List.append_assoc _ _ s, List.append_assoc _ _ t,
    List.cons_append] at h
  obtain ⟨hn, hrest⟩ := word_append_inj (hname ha) (hname hb) (by simp) (by simp) h
  obtain ⟨hv, hst⟩ := quote_append_inj (List.cons.inj (List.cons.inj hrest).2).2
  have hn : a.name = b.name := String.toList_inj.mp (List.append_cancel_right hn)
  exact ⟨eraseLine_eq_iff.mpr ⟨hn, hv⟩, hst⟩

/-- An annotation is written as its name and its quoted value. The quotes stay open up to their
last character, and with different annotations no two texts can be made equal by what follows. -/
theorem render_append_eq_iff {a b : Annotation} (ha : Avoids ['='] a.name)
    (hb : Avoids ['='] b.name) (s t : String) :
    (a.render ++ s = b.render ++ t ↔ (a.name = b.name ∧ a.value = b.value) ∧ s = t) ∧
      a.render = a.name ++ " = " ++ quote a.value ∧
      ∀ p, p <+: (quote a.value).toList → p ≠ [] → (Closed p ↔ p = (quote a.value).toList) := by
  refine ⟨⟨?_, ?_⟩, render_eq a, fun p hp hne => closed_prefix_quote_iff hp hne⟩
  · intro h
    have hlist : a.render.toList ++ s.toList = b.render.toList ++ t.toList := by
      rw [← String.toList_append, h, String.toList_append]
    obtain ⟨hab, hst⟩ := render_append_inj ha hb hlist
    exact ⟨eraseLine_eq_iff.mp hab, String.toList_inj.mp hst⟩
  · rintro ⟨⟨hname, hvalue⟩, rfl⟩
    rw [render_eq, render_eq, hname, hvalue]

/-- A value that ends in a backslash, beside one that goes on as if the quotes had ended there. -/
theorem render_append_eq_iff_backslash :
    let a : Annotation := ⟨"doc", "\\", 1⟩
    let b : Annotation := ⟨"doc", "\\\", x = \"\\u\x7b7\x7d", 2⟩
    let broken : List Char := ['\x22', '\\', '\\', '\\', '\x22']
    (Avoids ['='] a.name ∧ Avoids ['='] b.name) ∧
      (∀ s t : String, a.render ++ s ≠ b.render ++ t) ∧
      (a.render ++ ")" = { a with line := 9 }.render ++ ")") ∧
      (broken <+: (quote b.value).toList ∧ ¬ Closed broken) := by
  intro a b broken
  have ha : Avoids ['='] a.name := by decide
  have hb : Avoids ['='] b.name := by decide
  have hbroken : broken <+: (quote b.value).toList := by decide
  refine ⟨⟨ha, hb⟩, ?_, ?_, hbroken, ?_⟩
  · intro s t h
    obtain ⟨⟨-, hvalue⟩, -⟩ := (render_append_eq_iff ha hb s t).1.mp h
    exact absurd hvalue (by decide)
  · exact (render_append_eq_iff ha ha ")" ")").1.mpr ⟨⟨rfl, rfl⟩, rfl⟩
  · intro h
    have hwhole := ((render_append_eq_iff hb hb "" "").2.2 broken hbroken (by decide)).mp h
    exact absurd hwhole (by decide)

/-- The annotations of a block after the first one, each with the separator before it. -/
def followers (as : List Annotation) : List Char :=
  as.flatMap fun a => ',' :: ' ' :: a.render.toList

/-- What stands between the brackets of a block. -/
def entries (as : List Annotation) : String := ", ".intercalate (as.map render)

theorem toList_entries_cons (a : Annotation) (as : List Annotation) :
    (entries (a :: as)).toList = a.render.toList ++ followers as := by
  rw [entries, List.map_cons, toList_intercalate_cons, List.flatMap_map]
  rfl

theorem toList_block {as : List Annotation} (h : as ≠ []) :
    (block as).toList = '(' :: ((entries as).toList ++ [')']) := by
  rw [block_of_ne_nil h, String.toList_append, String.toList_append]
  rfl

theorem toList_block_cons (a : Annotation) (as : List Annotation) :
    (block (a :: as)).toList = '(' :: (a.render.toList ++ (followers as ++ [')'])) := by
  rw [toList_block (List.cons_ne_nil a as), toList_entries_cons, List.append_assoc]

theorem followers_append_inj {as bs : List Annotation} (ha : ∀ a ∈ as, Avoids ['='] a.name)
    (hb : ∀ b ∈ bs, Avoids ['='] b.name) {s t : List Char}
    (h : followers as ++ ')' :: s = followers bs ++ ')' :: t) :
    as.map eraseLine = bs.map eraseLine ∧ s = t := by
  induction as generalizing bs with
  | nil =>
    cases bs with
    | nil => exact ⟨rfl, (List.cons.inj h).2⟩
    | cons b bs => exact absurd (List.cons.inj h).1 (by decide)
  | cons a as ih =>
    cases bs with
    | nil => exact absurd (List.cons.inj h).1 (by decide)
    | cons b bs =>
      simp only [followers, List.flatMap_cons, List.cons_append, List.append_assoc,
        List.cons.injEq, true_and] at h
      obtain ⟨hab, hrest⟩ := render_append_inj (ha a List.mem_cons_self) (hb b List.mem_cons_self) h
      obtain ⟨hs, hst⟩ := ih (fun x hx => ha x (List.mem_cons_of_mem a hx))
        (fun x hx => hb x (List.mem_cons_of_mem b hx)) hrest
      exact ⟨by rw [List.map_cons, List.map_cons, hab, hs], hst⟩

theorem toList_tail_cons (a : Annotation) (as : List Annotation) :
    (tail (a :: as)).toList = ' ' :: '(' :: (a.render.toList ++ (followers as ++ [')'])) := by
  rw [tail_cons, String.toList_append, toList_block_cons]
  rfl

/-- What follows may not begin with a space, since only a space tells that a tail is there. -/
theorem tail_append_inj {as bs : List Annotation} (ha : ∀ a ∈ as, Avoids ['='] a.name)
    (hb : ∀ b ∈ bs, Avoids ['='] b.name) {s t : List Char} (hs : StopsAt (· == ' ') s)
    (ht : StopsAt (· == ' ') t) (h : (tail as).toList ++ s = (tail bs).toList ++ t) :
    as.map eraseLine = bs.map eraseLine ∧ s = t := by
  cases as with
  | nil =>
    cases bs with
    | nil => exact ⟨rfl, h⟩
    | cons b bs =>
      have hs' : s = (tail (b :: bs)).toList ++ t := h
      rw [hs', toList_tail_cons, List.cons_append] at hs
      simp at hs
  | cons a as =>
    cases bs with
    | nil =>
      have ht' : (tail (a :: as)).toList ++ s = t := h
      rw [← ht', toList_tail_cons, List.cons_append] at ht
      simp at ht
    | cons b bs =>
      simp only [toList_tail_cons, List.cons_append, List.append_assoc, List.cons.injEq, true_and,
        List.nil_append] at h
      apply followers_append_inj ha hb
      simpa [followers] using h

end Annotation

end SchemaTypes
