import SchemaTypes.Primitive.Lookup
import SchemaTypes.Proofs.Annotation
import SchemaTypes.Proofs.TypeExpr.Lines

/-! # The written form is unambiguous

Two types with legible names have the same text only if they differ in source lines at most.
The first word of a text and the character after it tell the variant; the rest is read part by
part, each part before whatever may follow it.
-/
namespace SchemaTypes
open Text
open Annotation (tail tail_nil toList_tail_cons)
namespace TypeExpr

/-- No reference is called like a primitive, and no name holds a mark of the written form that
would end it early. -/
def Legible (t : TypeExpr) : Prop :=
  t.NamesSatisfy
    (fun name => name ∉ Primitive.all.map Primitive.keyword ∧ Avoids ['<', '>', ',', '('] name)
    (Avoids ['='])

instance (t : TypeExpr) : Decidable t.Legible :=
  inferInstanceAs (Decidable (t.NamesSatisfy _ _))

/-- What follows a type inside another one. -/
def Closing (s : List Char) : Prop := ∀ c ∈ s.head?, c = ',' ∨ c = '>'

theorem closing_nil : Closing [] := fun _ h => nomatch h
theorem closing_comma (s : List Char) : Closing (',' :: s) :=
  fun _ h => .inl (Option.some.inj h).symm
theorem closing_angle (s : List Char) : Closing ('>' :: s) :=
  fun _ h => .inr (Option.some.inj h).symm

theorem Closing.stopsAt {p : Char → Bool} {s : List Char} (hs : Closing s) (hc : p ',' = false)
    (ha : p '>' = false) : StopsAt p s := by
  intro c h
  rcases hs c h with rfl | rfl
  · exact hc
  · exact ha

def isWordChar (c : Char) : Bool := c ∉ ['<', '>', ',', '(']

/-- The variant that the first word of a text and the character after it stand for. -/
def leadingVariant (text : List Char) : Variant :=
  let word := String.ofList (text.takeWhile isWordChar)
  match (text.dropWhile isWordChar).head? with
  | some '<' => if word = "map" then .map else if word = "list" then .list else .set
  | some '(' => .primitive
  | _ => if (Primitive.ofKeyword? word).isSome then .primitive else .reference

theorem leadingVariant_word {w s : List Char} (hw : ∀ c ∈ w, isWordChar c = true)
    (hs : Closing s) : leadingVariant (w ++ s) =
      if (Primitive.ofKeyword? (String.ofList w)).isSome then .primitive else .reference := by
  have hstop : StopsAt isWordChar s := hs.stopsAt rfl rfl
  rw [leadingVariant, takeWhile_word hw hstop, dropWhile_word hw hstop]
  split
  case h_1 h => rcases hs _ h with h | h <;> cases h
  case h_2 h => rcases hs _ h with h | h <;> cases h
  case h_3 => rfl

theorem leadingVariant_angle {w s : List Char} (hw : ∀ c ∈ w, isWordChar c = true) :
    leadingVariant (w ++ '<' :: s) =
      if String.ofList w = "map" then .map else if String.ofList w = "list" then .list
      else .set := by
  have hstop : StopsAt isWordChar ('<' :: s) := stopsAt_cons.mpr rfl
  rw [leadingVariant, takeWhile_word hw hstop, dropWhile_word hw hstop]
  rfl

theorem leadingVariant_paren {w s : List Char} (hw : ∀ c ∈ w, isWordChar c = true) :
    leadingVariant (w ++ '(' :: s) = .primitive := by
  have hstop : StopsAt isWordChar ('(' :: s) := stopsAt_cons.mpr rfl
  rw [leadingVariant, takeWhile_word hw hstop, dropWhile_word hw hstop]
  rfl

theorem isWordChar_of_mem_keyword (p : Primitive) :
    ∀ c ∈ p.keyword.toList, isWordChar c = true := by
  cases p <;> exact List.all_eq_true.mp (by decide)

theorem leadingVariant_render {t : TypeExpr} (ht : t.Legible) {s : List Char} (hs : Closing s) :
    leadingVariant (t.render.toList ++ s) = t.variant := by
  cases t with
  | primitive p as =>
    have hp := isWordChar_of_mem_keyword p
    rw [render_primitive, String.toList_append]
    cases as with
    | nil =>
      have hk : Primitive.ofKeyword? p.keyword = some p :=
        Primitive.ofKeyword?_eq_some_iff.mpr rfl
      rw [tail_nil, String.toList_empty, List.append_nil, leadingVariant_word hp hs,
        String.ofList_toList, hk]
      rfl
    | cons a as =>
      -- the space before the block still counts as part of the first word
      have hw : ∀ c ∈ p.keyword.toList ++ [' '], isWordChar c = true := by
        intro c hc
        rcases List.mem_append.mp hc with hc | hc
        · exact hp c hc
        · rw [List.mem_singleton.mp hc]
          rfl
      rw [toList_tail_cons, List.append_cons, List.append_assoc]
      exact leadingVariant_paren hw
  | map k v as =>
    rw [toList_render_map, List.append_assoc, List.cons_append,
      leadingVariant_angle (List.all_eq_true.mp rfl)]
    rfl
  | list e as =>
    rw [toList_render_list, List.append_assoc, List.cons_append,
      leadingVariant_angle (List.all_eq_true.mp rfl)]
    rfl
  | set e as =>
    rw [toList_render_set, List.append_assoc, List.cons_append,
      leadingVariant_angle (List.all_eq_true.mp rfl)]
    rfl
  | reference r =>
    obtain ⟨hk, hr⟩ : r.name ∉ _ ∧ Avoids _ r.name := ht
    have hw : ∀ c ∈ r.name.toList, isWordChar c = true := by
      intro c hc
      exact decide_eq_true (hr c hc)
    have hn : Primitive.ofKeyword? r.name = none := by
      cases h : Primitive.ofKeyword? r.name with
      | none => rfl
      | some p =>
        refine absurd (List.mem_map.mpr ⟨p, Primitive.mem_all p, ?_⟩) hk
        exact (Primitive.ofKeyword?_eq_some_iff.mp h).symm
    rw [render_reference, leadingVariant_word hw hs, String.ofList_toList, hn]
    rfl

theorem variant_eq_of_append_eq {a b : TypeExpr} (ha : a.Legible) (hb : b.Legible)
    {s t : List Char} (hs : Closing s) (ht : Closing t)
    (h : a.render.toList ++ s = b.render.toList ++ t) : a.variant = b.variant := by
  rw [← leadingVariant_render ha hs, h, leadingVariant_render hb ht]

/-- The text of the type, up to what may follow it, belongs to no other legible type. -/
def Delimited (e : TypeExpr) : Prop :=
  ∀ ⦃f : TypeExpr⦄ ⦃s t : List Char⦄, f.Legible → Closing s → Closing t →
    e.render.toList ++ s = f.render.toList ++ t → e.SameUpToLines f ∧ s = t

/-- The end of a container: its last child, the closing bracket and the tail. -/
theorem Delimited.last {e f : TypeExpr} (he : e.Delimited) (hf : f.Legible)
    {as bs : List Annotation} (ha : ∀ a ∈ as, Avoids ['='] a.name)
    (hb : ∀ b ∈ bs, Avoids ['='] b.name) {s t : List Char} (hs : Closing s) (ht : Closing t)
    (h : e.render.toList ++ '>' :: ((tail as).toList ++ s) =
      f.render.toList ++ '>' :: ((tail bs).toList ++ t)) :
    e.SameUpToLines f ∧ as.map Annotation.eraseLine = bs.map Annotation.eraseLine ∧ s = t := by
  obtain ⟨hef, hrest⟩ := he hf (closing_angle _) (closing_angle _) h
  exact ⟨hef, Annotation.tail_append_inj ha hb (hs.stopsAt rfl rfl) (ht.stopsAt rfl rfl)
    (List.cons.inj hrest).2⟩

theorem primitive_delimited {p : Primitive} {as : List Annotation}
    (ha : (TypeExpr.primitive p as).Legible) : (TypeExpr.primitive p as).Delimited := by
  intro f s t hf hs ht h
  have hv := variant_eq_of_append_eq ha hf hs ht h
  cases f with
  | primitive q bs =>
    -- the keyword ends before the space of a tail, so `isWordChar` does not cut it off
    have hword (r : Primitive) : ∀ c ∈ r.keyword.toList, (c ∉ [' ', ',', '>'] : Bool) = true := by
      cases r <;> exact List.all_eq_true.mp (by decide)
    have hstop (cs : List Annotation) {u : List Char} (hu : Closing u) :
        StopsAt (fun c => c ∉ [' ', ',', '>']) ((tail cs).toList ++ u) := by
      cases cs with
      | nil => exact hu.stopsAt rfl rfl
      | cons c cs =>
        rw [toList_tail_cons]
        exact stopsAt_cons.mpr rfl
    simp only [render_primitive, String.toList_append, List.append_assoc] at h
    obtain ⟨hk, hrest⟩ := word_append_inj (hword p) (hword q) (hstop as hs) (hstop bs ht) h
    obtain ⟨hm, hst⟩ := Annotation.tail_append_inj ha hf (hs.stopsAt rfl rfl)
      (ht.stopsAt rfl rfl) hrest
    have hpq : p = q := Primitive.keyword_inj.mp (String.toList_inj.mp hk)
    refine ⟨?_, hst⟩
    simp only [SameUpToLines, eraseLines, hpq, hm]
  | _ => cases hv

theorem reference_delimited {r : Reference} (ha : (TypeExpr.reference r).Legible) :
    (TypeExpr.reference r).Delimited := by
  intro f s t hf hs ht h
  have hv := variant_eq_of_append_eq ha hf hs ht h
  cases f with
  | reference q =>
    have hword {u : Reference} (hu : (TypeExpr.reference u).Legible) :
        ∀ c ∈ u.name.toList, isWordChar c = true := fun c hc => decide_eq_true (hu.2 c hc)
    rw [render_reference, render_reference] at h
    obtain ⟨hn, hst⟩ := word_append_inj (hword ha) (hword hf) (hs.stopsAt rfl rfl)
      (ht.stopsAt rfl rfl) h
    refine ⟨?_, hst⟩
    simp only [SameUpToLines, eraseLines, Reference.eraseLine, String.toList_inj.mp hn]
  | _ => cases hv

theorem delimited_of_legible {a : TypeExpr} (ha : a.Legible) : a.Delimited := by
  induction a with
  | primitive p as => exact primitive_delimited ha
  | reference r => exact reference_delimited ha
  | map k v as ihk ihv =>
    intro f s t hf hs ht h
    have hv := variant_eq_of_append_eq ha hf hs ht h
    cases f with
    | map k' v' bs =>
      simp only [toList_render_map, List.append_assoc, List.cons_append] at h
      have hkey := (List.cons.inj (List.append_cancel_left h)).2
      obtain ⟨hk, hvalue⟩ := ihk ha.1 hf.1 (closing_comma _) (closing_comma _) hkey
      have hvalue := (List.cons.inj (List.cons.inj hvalue).2).2
      obtain ⟨hv, hm, hst⟩ := (ihv ha.2.1).last hf.2.1 ha.2.2 hf.2.2 hs ht hvalue
      refine ⟨?_, hst⟩
      simp only [SameUpToLines, eraseLines] at hk hv ⊢
      rw [hk, hv, hm]
    | _ => cases hv
  | list e as ih =>
    intro f s t hf hs ht h
    have hv := variant_eq_of_append_eq ha hf hs ht h
    cases f with
    | list e' bs =>
      simp only [toList_render_list, List.append_assoc, List.cons_append] at h
      obtain ⟨he, hm, hst⟩ := (ih ha.1).last hf.1 ha.2 hf.2 hs ht
        (List.cons.inj (List.append_cancel_left h)).2
      refine ⟨?_, hst⟩
      simp only [SameUpToLines, eraseLines] at he ⊢
      rw [he, hm]
    | _ => cases hv
  | set e as ih =>
    intro f s t hf hs ht h
    have hv := variant_eq_of_append_eq ha hf hs ht h
    cases f with
    | set e' bs =>
      simp only [toList_render_set, List.append_assoc, List.cons_append] at h
      obtain ⟨he, hm, hst⟩ := (ih ha.1).last hf.1 ha.2 hf.2 hs ht
        (List.cons.inj (List.append_cancel_left h)).2
      refine ⟨?_, hst⟩
      simp only [SameUpToLines, eraseLines] at he ⊢
      rw [he, hm]
    | _ => cases hv

/-- The text decides everything but the lines, and the lines do not show in it. -/
theorem render_eq_iff_sameUpToLines {a b : TypeExpr} (ha : a.Legible) (hb : b.Legible) :
    a.render = b.render ↔ a.SameUpToLines b := by
  constructor
  · intro h
    have happ : a.render.toList ++ [] = b.render.toList ++ [] := by rw [h]
    exact (delimited_of_legible ha hb closing_nil closing_nil happ).1
  · intro h
    rw [← text_script .plain a, ← text_script .plain b, h.script_eq]

/-- A reference called like a container, and values full of marks. -/
theorem render_eq_iff_sameUpToLines_marks :
    let type (line : Nat) : TypeExpr :=
      .map (.set (.reference ⟨"map", line⟩) [⟨"", "\", k = \"v", line⟩])
        (.primitive .bool [⟨"k", "\\\n>", 2⟩, ⟨"k ", ") (", line⟩]) []
    (type 1).Legible ∧ (type 9).Legible ∧ (type 1).render = (type 9).render ∧
      (type 1).SameUpToLines (type 9) := by
  intro type
  have h1 : (type 1).Legible := by decide
  have h9 : (type 9).Legible := by decide
  have htext : (type 1).render = (type 9).render := by decide +kernel
  exact ⟨h1, h9, htext, (render_eq_iff_sameUpToLines h1 h9).mp htext⟩

end TypeExpr

end SchemaTypes
