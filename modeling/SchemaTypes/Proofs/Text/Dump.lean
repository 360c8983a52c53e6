import SchemaTypes.Proofs.Text.Quoted
import SchemaTypes.Text.Dump

/-! # Dumps are uniquely readable

What stands between the parts of a dump depends on the layout, but in both layouts it tells
whether another part follows. So a dump can be read part by part, in either layout alike.
-/
namespace SchemaTypes.Text

namespace Layout

/-- The depth at which the parts stand. -/
def inner : Layout → Nat → Nat
  | .oneLine, n => n
  | .indented, n => n + 1

/-- What stands between the opening bracket and the first part. -/
def lead (gap : String) : Layout → Nat → List Char
  | .oneLine, _ => gap.toList
  | .indented, n => (Dump.newline (n + 1)).toList

/-- What stands between two parts. -/
def separator : Layout → Nat → List Char
  | .oneLine, _ => [',', ' ']
  | .indented, n => ',' :: (Dump.newline (n + 1)).toList

/-- What stands behind the last part, the closing bracket included. -/
def trail (gap closing : String) : Layout → Nat → List Char
  | .oneLine, _ => gap.toList ++ closing.toList
  | .indented, n => ',' :: ((Dump.newline n).toList ++ closing.toList)

end Layout

namespace Dump

/-- The parts after the first one, each with the separator before it. -/
def followers (layout : Layout) (n : Nat) (ds : List Dump) : List Char :=
  ds.flatMap fun d => layout.separator n ++ (d layout (layout.inner n)).toList

/-- The comma that ends a part is the first character of the separator after it. -/
theorem comma_followers_indented (n : Nat) (ds : List Dump) (s : List Char) :
    ',' :: (ds.flatMap (fun d => (newline (n + 1) ++ d .indented (n + 1) ++ ",").toList) ++ s) =
      followers .indented n ds ++ ',' :: s := by
  induction ds with
  | nil => rfl
  | cons d ds ih =>
    simp only [followers, List.flatMap_cons, Layout.separator, Layout.inner, List.append_assoc,
      List.cons_append] at ih ⊢
    rw [← ih]
    simp

theorem toList_enclosed_cons (opening gap closing : String) (d : Dump) (ds : List Dump)
    (layout : Layout) (n : Nat) :
    (enclosed opening gap closing (d :: ds) layout n).toList =
      opening.toList ++ (layout.lead gap n ++ ((d layout (layout.inner n)).toList ++
        (followers layout n ds ++ layout.trail gap closing n))) := by
  cases layout with
  | oneLine =>
    rw [enclosed_oneLine, List.map_cons]
    simp only [String.toList_append, toList_intercalate_cons, List.flatMap_map, List.append_assoc]
    rfl
  | indented =>
    have hrest := comma_followers_indented n ds ((newline n).toList ++ closing.toList)
    rw [Layout.trail, ← hrest, enclosed_indented, List.map_cons, String.join_cons]
    simp [Layout.lead, Layout.inner, List.flatMap_map]

@[simp] theorem toList_newline (n : Nat) :
    (newline n).toList = '\n' :: List.replicate (4 * n) ' ' := by
  simp [newline]

theorem toList_newline_succ (n : Nat) :
    (newline (n + 1)).toList = (newline n).toList ++ List.replicate 4 ' ' := by
  have hspaces : List.replicate (4 * (n + 1)) ' ' =
      List.replicate (4 * n) ' ' ++ List.replicate 4 ' ' := List.replicate_append_replicate.symm
  rw [toList_newline, toList_newline, hspaces, List.cons_append]

/-- The gaps and closing brackets of records, of tuples and of lists. -/
inductive Ending : String → String → Prop
  | record : Ending " " "\x7d"
  | tuple : Ending "" ")"
  | list : Ending "" "]"

section Ending
variable {gap closing : String} {layout : Layout} {n : Nat}

theorem Ending.stopsAt_rest (h : Ending gap closing) (ds : List Dump) (s : List Char) :
    StopsAt Char.isAlphanum (followers layout n ds ++ (layout.trail gap closing n ++ s)) := by
  cases ds with
  | cons d ds => cases layout <;> exact stopsAt_cons.mpr rfl
  | nil =>
    cases layout with
    | indented => exact stopsAt_cons.mpr rfl
    | oneLine => cases h <;> exact stopsAt_cons.mpr rfl

/-- In one line only a separator begins with a comma. On lines of their own all parts end with
one, but the closing bracket is less indented than another part would be. -/
theorem Ending.separator_append_ne_trail (h : Ending gap closing) (s t : List Char) :
    layout.separator n ++ s ≠ layout.trail gap closing n ++ t := by
  intro heq
  cases layout with
  | oneLine => cases h <;> exact absurd (List.cons.inj heq).1 (by decide)
  | indented =>
    have hrest : (newline (n + 1)).toList ++ s = ((newline n).toList ++ closing.toList) ++ t :=
      (List.cons.inj heq).2
    rw [toList_newline_succ, List.append_assoc, List.append_assoc] at hrest
    have hclosing := List.append_cancel_left hrest
    cases h <;> exact absurd (List.cons.inj hclosing).1 (by decide)

end Ending

/-- Two dumps that begin the same text are alike in the stated way and are followed by the same.
What follows may not go on with a word that ends a dump. -/
def Determines (d e : Dump) (P : Prop) : Prop :=
  ∀ ⦃layout : Layout⦄ ⦃n : Nat⦄ ⦃s t : List Char⦄, StopsAt Char.isAlphanum s →
    StopsAt Char.isAlphanum t → (d layout n).toList ++ s = (e layout n).toList ++ t → P ∧ s = t

/-- The same for the parts behind the first one, up to the closing bracket. -/
def DetermineRest (ds es : List Dump) (P : Prop) : Prop :=
  ∀ ⦃gap closing : String⦄, Ending gap closing →
    ∀ ⦃layout : Layout⦄ ⦃n : Nat⦄ ⦃s t : List Char⦄,
      followers layout n ds ++ (layout.trail gap closing n ++ s) =
        followers layout n es ++ (layout.trail gap closing n ++ t) → P ∧ s = t

/-- The parts of a record with the fields. -/
def parts (fields : List (String × Dump)) : List Dump := fields.map fun f => field f.1 f.2

section Determines
variable {d e : Dump} {ds es : List Dump} {P Q : Prop}

theorem Determines.imp (h : Determines d e P) (hpq : P → Q) : Determines d e Q := by
  intro layout n s t hs ht heq
  exact (h hs ht heq).imp_left hpq

theorem DetermineRest.imp (h : DetermineRest ds es P) (hpq : P → Q) : DetermineRest ds es Q := by
  intro gap closing hend layout n s t heq
  exact (h hend heq).imp_left hpq

theorem DetermineRest.nil : DetermineRest [] [] True := by
  intro gap closing _ layout n s t heq
  exact ⟨trivial, List.append_cancel_left (List.append_cancel_left heq)⟩

theorem DetermineRest.nil_cons : DetermineRest [] (e :: es) False := by
  intro gap closing hend layout n s t heq
  simp only [followers, List.flatMap_cons, List.flatMap_nil, List.nil_append,
    List.append_assoc] at heq
  exact absurd heq.symm (hend.separator_append_ne_trail _ _)

theorem DetermineRest.cons_nil : DetermineRest (d :: ds) [] False := by
  intro gap closing hend layout n s t heq
  simp only [followers, List.flatMap_cons, List.flatMap_nil, List.nil_append,
    List.append_assoc] at heq
  exact absurd heq (hend.separator_append_ne_trail _ _)

theorem DetermineRest.cons (hd : Determines d e P) (hds : DetermineRest ds es Q) :
    DetermineRest (d :: ds) (e :: es) (P ∧ Q) := by
  intro gap closing hend layout n s t heq
  simp only [followers, List.flatMap_cons, List.append_assoc] at heq
  obtain ⟨hp, hrest⟩ := hd (hend.stopsAt_rest ds s) (hend.stopsAt_rest es t)
    (List.append_cancel_left heq)
  obtain ⟨hq, hst⟩ := hds hend hrest
  exact ⟨⟨hp, hq⟩, hst⟩

theorem Determines.enclosed {opening gap closing : String} (hend : Ending gap closing)
    (hd : Determines d e P) (hds : DetermineRest ds es Q) :
    Determines (enclosed opening gap closing (d :: ds)) (enclosed opening gap closing (e :: es))
      (P ∧ Q) := by
  intro layout n s t _ _ heq
  simp only [toList_enclosed_cons, List.append_assoc] at heq
  obtain ⟨hp, hrest⟩ := hd (hend.stopsAt_rest ds s) (hend.stopsAt_rest es t)
    (List.append_cancel_left (List.append_cancel_left heq))
  obtain ⟨hq, hst⟩ := hds hend hrest
  exact ⟨⟨hp, hq⟩, hst⟩

theorem Determines.field (hd : Determines d e P) (name : String) :
    Determines (field name d) (field name e) P := by
  intro layout n s t hs ht heq
  simp only [Dump.field, String.toList_append, List.append_assoc] at heq
  exact hd hs ht (List.append_cancel_left (List.append_cancel_left heq))

/-- The first field of a record; the others come by `DetermineRest.field` and `.lastField`. -/
theorem Determines.record {name x : String} {fs gs : List (String × Dump)}
    (hd : Determines d e P) (hfs : DetermineRest (parts fs) (parts gs) Q) :
    Determines (record name ((x, d) :: fs)) (record name ((x, e) :: gs)) (P ∧ Q) :=
  (hd.field x).enclosed .record hfs

theorem DetermineRest.field {x : String} {fs gs : List (String × Dump)} (hd : Determines d e P)
    (hfs : DetermineRest (parts fs) (parts gs) Q) :
    DetermineRest (parts ((x, d) :: fs)) (parts ((x, e) :: gs)) (P ∧ Q) :=
  DetermineRest.cons (hd.field x) hfs

theorem DetermineRest.lastField {x : String} (hd : Determines d e P) :
    DetermineRest (parts [(x, d)]) (parts [(x, e)]) P :=
  (DetermineRest.cons (hd.field x) .nil).imp And.left

theorem Determines.tuple (hd : Determines d e P) (name : String) :
    Determines (tuple name [d]) (tuple name [e]) P :=
  (hd.enclosed .tuple .nil).imp And.left

end Determines

section List
variable {α : Type} {f : α → Dump}

theorem determineRest_map (hf : ∀ a b, Determines (f a) (f b) (a = b)) (as bs : List α) :
    DetermineRest (as.map f) (bs.map f) (as = bs) := by
  induction as generalizing bs with
  | nil =>
    cases bs with
    | nil => exact DetermineRest.nil.imp fun _ => rfl
    | cons b bs => exact DetermineRest.nil_cons.imp False.elim
  | cons a as ih =>
    cases bs with
    | nil => exact DetermineRest.cons_nil.imp False.elim
    | cons b bs =>
      apply (DetermineRest.cons (hf a b) (ih bs)).imp
      rintro ⟨rfl, rfl⟩
      rfl

/-- No part may begin like the end of a list, or the empty list would not stand out. -/
theorem determines_list (hf : ∀ a b, Determines (f a) (f b) (a = b))
    (hhead : ∀ a layout n, ∃ c cs, (f a layout n).toList = c :: cs ∧ c ≠ ']') (as bs : List α) :
    Determines (list (as.map f)) (list (bs.map f)) (as = bs) := by
  -- behind the opening bracket a list that is not empty goes on with its first part
  have hempty (b : α) (bs : List α) (layout : Layout) (n : Nat) (s t : List Char) :
      (list [] layout n).toList ++ s ≠ (list ((b :: bs).map f) layout n).toList ++ t := by
    intro heq
    have hlist : (list ((b :: bs).map f) layout n).toList =
        '[' :: (layout.lead "" n ++ ((f b layout (layout.inner n)).toList ++
          (followers layout n (bs.map f) ++ layout.trail "" "]" n))) :=
      toList_enclosed_cons "[" "" "]" (f b) (bs.map f) layout n
    have hbrackets : "[]".toList = ['[', ']'] := rfl
    have hnil : (list [] layout n).toList = ['[', ']'] := hbrackets
    rw [hnil, hlist] at heq
    have hrest := (List.cons.inj heq).2
    cases layout with
    | indented =>
      rw [Layout.lead, toList_newline] at hrest
      exact absurd (List.cons.inj hrest).1 (by decide)
    | oneLine =>
      obtain ⟨c, cs, hc, hne⟩ := hhead b .oneLine n
      rw [Layout.inner, hc] at hrest
      exact hne (List.cons.inj hrest).1.symm
  cases as with
  | nil =>
    cases bs with
    | nil => exact fun layout n s t _ _ heq => ⟨rfl, List.append_cancel_left heq⟩
    | cons b bs => exact fun layout n s t _ _ heq => absurd heq (hempty b bs layout n s t)
  | cons a as =>
    cases bs with
    | nil => exact fun layout n s t _ _ heq => absurd heq.symm (hempty a as layout n t s)
    | cons b bs =>
      apply ((hf a b).enclosed .list (determineRest_map hf as bs)).imp
      rintro ⟨rfl, rfl⟩
      rfl

end List

theorem determines_quoted (v w : String) : Determines (quoted v) (quoted w) (v = w) := by
  intro layout n s t _ _ heq
  exact quote_append_inj heq

/-- A word that runs to the next character that is no letter and no digit. -/
def Alphanumeric (w : String) : Prop := ∀ c ∈ w.toList, c.isAlphanum = true

instance (w : String) : Decidable (Alphanumeric w) :=
  List.decidableBAll (fun c : Char => c.isAlphanum = true) w.toList

theorem determines_word {v w : String} (hv : Alphanumeric v) (hw : Alphanumeric w) :
    Determines (word v) (word w) (v = w) := by
  intro layout n s t hs ht heq
  obtain ⟨hvw, hst⟩ := word_append_inj hv hw hs ht heq
  exact ⟨String.toList_inj.mp hvw, hst⟩

theorem alphanumeric_toString (n : Nat) : Alphanumeric (toString n) := by
  intro c hc
  rw [Nat.toString_eq_repr, Nat.toList_repr] at hc
  obtain ⟨k, hk, rfl⟩ := exists_digit_of_mem_toDigits (by decide) hc
  have hall : ∀ k < 10, (Nat.digitChar k).isAlphanum = true := by decide
  exact hall k hk

theorem toString_inj {m n : Nat} (h : toString m = toString n) : m = n := by
  rw [Nat.toString_eq_repr, Nat.toString_eq_repr, ← String.toList_inj, Nat.toList_repr,
    Nat.toList_repr] at h
  exact toDigits_inj (by decide) (by decide) h

theorem tuple_append_inj {x y : String} (hx : Alphanumeric x) (hy : Alphanumeric y) {d e : Dump}
    {layout : Layout} {n : Nat} {s t : List Char}
    (h : (tuple x [d] layout n).toList ++ s = (tuple y [e] layout n).toList ++ t) : x = y := by
  simp only [tuple, toList_enclosed_cons, String.toList_append, List.append_assoc] at h
  exact String.toList_inj.mp (word_append_inj hx hy (stopsAt_cons.mpr rfl)
    (stopsAt_cons.mpr rfl) h).1

theorem determines_number (m n : Nat) :
    Determines (word (toString m)) (word (toString n)) (m = n) :=
  (determines_word (alphanumeric_toString m) (alphanumeric_toString n)).imp toString_inj

end Dump

end SchemaTypes.Text
