import SchemaTypes.Proofs.Text.Dense
import SchemaTypes.TypeExpr.Render

/-! # Dumps show what equality sees

In both layouts the dump of a type determines the type, its source lines included, and nothing
is asked of the names in it. The two layouts differ in loose characters outside quotes only.
-/
namespace SchemaTypes
open Text
open Dump (Determines Alphanumeric LayoutFree AllLayoutFree)

namespace Reference

theorem determines_dump (r q : Reference) : Determines r.dump q.dump (r = q) := by
  apply ((Dump.determines_quoted r.name q.name).record
    (.lastField (Dump.determines_number r.line q.line))).imp
  rintro ⟨hname, hline⟩
  cases r
  cases q
  rw [mk.injEq]
  exact ⟨hname, hline⟩

theorem layoutFree_dump (r : Reference) : LayoutFree r.dump :=
  .record (Dump.layoutFree_quoted r.name) (.field (Dump.layoutFree_number r.line) .nil)

end Reference

namespace Annotation

theorem determines_dump (a b : Annotation) : Determines a.dump b.dump (a = b) := by
  apply ((Dump.determines_quoted a.name b.name).record
    (.field (Dump.determines_quoted a.value b.value)
      (.lastField (Dump.determines_number a.line b.line)))).imp
  rintro ⟨hname, hvalue, hline⟩
  cases a
  cases b
  rw [mk.injEq]
  exact ⟨hname, hvalue, hline⟩

theorem determines_dumpList (as bs : List Annotation) :
    Determines (dumpList as) (dumpList bs) (as = bs) := by
  apply Dump.determines_list determines_dump
  intro a layout n
  exact ⟨'A', _, Dump.toList_enclosed_cons .., by decide⟩

theorem layoutFree_dump (a : Annotation) : LayoutFree a.dump :=
  .record (Dump.layoutFree_quoted a.name) (.field (Dump.layoutFree_quoted a.value)
    (.field (Dump.layoutFree_number a.line) .nil))

theorem layoutFree_dumpList (as : List Annotation) : LayoutFree (dumpList as) :=
  AllLayoutFree.list (List.forall_mem_map.mpr fun a _ => a.layoutFree_dump)

end Annotation

namespace Primitive

theorem alphanumeric_label (p : Primitive) : Alphanumeric p.label := by cases p <;> decide

theorem label_eq_iff {p q : Primitive} : p.label = q.label ↔ p = q := by
  cases p <;> cases q <;> decide

end Primitive

namespace Variant

/-- The name of the variant in dumps. -/
def label : Variant → String
  | .primitive => "Primitive"
  | .map => "Map"
  | .list => "List"
  | .set => "Set"
  | .reference => "Reference"

theorem alphanumeric_label (v : Variant) : Alphanumeric v.label := by cases v <;> decide

theorem label_eq_iff {v w : Variant} : v.label = w.label ↔ v = w := by
  cases v <;> cases w <;> decide

end Variant

namespace TypeExpr
open Annotation (determines_dumpList layoutFree_dumpList)

theorem dump_eq_tuple (t : TypeExpr) : ∃ body, t.dump = Dump.tuple t.variant.label [body] := by
  cases t <;> exact ⟨_, rfl⟩

theorem variant_eq_of_dump_append_eq {a b : TypeExpr} {layout : Layout} {n : Nat}
    {s t : List Char} (h : (a.dump layout n).toList ++ s = (b.dump layout n).toList ++ t) :
    a.variant = b.variant := by
  obtain ⟨d, hd⟩ := a.dump_eq_tuple
  obtain ⟨e, he⟩ := b.dump_eq_tuple
  rw [hd, he] at h
  exact Variant.label_eq_iff.mp
    (Dump.tuple_append_inj a.variant.alphanumeric_label b.variant.alphanumeric_label h)

/-- The name of the variant comes first, so only dumps of one variant have to be compared. -/
theorem determines_of_variant_eq {a b : TypeExpr} {P : Prop}
    (h : a.variant = b.variant → Determines a.dump b.dump P) : Determines a.dump b.dump P := by
  intro layout n s t hs ht heq
  exact h (variant_eq_of_dump_append_eq heq) hs ht heq

theorem determines_dump (a b : TypeExpr) : Determines a.dump b.dump (a = b) := by
  apply determines_of_variant_eq
  intro hv
  induction a generalizing b with
  | primitive p as =>
    cases b with
    | primitive q bs =>
      apply (((Dump.determines_word p.alphanumeric_label q.alphanumeric_label).record
        (.lastField (determines_dumpList as bs))).tuple "Primitive").imp
      rintro ⟨hp, rfl⟩
      rw [Primitive.label_eq_iff.mp hp]
    | _ => cases hv
  | map k v as ihk ihv =>
    cases b with
    | map k' v' bs =>
      have hkey : Determines k.dump k'.dump (k = k') := determines_of_variant_eq (ihk k')
      have hvalue : Determines v.dump v'.dump (v = v') := determines_of_variant_eq (ihv v')
      apply ((hkey.record (.field hvalue (.lastField (determines_dumpList as bs)))).tuple "Map").imp
      rintro ⟨rfl, rfl, rfl⟩
      rfl
    | _ => cases hv
  | list e as ih =>
    cases b with
    | list e' bs =>
      have he : Determines e.dump e'.dump (e = e') := determines_of_variant_eq (ih e')
      apply ((he.record (.lastField (determines_dumpList as bs))).tuple "List").imp
      rintro ⟨rfl, rfl⟩
      rfl
    | _ => cases hv
  | set e as ih =>
    cases b with
    | set e' bs =>
      have he : Determines e.dump e'.dump (e = e') := determines_of_variant_eq (ih e')
      apply ((he.record (.lastField (determines_dumpList as bs))).tuple "Set").imp
      rintro ⟨rfl, rfl⟩
      rfl
    | _ => cases hv
  | reference r =>
    cases b with
    | reference q =>
      apply ((Reference.determines_dump r q).tuple "Reference").imp
      rintro rfl
      rfl
    | _ => cases hv

theorem layoutFree_dump (t : TypeExpr) : LayoutFree t.dump := by
  induction t with
  | primitive p as =>
    have hp := Dump.layoutFree_word p.alphanumeric_label
    exact .tuple (.record hp (.field (layoutFree_dumpList as) .nil))
  | map k v as ihk ihv =>
    exact .tuple (.record ihk (.field ihv (.field (layoutFree_dumpList as) .nil)))
  | list e as ih | set e as ih => exact .tuple (.record ih (.field (layoutFree_dumpList as) .nil))
  | reference r => exact .tuple r.layoutFree_dump

/-- The dumps of two types are equal in a layout exactly if the types are, and the two layouts
of a type are equal but for loose characters. -/
theorem dump_eq_iff_and_dense_eq (a b : TypeExpr) :
    (∀ layout n, a.dump layout n = b.dump layout n ↔ a = b) ∧
      ∀ m n, dense (a.dump .indented m).toList = dense (a.dump .oneLine n).toList := by
  constructor
  · intro layout n
    constructor
    · intro h
      have htext : (a.dump layout n).toList ++ [] = (b.dump layout n).toList ++ [] := by rw [h]
      exact (determines_dump a b stopsAt_nil stopsAt_nil htext).1
    · rintro rfl
      rfl
  · intro m n
    exact a.layoutFree_dump.dense_eq .indented .oneLine m n

end TypeExpr

end SchemaTypes
