import SchemaTypes.Proofs.Text.Dump
import SchemaTypes.Proofs.Text.Scan

/-! # What the layouts of a dump have in common

Every layout shows the same brackets, names and words in the same order. What it adds are
blanks, line breaks and commas outside quotes, and a text without these is called dense.
-/
namespace SchemaTypes.Text

/-- The characters that a layout may add. -/
def looseCharacters : List Char := [' ', '\n', ',']

def isSolid (q : Quoting) (c : Char) : Bool := q != .outside || c ∉ looseCharacters

/-- The text without loose characters outside quotes. -/
def dense (text : List Char) : List Char := select Quoting.read isSolid .outside text

def Loose (x : List Char) : Prop := ∀ c ∈ x, c ∈ looseCharacters

instance (x : List Char) : Decidable (Loose x) :=
  List.decidableBAll (fun c : Char => c ∈ looseCharacters) x

theorem Loose.keeps {x : List Char} (hx : Loose x) : Keeps isSolid x [] := by
  have hquote : '\x22' ∉ x := fun h => absurd (hx _ h) (by decide)
  have hnone : x.filter (isSolid .outside) = [] := by
    rw [List.filter_eq_nil_iff]
    intro c hc
    simp [isSolid, hx c hc]
  exact hnone ▸ keeps_of_not_mem hquote

theorem Loose.cons {c : Char} {x : List Char} (hc : c ∈ looseCharacters) (hx : Loose x) :
    Loose (c :: x) := List.forall_mem_cons.mpr ⟨hc, hx⟩

/-- A text in every layout and at every depth, of which always the same is kept. -/
def Steady (text : Layout → Nat → List Char) : Prop :=
  ∃ kept, ∀ layout n, Keeps isSolid (text layout n) kept

section Steady
variable {x y : Layout → Nat → List Char}

theorem Steady.dense_eq (hx : Steady x) (layout layout' : Layout) (n n' : Nat) :
    dense (x layout n) = dense (x layout' n') := by
  obtain ⟨kept, hkept⟩ := hx
  calc dense (x layout n) = kept := (hkept layout n).select_eq
    _ = dense (x layout' n') := (hkept layout' n').select_eq.symm

theorem Steady.append (hx : Steady x) (hy : Steady y) :
    Steady fun layout n => x layout n ++ y layout n := by
  obtain ⟨u, hu⟩ := hx
  obtain ⟨v, hv⟩ := hy
  exact ⟨u ++ v, fun layout n => (hu layout n).append (hv layout n)⟩

theorem Steady.inner (hx : Steady x) : Steady fun layout n => x layout (layout.inner n) := by
  obtain ⟨kept, hkept⟩ := hx
  exact ⟨kept, fun layout n => hkept layout (layout.inner n)⟩

theorem steady_of_not_mem {w : List Char} (hw : '\x22' ∉ w) : Steady fun _ _ => w :=
  ⟨_, fun _ _ => keeps_of_not_mem hw⟩

theorem steady_of_loose (hx : ∀ layout n, Loose (x layout n)) : Steady x :=
  ⟨[], fun layout n => (hx layout n).keeps⟩

end Steady

namespace Dump

theorem loose_newline (n : Nat) : Loose (newline n).toList := by
  intro c hc
  rw [toList_newline] at hc
  rcases List.mem_cons.mp hc with rfl | hc
  · decide
  · rw [List.eq_of_mem_replicate hc]
    decide

section Between
variable {gap closing : String}

theorem Ending.loose_gap (h : Ending gap closing) : Loose gap.toList := by
  cases h <;> decide

theorem Ending.steady_closing (h : Ending gap closing) : Steady fun _ _ => closing.toList := by
  cases h <;> exact steady_of_not_mem (by decide)

theorem Ending.steady_lead (h : Ending gap closing) : Steady (Layout.lead gap) := by
  apply steady_of_loose
  intro layout n
  cases layout with
  | oneLine => exact h.loose_gap
  | indented => exact loose_newline (n + 1)

theorem steady_separator : Steady Layout.separator := by
  apply steady_of_loose
  intro layout n
  cases layout with
  | oneLine => exact (by decide : Loose [',', ' '])
  | indented => exact (loose_newline (n + 1)).cons (by decide)

theorem Ending.steady_trail (h : Ending gap closing) : Steady (Layout.trail gap closing) := by
  obtain ⟨kept, hkept⟩ := h.steady_closing
  refine ⟨kept, fun layout n => ?_⟩
  cases layout with
  | oneLine => exact h.loose_gap.keeps.append (hkept .oneLine n)
  | indented =>
    have hloose : Loose (',' :: (newline n).toList) := (loose_newline n).cons (by decide)
    exact hloose.keeps.append (hkept .indented n)

end Between

/-- The layout makes a difference to loose characters only. -/
def LayoutFree (d : Dump) : Prop := Steady fun layout n => (d layout n).toList

def AllLayoutFree (ds : List Dump) : Prop := ∀ d ∈ ds, d.LayoutFree

section Parts
variable {d : Dump} {ds : List Dump}

theorem Alphanumeric.quote_not_mem {w : String} (hw : Alphanumeric w) : '\x22' ∉ w.toList :=
  fun h => absurd (hw _ h) (by decide)

theorem Alphanumeric.quote_not_mem_append {w s : String} (hw : Alphanumeric w)
    (hs : '\x22' ∉ s.toList) : '\x22' ∉ (w ++ s).toList := by
  rw [String.toList_append, List.mem_append]
  exact not_or.mpr ⟨hw.quote_not_mem, hs⟩

theorem layoutFree_quoted (s : String) : (quoted s).LayoutFree :=
  ⟨_, fun _ _ => keeps_quote rfl s⟩

theorem layoutFree_word {w : String} (hw : Alphanumeric w) : (word w).LayoutFree :=
  steady_of_not_mem hw.quote_not_mem

theorem layoutFree_number (n : Nat) : (word (toString n)).LayoutFree :=
  layoutFree_word (alphanumeric_toString n)

theorem LayoutFree.field {name : String} (hd : d.LayoutFree)
    (hname : Alphanumeric name := by decide) : (field name d).LayoutFree := by
  have hboth : Steady fun layout n => (name ++ ": ").toList ++ (d layout n).toList :=
    (steady_of_not_mem (hname.quote_not_mem_append (by decide))).append hd
  simpa only [Dump.LayoutFree, Dump.field, String.toList_append] using hboth

theorem AllLayoutFree.nil : AllLayoutFree [] := fun _ h => nomatch h

theorem AllLayoutFree.cons (hd : d.LayoutFree) (hds : AllLayoutFree ds) :
    AllLayoutFree (d :: ds) := List.forall_mem_cons.mpr ⟨hd, hds⟩

theorem AllLayoutFree.followers (hds : AllLayoutFree ds) :
    Steady fun layout n => followers layout n ds := by
  induction ds with
  | nil => exact steady_of_loose fun _ _ => (by decide : Loose [])
  | cons d ds ih =>
    obtain ⟨hd, hds⟩ := List.forall_mem_cons.mp hds
    simp only [Dump.followers, List.flatMap_cons]
    exact (steady_separator.append hd.inner).append (ih hds)

theorem LayoutFree.enclosed {opening gap closing : String} (hopening : '\x22' ∉ opening.toList)
    (hend : Ending gap closing) (hd : d.LayoutFree) (hds : AllLayoutFree ds) :
    (enclosed opening gap closing (d :: ds)).LayoutFree := by
  simp only [Dump.LayoutFree, toList_enclosed_cons]
  exact (steady_of_not_mem hopening).append (hend.steady_lead.append
    (hd.inner.append (hds.followers.append hend.steady_trail)))

theorem LayoutFree.record {name x : String} {fs : List (String × Dump)} (hd : d.LayoutFree)
    (hfs : AllLayoutFree (parts fs)) (hname : Alphanumeric name := by decide)
    (hx : Alphanumeric x := by decide) : (record name ((x, d) :: fs)).LayoutFree :=
  .enclosed (hname.quote_not_mem_append (by decide)) .record (hd.field hx) hfs

theorem AllLayoutFree.field {x : String} {fs : List (String × Dump)} (hd : d.LayoutFree)
    (hfs : AllLayoutFree (parts fs)) (hx : Alphanumeric x := by decide) :
    AllLayoutFree (parts ((x, d) :: fs)) := .cons (hd.field hx) hfs

theorem LayoutFree.tuple {name : String} (hd : d.LayoutFree)
    (hname : Alphanumeric name := by decide) : (tuple name [d]).LayoutFree :=
  .enclosed (hname.quote_not_mem_append (by decide)) .tuple hd .nil

theorem AllLayoutFree.list (hds : AllLayoutFree ds) : (list ds).LayoutFree := by
  cases ds with
  | nil => exact steady_of_not_mem (by decide : '\x22' ∉ "[]".toList)
  | cons d ds =>
    obtain ⟨hd, hds⟩ := List.forall_mem_cons.mp hds
    exact .enclosed (by decide) .list hd hds

end Parts

end Dump

end SchemaTypes.Text
