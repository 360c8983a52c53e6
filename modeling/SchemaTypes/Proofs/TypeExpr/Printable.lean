import SchemaTypes.Proofs.Names
import SchemaTypes.Proofs.Text.Quoted
import SchemaTypes.TypeExpr.Render

/-! # Printable text

The six characters with an escape of one letter are not hidden, but four of them do not print
either. Quoting replaces all that does not print, and its escapes are printable themselves. So a
type with printable names is written in printable characters, on one line, whatever its values
hold, and no other type is.
-/
namespace SchemaTypes

namespace Text

/-- Neither hidden nor one of NUL and the three that move the cursor. -/
def Printable (c : Char) : Prop := c ∉ ['\x00', '\t', '\n', '\r'] ∧ isHidden c = false

instance : DecidablePred Printable := fun c =>
  inferInstanceAs (Decidable (c ∉ ['\x00', '\t', '\n', '\r'] ∧ isHidden c = false))

-- over the characters of the text, not over all characters
instance (text : List Char) : Decidable (∀ c ∈ text, Printable c) :=
  List.decidableBAll Printable text

theorem printable_of_ascii {c : Char} (hl : 0x20 ≤ c.toNat) (hr : c.toNat < 0x7f) :
    Printable c := by
  refine ⟨?_, isHidden_eq_false_of_ascii hl hr⟩
  have hlow : ∀ n ∈ ['\x00', '\t', '\n', '\r'].map Char.toNat, n < 0x20 := by decide
  intro hc
  have := hlow c.toNat (List.mem_map_of_mem hc)
  omega

/-- The controls, and the two separators of lines and of paragraphs. -/
def IsControl (c : Char) : Prop :=
  c.toNat < 0x20 ∨ 0x7f ≤ c.toNat ∧ c.toNat < 0xa0 ∨ c.toNat = 0x2028 ∨ c.toNat = 0x2029

/-- Every control but those that move the cursor lies in one of five hidden ranges. -/
theorem Printable.not_isControl {c : Char} (h : Printable c) : ¬ IsControl c := by
  obtain ⟨hmoves, hhidden⟩ := h
  have hranges : [(0x1, 0x8), (0xb, 0xc), (0xe, 0x1f), (0x7f, 0xa0), (0x2028, 0x202f)] ⊆
      hiddenRanges := by decide +kernel
  have hapart (r : Nat × Nat)
      (hr : r ∈ [(0x1, 0x8), (0xb, 0xc), (0xe, 0x1f), (0x7f, 0xa0), (0x2028, 0x202f)]) :
      ¬ (r.1 ≤ c.toNat ∧ c.toNat ≤ r.2) := fun hc =>
    Bool.eq_false_iff.mp hhidden ((isHidden_iff c).mpr ⟨r, hranges hr, hc⟩)
  have hmove : c.toNat ∉ ['\x00', '\t', '\n', '\r'].map Char.toNat := by
    intro hmap
    obtain ⟨d, hd, hdc⟩ := List.mem_map.mp hmap
    exact hmoves (Char.toNat_inj.mp hdc ▸ hd)
  change c.toNat ∉ [0x0, 0x9, 0xa, 0xd] at hmove
  simp only [List.mem_cons, List.not_mem_nil, or_false, not_or, forall_eq_or_imp,
    forall_eq] at hmove hapart
  rw [IsControl]
  omega

def PrintableText (s : String) : Prop := ∀ c ∈ s.toList, Printable c

instance : DecidablePred PrintableText := fun s =>
  inferInstanceAs (Decidable (∀ c ∈ s.toList, Printable c))

@[simp] theorem printableText_append {s t : String} :
    PrintableText (s ++ t) ↔ PrintableText s ∧ PrintableText t := by
  rw [PrintableText, String.toList_append, List.forall_mem_append]
  rfl

theorem printableText_intercalate {separator : String} (h : PrintableText separator)
    {ss : List String} : PrintableText (separator.intercalate ss) ↔ ∀ s ∈ ss, PrintableText s := by
  induction ss with
  | nil => simp [PrintableText]
  | cons s ss ih =>
    cases ss with
    | nil => rw [String.intercalate_singleton, List.forall_mem_singleton]
    | cons t ss =>
      rw [String.intercalate_cons_cons, printableText_append, printableText_append,
        and_iff_left h, ih]
      exact List.forall_mem_cons.symm

/-- The letters and marks of all escapes are printable ASCII. -/
theorem Escaped.printable {c : Char} {e : List Char} (h : Escaped c e) : ∀ d ∈ e, Printable d := by
  cases h with
  | @short letter h =>
    have hall : ∀ x ∈ shortEscapes, 0x20 ≤ x.2.toNat ∧ x.2.toNat < 0x7f := by decide
    have hletter : Printable letter := printable_of_ascii (hall _ h).1 (hall _ h).2
    exact List.forall_mem_cons.mpr ⟨by decide, List.forall_mem_singleton.mpr hletter⟩
  | hex h =>
    have hopening : ∀ d ∈ ['\\', 'u', '\x7b'], Printable d := by decide
    have hclosing : ∀ d ∈ ['\x7d'], Printable d := by decide
    have hdigits : ∀ d ∈ Nat.toDigits 16 c.toNat, Printable d := by
      intro d hd
      obtain ⟨k, hk, rfl⟩ := exists_digit_of_mem_toDigits (by decide) hd
      have hall : ∀ k < 16, 0x20 ≤ k.digitChar.toNat ∧ k.digitChar.toNat < 0x7f := by decide
      exact printable_of_ascii (hall k hk).1 (hall k hk).2
    exact List.forall_mem_append.mpr ⟨hopening, List.forall_mem_append.mpr ⟨hdigits, hclosing⟩⟩
  | verbatim hs hv =>
    have hsub : ['\x00', '\t', '\n', '\r'] ⊆ shortEscapes.map Prod.fst := by decide
    exact List.forall_mem_singleton.mpr ⟨fun hc => hs (hsub hc), hv⟩

theorem printableText_quote (s : String) : PrintableText (quote s) := by
  have hmark : Printable '\x22' := by decide
  have hbody : ∀ d ∈ s.toList.flatMap escapeChar, Printable d := by
    intro d hd
    obtain ⟨c, -, hd⟩ := List.mem_flatMap.mp hd
    exact (escaped_escapeChar c).printable d hd
  rw [PrintableText, toList_quote, List.forall_mem_cons, List.forall_mem_append,
    List.forall_mem_singleton]
  exact ⟨hmark, hbody, hmark⟩

end Text

open Text

namespace Annotation

theorem printable_render_iff (a : Annotation) :
    PrintableText a.render ↔ PrintableText a.name := by
  have hequals : PrintableText " = " := by decide
  rw [render_eq, printableText_append, printableText_append, and_iff_left hequals,
    and_iff_left (printableText_quote a.value)]

theorem printable_block_iff (as : List Annotation) :
    PrintableText (block as) ↔ ∀ a ∈ as, PrintableText a.name := by
  have hopening : PrintableText "(" := by decide
  have hclosing : PrintableText ")" := by decide
  have hseparator : PrintableText ", " := by decide
  by_cases has : as = []
  · simp [has, PrintableText]
  · rw [block_of_ne_nil has, printableText_append, printableText_append, and_iff_left hclosing,
      and_iff_right hopening, printableText_intercalate hseparator, List.forall_mem_map]
    exact forall₂_congr fun a _ => printable_render_iff a

theorem printable_tail_iff (as : List Annotation) :
    PrintableText (tail as) ↔ ∀ a ∈ as, PrintableText a.name := by
  have hspace : PrintableText " " := by decide
  cases as with
  | nil => exact printable_block_iff []
  | cons a as =>
    rw [tail_cons, printableText_append, and_iff_right hspace, printable_block_iff]

end Annotation

theorem Primitive.printable_keyword (p : Primitive) : PrintableText p.keyword := by
  cases p <;> decide

namespace TypeExpr
open Annotation (tail printable_tail_iff)

theorem printable_render_iff (t : TypeExpr) :
    PrintableText t.render ↔ t.NamesSatisfy PrintableText PrintableText := by
  have hseparator : PrintableText ", " := by decide
  have hclosing : PrintableText ">" := by decide
  induction t with
  | primitive p as =>
    rw [render_primitive, printableText_append, and_iff_right p.printable_keyword]
    exact printable_tail_iff as
  | map k v as ihk ihv =>
    have hopening : PrintableText "map<" := by decide
    simp only [render_map, printableText_append, hopening, hseparator, hclosing, ihk, ihv,
      printable_tail_iff, true_and, and_true, and_assoc, NamesSatisfy]
  | list e as ih =>
    have hopening : PrintableText "list<" := by decide
    simp only [render_list, printableText_append, hopening, hclosing, ih, printable_tail_iff,
      true_and, and_true, NamesSatisfy]
  | set e as ih =>
    have hopening : PrintableText "set<" := by decide
    simp only [render_set, printableText_append, hopening, hclosing, ih, printable_tail_iff,
      true_and, and_true, NamesSatisfy]
  | reference r => rw [render_reference, NamesSatisfy]

/-- Printable names give a printable text without controls, hence without line ends, and only they
do. Of the values nothing is asked. -/
theorem printable_names_iff_printable_render (t : TypeExpr) :
    t.NamesSatisfy PrintableText PrintableText ↔
      PrintableText t.render ∧ ∀ c ∈ t.render.toList, ¬ IsControl c := by
  rw [← printable_render_iff]
  constructor
  · intro h
    exact ⟨h, fun c hc => (h c hc).not_isControl⟩
  · exact And.left

/-- Values that hold controls, a line separator and quotes on both levels of a type, and a name
that holds the end of a line. -/
theorem printable_names_iff_printable_render_values :
    let t : TypeExpr := .map (.reference ⟨"caf\u00e9", 1⟩)
      (.list (.bare .i64) [⟨"k", "\x00\t\n\r\x1b\u0085", 2⟩]) [⟨"\u00e9 \"", "\u2028\"\\", 3⟩]
    let broken : TypeExpr := .set (.primitive .bool [⟨"a\nb", "", 1⟩]) []
    (t.NamesSatisfy PrintableText PrintableText ∧
      PrintableText t.render ∧ ∀ c ∈ t.render.toList, ¬ IsControl c) ∧
    ¬ (PrintableText broken.render ∧ ∀ c ∈ broken.render.toList, ¬ IsControl c) := by
  intro t broken
  have hnames : t.NamesSatisfy PrintableText PrintableText := by decide
  have hbroken : ¬ broken.NamesSatisfy PrintableText PrintableText := by decide
  exact ⟨⟨hnames, (printable_names_iff_printable_render t).mp hnames⟩,
    fun h => hbroken ((printable_names_iff_printable_render broken).mpr h)⟩

end TypeExpr

end SchemaTypes
