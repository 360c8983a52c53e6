import SchemaTypes.Proofs.Annotation
import SchemaTypes.Proofs.Text.Script
import SchemaTypes.TypeExpr.Render

/-! # Writing a type

A type written into a bounded sink leaves the first characters of its text there, as many as the
bound admits, and succeeds only if that is the whole text. What the caller asks for reaches no
fragment at any depth, also no name, though a name on its own would be fitted to it. A type is
written without its annotations first; they only add a block at the end, and two blocks are joined
by putting a separator in place of the brackets between them.
-/
namespace SchemaTypes
open Text

namespace TypeExpr

/-- A type writes all of its text into the sink, or as much of it as the sink has room for. In the
second case it fails, and nothing is offered once a fragment was refused. -/
theorem write_bounded (t : TypeExpr) (limit : Nat) :
    let outcome := t.write.run .plain (⟨⟨limit, ""⟩, []⟩ : Watched Bounded)
    outcome.2.sink.taken.toList = t.render.toList.take limit ∧
      (outcome.1 = .ok () ↔ t.render.length ≤ limit) ∧
      (∀ offer ∈ outcome.2.offers.tail, offer.2 = true) ∧
      (outcome.1 = .ok () ↔ ∀ offer ∈ outcome.2.offers, offer.2 = true) ∧
      t.renderBounded limit = (outcome.1.isOk, outcome.2.sink.taken) := by
  intro outcome
  let start : Watched Bounded := ⟨⟨limit, ""⟩, []⟩
  have houtcome : outcome = t.script.write.run .plain start := by rw [write_script]
  have hput : t.write.run .plain start.sink = (Formatter.put t.render).run .plain start.sink := by
    rw [← write_script, Script.run_bounded, text_script]
  obtain ⟨hresult, hsink⟩ := Script.run_watched .plain t.script start
  rw [← houtcome, write_script, hput] at hresult hsink
  have horderly : Watched.Orderly outcome := by
    rw [houtcome]
    exact Script.orderly_run .plain t.script (fun _ h => nomatch h)
  refine ⟨?_, ?_, horderly.2, ?_, ?_⟩
  · rw [hsink, Formatter.run_put_snd, Bounded.toList_taken]
    rfl
  · rw [hresult, Formatter.run_put_eq_ok_iff, Bounded.accepted_iff]
  · rw [← List.all_eq_true, ← horderly.1]
    cases outcome.1 with
    | ok _ => simp [Except.isOk, Except.toBool]
    | error e => simp [Except.isOk, Except.toBool]
  · rw [renderBounded]
    change ((t.write.run .plain start.sink).1.isOk, (t.write.run .plain start.sink).2.taken) = _
    rw [hput, hresult, hsink]

/-- A formatter that goes on after a refusal can report success although the text was cut. -/
example :
    let careless : Formatter Bounded Unit := do
      try Formatter.put "bool" catch _ => pure ()
      Formatter.put ""
    careless.run .plain ⟨3, ""⟩ = (.ok (), ⟨0, "boo"⟩) := rfl

end TypeExpr

/-! ## Options -/

open Text.Script (put plainly separated settled_nothing settled_put settled_plainly settled_append
  settled_separated settled_quoted)

namespace Annotation

theorem settled_script (a : Annotation) : a.script.Settled := by
  simp only [script, settled_append, settled_plainly, settled_put, settled_quoted, and_self]

theorem settled_blockScript (as : List Annotation) : (blockScript as).Settled := by
  cases as with
  | nil => exact settled_nothing
  | cons a as =>
    have hentries : (separated (put ", ")
        ((a :: as).map fun b => plainly b.script)).Settled := by
      apply settled_separated (settled_put ", ")
      intro w hw
      obtain ⟨b, -, rfl⟩ := List.mem_map.mp hw
      exact settled_plainly b.script
    simp only [blockScript, settled_append, settled_put, hentries, and_self]

theorem settled_tailScript (as : List Annotation) : (tailScript as).Settled := by
  cases as with
  | nil => exact settled_nothing
  | cons a as => simp only [tailScript, settled_append, settled_put, settled_plainly, and_self]

end Annotation

theorem Primitive.settled_script (p : Primitive) : p.script.Settled := settled_put p.keyword

namespace TypeExpr
open Annotation (block blockScript writeBlock settled_blockScript settled_tailScript
  text_blockScript text_writeBlock write_blockScript)

/-- The parts need no induction, as they start under plain options. -/
theorem settled_script (t : TypeExpr) : t.script.Settled := by
  cases t with
  | primitive p as =>
    simp only [script, settled_append, Primitive.settled_script, settled_tailScript, and_self]
  | map k v as | list e as | set e as =>
    simp only [script, settled_append, settled_put, settled_plainly, settled_tailScript, and_self]
  | reference r => exact settled_put r.name

/-- Under any options types, blocks, annotations and primitives have the text that they have under
plain ones, and offer the same fragments to every sink. A string that is fitted to them does not. -/
theorem options_never_reach_text (o : FormatOptions) :
    (∀ t : TypeExpr, t.write.text o = t.render ∧ t.script.text o = t.render ∧
        t.script.IgnoresOptions) ∧
      (∀ as, (writeBlock as).text o = block as ∧ (blockScript as).text o = block as ∧
        (blockScript as).IgnoresOptions) ∧
      (∀ p : Primitive, p.write.text o = p.keyword ∧ p.script.text o = p.keyword ∧
        p.script.IgnoresOptions) ∧
      (∀ a : Annotation, a.write.text o = a.name ++ " = " ++ quote a.value ∧
        a.script.text o = a.name ++ " = " ++ quote a.value ∧ a.script.IgnoresOptions) ∧
      (∀ (σ : Type) [Sink σ] (sink : σ),
        (∀ t : TypeExpr, t.write.run o sink = t.write.run .plain sink) ∧
        (∀ as, (writeBlock as).run o sink = (writeBlock as).run .plain sink) ∧
        (∀ p : Primitive, p.write.run o sink = p.write.run .plain sink) ∧
        ∀ a : Annotation, a.write.run o sink = a.write.run .plain sink) ∧
      ∀ s, ¬ (Script.pad s).IgnoresOptions := by
  refine ⟨fun t => ?_, fun as => ?_, fun p => ?_, fun a => ?_, fun σ _ sink => ?_, fun s hs => ?_⟩
  · have ht := t.settled_script.ignoresOptions
    exact ⟨t.text_write o, t.text_script o, ht⟩
  · have has := (settled_blockScript as).ignoresOptions
    exact ⟨text_writeBlock o as, text_blockScript o as, has⟩
  · have hp := p.settled_script.ignoresOptions
    exact ⟨Primitive.text_script o p, Primitive.text_script o p, hp⟩
  · have ha := a.settled_script.ignoresOptions
    exact ⟨(a.text_write o).trans a.render_eq, (a.text_script o).trans a.render_eq, ha⟩
  · refine ⟨fun t => ?_, fun as => ?_, fun p => ?_, fun a => ?_⟩
    · rw [← write_script, t.settled_script.ignoresOptions σ o sink]
    · rw [← write_blockScript, (settled_blockScript as).ignoresOptions σ o sink]
    · rw [← Primitive.write_script, p.settled_script.ignoresOptions σ o sink]
    · rw [← a.write_script, a.settled_script.ignoresOptions σ o sink]
  · exact Script.not_settled_pad s (Script.ignoresOptions_iff_settled.mp hs)

end TypeExpr

/-! ## Annotations at the end -/

namespace Annotation

theorem entries_append {as bs : List Annotation} (ha : as ≠ []) (hb : bs ≠ []) :
    entries (as ++ bs) = entries as ++ ", " ++ entries bs := by
  rw [entries, List.map_append]
  apply String.intercalate_append_of_ne_nil
  · exact fun h => ha (List.map_eq_nil_iff.mp h)
  · exact fun h => hb (List.map_eq_nil_iff.mp h)

theorem toList_block_append {as bs : List Annotation} (ha : as ≠ []) (hb : bs ≠ []) :
    (block (as ++ bs)).toList =
      (block as).toList.dropLast ++ ", ".toList ++ (block bs).toList.tail := by
  have hab : as ++ bs ≠ [] := List.append_ne_nil_of_left_ne_nil ha bs
  have hopen : (block as).toList.dropLast = '(' :: (entries as).toList := by
    rw [toList_block ha, ← List.cons_append, List.dropLast_concat]
  have hclose : (block bs).toList.tail = (entries bs).toList ++ [')'] := by
    rw [toList_block hb, List.tail_cons]
  rw [toList_block hab, entries_append ha hb, hopen, hclose]
  simp only [String.toList_append, List.cons_append, List.append_assoc]

theorem tail_eq (as : List Annotation) :
    tail as = if as = [] then "" else " " ++ block as := by
  cases as with
  | nil => rfl
  | cons a as => rw [tail_cons, if_neg (List.cons_ne_nil a as)]

end Annotation

namespace TypeExpr
open Annotation (block blockScript writeBlock tail tail_nil tail_eq text_blockScript
  text_writeBlock)

theorem render_withAnnotations {t : TypeExpr} (ht : t.isReference = false)
    (as : List Annotation) :
    (t.withAnnotations as).render = (t.withAnnotations []).render ++ tail as := by
  cases t with
  | reference r => cases ht
  | _ => simp only [withAnnotations, render_primitive, render_map, render_list, render_set,
      tail_nil, String.append_empty]

/-- Two blocks join at a separator, and a block follows all that a type is without it, after one
space. The options of the caller do not change a block. -/
theorem block_joins_and_stands_last :
    (∀ as bs : List Annotation, as ≠ [] → bs ≠ [] → (block (as ++ bs)).toList =
      (block as).toList.dropLast ++ ", ".toList ++ (block bs).toList.tail) ∧
    (∀ (t : TypeExpr) (as : List Annotation), t.isReference = false →
      (t.withAnnotations as).render =
        (t.withAnnotations []).render ++ if as = [] then "" else " " ++ block as) ∧
    ∀ (o : FormatOptions) (as : List Annotation),
      (writeBlock as).text o = block as ∧ (blockScript as).text o = block as := by
  refine ⟨fun as bs ha hb => Annotation.toList_block_append ha hb, fun t as ht => ?_,
    fun o as => ?_⟩
  · rw [render_withAnnotations ht, tail_eq]
  · exact ⟨text_writeBlock o as, text_blockScript o as⟩

/-- Values that look like the end of a block, below a map and on the map itself. -/
theorem block_joins_and_stands_last_map :
    let as : List Annotation := [⟨"k", ")", 1⟩]
    let bs : List Annotation := [⟨"", "(", 2⟩, ⟨"k", ", ", 3⟩]
    let t : TypeExpr := .map (.reference ⟨"A", 1⟩) (.set (.bare .i32) as) as
    ((as ≠ [] ∧ bs ≠ []) ∧ (block (as ++ bs)).toList =
      (block as).toList.dropLast ++ ", ".toList ++ (block bs).toList.tail) ∧
    t.isReference = false ∧
      (t.withAnnotations bs).render = (t.withAnnotations []).render ++ (" " ++ block bs) := by
  intro as bs t
  obtain ⟨hjoin, htail, -⟩ := block_joins_and_stands_last
  have ha : as ≠ [] := List.cons_ne_nil _ _
  have hb : bs ≠ [] := List.cons_ne_nil _ _
  have ht : t.isReference = false := rfl
  exact ⟨⟨⟨ha, hb⟩, hjoin as bs ha hb⟩, ht, htail t bs ht⟩

end TypeExpr

end SchemaTypes
