import SchemaTypes.Text.Formatter

/-! # Scripts against sinks and options

A bounded sink cannot tell a script from its text offered in one piece. A watched sink shows
that a script makes no offer after one that was refused. Options reach a sink only through a
fragment that is fitted to them. A script without such a fragment, unless under plain options of
its own, is the same script for every caller, and only such a script is: some width shows in any
other.
-/
namespace SchemaTypes.Text

namespace Bounded
variable {b : Bounded} {s t : String}

theorem offer_of_le (h : s.length ≤ b.room) :
    Sink.offer b s = (true, ⟨b.room - s.length, b.taken ++ s⟩) := if_pos h

theorem offer_of_lt (h : b.room < s.length) :
    Sink.offer b s = (false, ⟨0, b.taken ++ String.ofList (s.toList.take b.room)⟩) :=
  if_neg (Nat.not_le.mpr h)

theorem accepted_iff (b : Bounded) (s : String) :
    (Sink.offer b s).1 = true ↔ s.length ≤ b.room := by
  by_cases h : s.length ≤ b.room
  · simp only [offer_of_le h, h]
  · simp only [offer_of_lt (Nat.not_le.mp h), h, Bool.false_eq_true]

/-- Accepted or not, what is taken is what there is room for. -/
theorem toList_taken (b : Bounded) (s : String) :
    (Sink.offer b s).2.taken.toList = b.taken.toList ++ s.toList.take b.room := by
  by_cases h : s.length ≤ b.room
  · rw [offer_of_le h, String.toList_append,
      List.take_of_length_le (by rwa [String.length_toList])]
  · rw [offer_of_lt (Nat.not_le.mp h), String.toList_append, String.toList_ofList]

theorem offer_empty (b : Bounded) : Sink.offer b "" = (true, b) := by
  rw [offer_of_le (s := "") (Nat.zero_le b.room), String.append_empty]
  rfl

/-- What comes second is cut to the room that the first leaves, and is lost if it leaves none. -/
theorem offer_append (b : Bounded) (s t : String) :
    Sink.offer b (s ++ t) =
      if (Sink.offer b s).1 then Sink.offer (Sink.offer b s).2 t else Sink.offer b s := by
  by_cases hs : s.length ≤ b.room
  · rw [offer_of_le hs]
    by_cases ht : t.length ≤ b.room - s.length
    · have hst : (s ++ t).length ≤ b.room := by
        rw [String.length_append]
        omega
      rw [offer_of_le hst, if_pos rfl, offer_of_le ht, String.length_append, Nat.sub_sub,
        String.append_assoc]
    · have hst : b.room < (s ++ t).length := by
        rw [String.length_append]
        omega
      have htake : (s ++ t).toList.take b.room =
          s.toList ++ t.toList.take (b.room - s.length) := by
        rw [String.toList_append, List.take_append, String.length_toList,
          List.take_of_length_le (by rwa [String.length_toList])]
      rw [offer_of_lt hst, htake, String.ofList_append, String.ofList_toList, if_pos rfl,
        offer_of_lt (Nat.not_le.mp ht), String.append_assoc]
  · have hst : b.room < (s ++ t).length := by
      rw [String.length_append]
      omega
    have htake : (s ++ t).toList.take b.room = s.toList.take b.room := by
      rw [String.toList_append, List.take_append_of_le_length]
      rw [String.length_toList]
      omega
    rw [offer_of_lt hst, offer_of_lt (Nat.not_le.mp hs), htake, if_neg Bool.false_ne_true]

end Bounded

namespace Watched
variable {σ : Type} [Sink σ]

theorem run_put (fragment : String) (o : FormatOptions) (w : Watched σ) :
    ((Formatter.put fragment).run o w).1 = ((Formatter.put fragment).run o w.sink).1 ∧
      ((Formatter.put fragment).run o w).2.sink = ((Formatter.put fragment).run o w.sink).2 := by
  rw [Formatter.run_put, Formatter.run_put, offer_watched]
  rcases Sink.offer w.sink fragment with ⟨_ | _, after⟩
  · exact ⟨rfl, rfl⟩
  · exact ⟨rfl, rfl⟩

/-- The outcome tells whether all offers were accepted, and none follows a refused one. -/
def Orderly (outcome : Except Refusal Unit × Watched σ) : Prop :=
  outcome.1.isOk = outcome.2.offers.all (·.2) ∧ ∀ offer ∈ outcome.2.offers.tail, offer.2 = true

theorem orderly_put {w : Watched σ} (h : ∀ offer ∈ w.offers, offer.2 = true)
    (fragment : String) (o : FormatOptions) : Orderly ((Formatter.put fragment).run o w) := by
  have hall : w.offers.all (·.2) = true := List.all_eq_true.mpr h
  rw [Formatter.run_put, offer_watched]
  rcases Sink.offer w.sink fragment with ⟨_ | _, after⟩
  · exact ⟨rfl, h⟩
  · exact ⟨hall.symm, h⟩

end Watched

namespace Script
variable {σ : Type} [Sink σ]

theorem run_bounded (o : FormatOptions) (w : Script) (b : Bounded) :
    w.write.run o b = (Formatter.put (w.text o)).run o b := by
  induction w generalizing o b with
  | nothing =>
    rw [text_nothing, write, Formatter.run_pure, Formatter.run_put, Bounded.offer_empty]
  | put fragment => rw [text_put, write]
  | pad fragment => rw [text_pad, write, Formatter.run_pad]
  | plainly body ih => exact ih .plain b
  | append first second ihf ihs =>
    have ht : (append first second).text o = first.text o ++ second.text o :=
      text_append o first second
    rw [write, Formatter.run_bind, ihf, ht]
    simp only [Formatter.run_put, ihs, Bounded.offer_append]
    rcases Sink.offer b (first.text o) with ⟨accepted, after⟩
    cases accepted with
    | true => simp only [if_true]
    | false => simp only [Bool.false_eq_true, if_false]

/-- Watching a sink changes neither the outcome nor what the sink takes. -/
theorem run_watched (o : FormatOptions) (w : Script) (sink : Watched σ) :
    (w.write.run o sink).1 = (w.write.run o sink.sink).1 ∧
      (w.write.run o sink).2.sink = (w.write.run o sink.sink).2 := by
  induction w generalizing o sink with
  | nothing => exact ⟨rfl, rfl⟩
  | put fragment => exact Watched.run_put fragment o sink
  | pad fragment => exact Watched.run_put (o.fit fragment) o sink
  | plainly body ih => exact ih .plain sink
  | append first second ihf ihs =>
    obtain ⟨hf, hsink⟩ := ihf o sink
    simp only [write, Formatter.run_bind]
    rcases hw : first.write.run o sink with ⟨result, after⟩
    rcases hs : first.write.run o sink.sink with ⟨result', after'⟩
    rw [hw, hs] at hf hsink
    cases hf
    cases hsink
    cases result with
    | ok _ => exact ihs o after
    | error e => exact ⟨rfl, rfl⟩

theorem orderly_run (o : FormatOptions) (w : Script) {sink : Watched σ}
    (h : ∀ offer ∈ sink.offers, offer.2 = true) : Watched.Orderly (w.write.run o sink) := by
  induction w generalizing o sink with
  | nothing => exact ⟨(List.all_eq_true.mpr h).symm, fun x hx => h x (List.mem_of_mem_tail hx)⟩
  | put fragment => exact Watched.orderly_put h fragment o
  | pad fragment => exact Watched.orderly_put h (o.fit fragment) o
  | plainly body ih => exact ih .plain h
  | append first second ihf ihs =>
    have hfirst := ihf o h
    rw [write, Formatter.run_bind]
    rcases hw : first.write.run o sink with ⟨result, after⟩
    rw [hw] at hfirst
    cases result with
    | ok _ => exact ihs o (List.all_eq_true.mp hfirst.1.symm)
    | error e => exact hfirst

end Script

/-! ## Options that make no difference -/

namespace FormatOptions

/-- The precision cuts first, and then the width is a lower bound. -/
theorem length_fit (o : FormatOptions) (fragment : String) :
    (o.fit fragment).length = max o.width (min (o.precision.getD fragment.length)
      fragment.length) := by
  simp only [fit, String.length_ofList, List.length_append, List.length_replicate,
    List.length_take, String.length_toList]
  split <;> omega

/-- Nothing is asked for but a width. -/
def wide (width : Nat) : FormatOptions := { width }

theorem length_fit_wide (n : Nat) (fragment : String) :
    ((wide n).fit fragment).length = max n fragment.length := by
  rw [length_fit]
  exact congrArg (max n) (Nat.min_self fragment.length)

end FormatOptions

namespace Script
open FormatOptions

/-- Whatever the options, every sink is offered the same and ends in the same state. -/
def IgnoresOptions (w : Script) : Prop :=
  ∀ (σ : Type) [Sink σ] (o : FormatOptions) (sink : σ),
    w.write.run o sink = w.write.run .plain sink

/-- No fragment is fitted to the options that the script starts under. -/
def Settled : Script → Prop
  | .nothing | .put _ | .plainly _ => True
  | .pad _ => False
  | .append first second => first.Settled ∧ second.Settled

@[simp] theorem settled_nothing : nothing.Settled := trivial
@[simp] theorem settled_put (fragment : String) : (put fragment).Settled := trivial
@[simp] theorem settled_plainly (body : Script) : (plainly body).Settled := trivial
@[simp] theorem not_settled_pad (fragment : String) : ¬ (pad fragment).Settled := id
@[simp] theorem settled_append {v w : Script} : (v ++ w).Settled ↔ v.Settled ∧ w.Settled := Iff.rfl

theorem settled_concat {ws : List Script} (h : ∀ w ∈ ws, w.Settled) : (concat ws).Settled := by
  induction ws with
  | nil => exact settled_nothing
  | cons w ws ih =>
    have hw : w.Settled := h w List.mem_cons_self
    exact settled_append.mpr ⟨hw, ih fun v hv => h v (List.mem_cons_of_mem w hv)⟩

theorem settled_separated {separator : Script} (hs : separator.Settled) {ws : List Script}
    (h : ∀ w ∈ ws, w.Settled) : (separated separator ws).Settled := by
  cases ws with
  | nil => exact settled_nothing
  | cons w ws =>
    refine settled_append.mpr ⟨h w List.mem_cons_self, settled_concat fun u hu => ?_⟩
    obtain ⟨v, hv, rfl⟩ := List.mem_map.mp hu
    exact settled_append.mpr ⟨hs, h v (List.mem_cons_of_mem w hv)⟩

@[simp] theorem settled_quoted (s : String) : (quoted s).Settled := by
  have hbody : (concat (s.toList.map fun c => put (String.ofList (escapeChar c)))).Settled := by
    apply settled_concat
    intro w hw
    obtain ⟨c, -, rfl⟩ := List.mem_map.mp hw
    exact settled_put _
  simp only [quoted, settled_append, settled_put, hbody, and_self]

theorem Settled.ignoresOptions {w : Script} (h : w.Settled) : w.IgnoresOptions := by
  intro σ _ o sink
  induction w generalizing sink with
  | nothing => rfl
  | put fragment => rfl
  | pad fragment => exact absurd h (not_settled_pad fragment)
  | plainly body => rfl
  | append first second ihf ihs =>
    rw [write, Formatter.run_bind, Formatter.run_bind, ihf h.1]
    split
    · exact ihs h.2 _
    · rfl

theorem IgnoresOptions.text_eq {w : Script} (h : w.IgnoresOptions) (o : FormatOptions) :
    w.text o = w.text .plain := congrArg Prod.snd (h String o "")

theorem length_text_append (o : FormatOptions) (v w : Script) :
    ((append v w).text o).length = (v.text o).length + (w.text o).length := by
  rw [← String.length_append, ← text_append]
  rfl

theorem le_length_text_wide {w : Script} (h : ¬ w.Settled) (n : Nat) :
    n ≤ (w.text (wide n)).length := by
  induction w with
  | nothing => exact absurd trivial h
  | put fragment => exact absurd trivial h
  | plainly body => exact absurd trivial h
  | pad fragment =>
    rw [text_pad, length_fit_wide]
    exact Nat.le_max_left n fragment.length
  | append first second ihf ihs =>
    rw [length_text_append]
    by_cases hf : first.Settled
    · have hs : ¬ second.Settled := fun hs => h ⟨hf, hs⟩
      exact Nat.le_add_left_of_le (ihs hs)
    · exact Nat.le_add_right_of_le (ihf hf)

theorem ignoresOptions_iff_settled {w : Script} : w.IgnoresOptions ↔ w.Settled := by
  refine ⟨fun h => Classical.byContradiction fun hw => ?_, Settled.ignoresOptions⟩
  -- a width beyond the plain text would show
  have hwide := le_length_text_wide hw ((w.text .plain).length + 1)
  rw [h.text_eq (wide _)] at hwide
  omega

end Script

end SchemaTypes.Text
