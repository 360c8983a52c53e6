import SchemaTypes.Proofs.TypeExpr.Position
import SchemaTypes.TypeExpr.Visitor

/-! # The recursive walk and the loop agree

The loop over a stack is taken turn by turn. Whatever is pending below an entered site, the
loop reaches it after as many turns as the site weighs at most, and with the state that the
recursive walk of the site gives.
-/
namespace SchemaTypes

namespace Visitor
variable {σ : Type} (v : Visitor σ)

/-- One turn of the loop, if anything is pending. -/
def turn : List Task × σ → Option (List Task × σ)
  | ([], _) => none
  | (.leave site :: pending, s) => some (pending, v.leave site s)
  | (.enter site :: pending, s) =>
    let (wanted, s) := v.enter site s
    some ((if wanted then site.children.map .enter else []) ++ .leave site :: pending, s)

/-- So many turns lead from one configuration to the other. -/
inductive Turns : Nat → List Task × σ → List Task × σ → Prop
  | refl {a : List Task × σ} : Turns 0 a a
  | step {a b c : List Task × σ} {n : Nat} (h : v.turn a = some b) (hn : Turns n b c) :
      Turns (n + 1) a c

variable {v}

theorem Turns.trans {m n : Nat} {a b c : List Task × σ} (h : v.Turns m a b)
    (h' : v.Turns n b c) : v.Turns (m + n) a c := by
  induction h with
  | refl => rwa [Nat.zero_add]
  | step hb _ ih =>
    rw [Nat.add_right_comm]
    exact .step hb (ih h')

theorem runStack_turn {tasks tasks' : List Task} {s s' : σ}
    (h : v.turn (tasks, s) = some (tasks', s')) : v.runStack tasks s = v.runStack tasks' s' := by
  cases tasks with
  | nil => cases h
  | cons task pending =>
    cases task with
    | leave site =>
      cases h
      rw [runStack]
    | enter site =>
      cases h
      rw [runStack]

/-- Every turn keeps the state in which the loop will end. -/
theorem Turns.runStack_eq {n : Nat} {a b : List Task × σ} (h : v.Turns n a b) :
    v.runStack a.1 a.2 = v.runStack b.1 b.2 := by
  induction h with
  | refl => rfl
  | step hb _ ih => rw [runStack_turn hb, ih]

/-- The loop works off an entered site within its weight, whatever is pending below it. -/
def WalksOff (v : Visitor σ) (site : Site) : Prop :=
  ∀ (pending : List Task) (s : σ), ∃ n ≤ (Task.enter site).weight,
    v.Turns n (.enter site :: pending, s) (pending, v.walk site.path site.node s)

theorem walksOff_all {sites : List Site} (h : ∀ c ∈ sites, v.WalksOff c)
    (pending : List Task) (s : σ) :
    ∃ n ≤ Task.load (sites.map .enter),
      v.Turns n (sites.map .enter ++ pending, s)
        (pending, sites.foldl (fun s c => v.walk c.path c.node s) s) := by
  induction sites generalizing s with
  | nil => exact ⟨0, Nat.le_refl 0, .refl⟩
  | cons c sites ih =>
    obtain ⟨m, hm, hfirst⟩ := h c List.mem_cons_self (sites.map .enter ++ pending) s
    obtain ⟨n, hn, hrest⟩ := ih (fun d hd => h d (List.mem_cons_of_mem c hd))
      (v.walk c.path c.node s)
    refine ⟨m + n, ?_, hfirst.trans hrest⟩
    exact Nat.add_le_add hm hn

/-- Entering and leaving take a turn each; the children, if wanted, stand between them. -/
theorem walksOff_of_children {site : Site} (h : ∀ c ∈ site.children, v.WalksOff c) :
    v.WalksOff site := by
  intro pending s
  have hweight := Task.load_children site
  cases he : v.enter site s with
  | mk wanted entered =>
    have hfirst : v.turn (.enter site :: pending, s) =
        some ((if wanted then site.children.map .enter else []) ++ .leave site :: pending,
          entered) := by
      rw [turn, he]
    rw [walk_eq, around, he]
    cases wanted with
    | false =>
      refine ⟨2, ?_, .step hfirst (.step rfl .refl)⟩
      omega
    | true =>
      obtain ⟨n, hn, hchildren⟩ := walksOff_all h (.leave site :: pending) entered
      rw [← walkChildren_eq_foldl] at hchildren
      refine ⟨n + 1 + 1, ?_, .step hfirst (hchildren.trans (.step rfl .refl))⟩
      omega

theorem walksOff (v : Visitor σ) (path : Path) (t : TypeExpr) : v.WalksOff ⟨path, t⟩ :=
  Site.induction (fun _ h => walksOff_of_children h) ⟨path, t⟩

/-- The loop empties its stack, within two turns a node, in the state of the recursive walk. -/
theorem runStack_eq_run (v : Visitor σ) (t : TypeExpr) (s : σ) :
    v.runStack [.enter ⟨[], t⟩] s = v.run .root t s ∧
      ∃ n ≤ 2 * t.nodeCount, v.Turns n ([.enter ⟨[], t⟩], s) ([], v.run .root t s) := by
  obtain ⟨n, hn, hturns⟩ := v.walksOff [] t [] s
  refine ⟨?_, n, hn, hturns⟩
  have h := hturns.runStack_eq
  rwa [runStack] at h

end Visitor

end SchemaTypes
