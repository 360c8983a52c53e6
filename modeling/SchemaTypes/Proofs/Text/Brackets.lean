import SchemaTypes.Proofs.Text.Scan

/-! # Brackets and levels

A pair of brackets gives every place of a text a level: how many brackets were opened before it
and not yet closed. Nested texts never close a bracket that is not open and close all they open.
-/
namespace SchemaTypes.Text

structure Brackets where
  opening : Char
  closing : Char
  opening_ne_closing : opening ≠ closing := by decide

namespace Brackets

def angles : Brackets where
  opening := '<'
  closing := '>'

def parens : Brackets where
  opening := '('
  closing := ')'

variable (b : Brackets)

/-- The level behind the character. -/
def climb (level : Int) (c : Char) : Int :=
  if c = b.opening then level + 1 else if c = b.closing then level - 1 else level

/-- The level at the end of the text. -/
def level (text : List Char) : Int := text.foldl b.climb 0

/-- The characters of the text that have level 0 before them. -/
def outer (text : List Char) : List Char := select b.climb (fun level _ => level == 0) 0 text

variable {b} {x y : List Char} {m n : Int}

theorem foldl_climb (l : Int) (x : List Char) : x.foldl b.climb l = l + b.level x := by
  induction x generalizing l with
  | nil => exact (Int.add_zero l).symm
  | cons c x ih =>
    have hc : b.climb l c = l + b.climb 0 c := by
      simp only [climb]
      split
      · rw [Int.zero_add]
      · split <;> omega
    rw [level, List.foldl_cons, List.foldl_cons, ih, ih (b.climb 0 c), hc, Int.add_assoc]

theorem level_append (x y : List Char) : b.level (x ++ y) = b.level x + b.level y := by
  rw [level, List.foldl_append, foldl_climb]
  rfl

theorem level_opening : b.level [b.opening] = 1 := if_pos rfl

theorem level_closing : b.level [b.closing] = -1 := by
  rw [level, List.foldl_cons, climb, if_neg b.opening_ne_closing.symm, if_pos rfl]
  rfl

/-- Neither of the brackets is among the characters. -/
def Free (b : Brackets) (x : List Char) : Prop := ∀ c ∈ x, c ≠ b.opening ∧ c ≠ b.closing

instance (b : Brackets) (x : List Char) : Decidable (b.Free x) :=
  List.decidableBAll (fun c => c ≠ b.opening ∧ c ≠ b.closing) x

theorem Free.append (hx : b.Free x) (hy : b.Free y) : b.Free (x ++ y) := by
  intro c hc
  exact (List.mem_append.mp hc).elim (hx c) (hy c)

theorem Free.climb (hx : b.Free x) (l : Int) : ∀ c ∈ x, b.climb l c = l := by
  intro c hc
  rw [Brackets.climb, if_neg (hx c hc).1, if_neg (hx c hc).2]

theorem Free.level (hx : b.Free x) : b.level x = 0 := foldl_eq_self (hx.climb 0)

/-- All brackets of the text pair up, and as many as the peak are open at most. -/
structure Nested (b : Brackets) (peak : Int) (text : List Char) : Prop where
  settled : b.level text = 0
  nonneg : ∀ p, p <+: text → 0 ≤ b.level p
  le_peak : ∀ p, p <+: text → b.level p ≤ peak
  reached : ∃ p, p <+: text ∧ b.level p = peak

theorem Nested.peak_nonneg (hx : b.Nested n x) : 0 ≤ n := by
  obtain ⟨p, hp, rfl⟩ := hx.reached
  exact hx.nonneg p hp

theorem Free.nested (hx : b.Free x) : b.Nested 0 x := by
  have hpart (p : List Char) (hp : p <+: x) : b.level p = 0 :=
    Free.level fun c hc => hx c (hp.subset hc)
  exact ⟨hx.level, fun p hp => Int.le_of_eq (hpart p hp).symm,
    fun p hp => Int.le_of_eq (hpart p hp), [], List.nil_prefix, rfl⟩

theorem Nested.append (hx : b.Nested m x) (hy : b.Nested n y) : b.Nested (max m n) (x ++ y) := by
  have hlevel (q : List Char) : b.level (x ++ q) = b.level q := by
    rw [level_append, hx.settled, Int.zero_add]
  refine ⟨by rw [hlevel, hy.settled], ?_, ?_, ?_⟩
  · intro p hp
    rcases prefix_append_iff.mp hp with hp | ⟨q, hq, rfl⟩
    · exact hx.nonneg p hp
    · rw [hlevel]
      exact hy.nonneg q hq
  · intro p hp
    rcases prefix_append_iff.mp hp with hp | ⟨q, hq, rfl⟩
    · have := hx.le_peak p hp
      omega
    · have := hy.le_peak q hq
      rw [hlevel]
      omega
  · obtain ⟨p, hp, hm⟩ := hx.reached
    obtain ⟨q, hq, hn⟩ := hy.reached
    rcases Int.le_total m n with hmn | hmn
    · refine ⟨x ++ q, prefix_append_iff.mpr (.inr ⟨q, hq, rfl⟩), ?_⟩
      rw [hlevel, hn]
      omega
    · refine ⟨p, prefix_append_iff.mpr (.inl hp), ?_⟩
      rw [hm]
      omega

theorem Nested.enclose (hx : b.Nested n x) :
    b.Nested (n + 1) (b.opening :: (x ++ [b.closing])) := by
  have hlevel (q : List Char) : b.level (b.opening :: q) = b.level q + 1 := by
    rw [← List.singleton_append, level_append, level_opening, Int.add_comm]
  have hwhole : b.level (x ++ [b.closing]) = -1 := by
    rw [level_append, hx.settled, level_closing]
    rfl
  have hcases (p : List Char) (hp : p <+: b.opening :: (x ++ [b.closing])) :
      p = [] ∨ (∃ q, q <+: x ∧ p = b.opening :: q) ∨ p = b.opening :: (x ++ [b.closing]) := by
    rcases List.prefix_cons_iff.mp hp with rfl | ⟨q, rfl, hq⟩
    · exact .inl rfl
    · rcases List.prefix_concat_iff.mp hq with rfl | hq
      · exact .inr (.inr rfl)
      · exact .inr (.inl ⟨q, hq, rfl⟩)
  obtain ⟨top, htop, hn⟩ := hx.reached
  have hpeak := hx.peak_nonneg
  refine ⟨by rw [hlevel, hwhole]; rfl, ?_, ?_, ?_⟩
  · intro p hp
    rcases hcases p hp with rfl | ⟨q, hq, rfl⟩ | rfl
    · exact Int.le_refl 0
    · have := hx.nonneg q hq
      rw [hlevel]
      omega
    · rw [hlevel, hwhole]
      decide
  · intro p hp
    rcases hcases p hp with rfl | ⟨q, hq, rfl⟩ | rfl
    · change 0 ≤ n + 1
      omega
    · have := hx.le_peak q hq
      rw [hlevel]
      omega
    · rw [hlevel, hwhole]
      omega
  · have hprefix : top <+: x ++ [b.closing] := List.prefix_append_of_prefix htop
    refine ⟨b.opening :: top, List.cons_prefix_cons.mpr ⟨rfl, hprefix⟩, ?_⟩
    rw [hlevel, hn]

/-- Quotes are skipped: the levels of a text are those of what it shows. -/
theorem Nested.level_unquoted (h : b.Nested m (unquoted x)) {p : List Char} (hp : p <+: x) :
    0 ≤ b.level (unquoted p) ∧ b.level (unquoted p) ≤ m :=
  have hshown := prefix_unquoted_iff.mpr ⟨p, hp, rfl⟩
  ⟨h.nonneg _ hshown, h.le_peak _ hshown⟩

theorem outer_append (hx : b.level x = 0) (y : List Char) :
    b.outer (x ++ y) = b.outer x ++ b.outer y := by
  rw [outer, select_append]
  change _ ++ select _ _ (b.level x) y = _
  rw [hx]
  rfl

theorem Free.outer (hx : b.Free x) : b.outer x = x := by
  rw [Brackets.outer, select_eq_filter (hx.climb 0), List.filter_eq_self]
  intro c _
  rfl

/-- What stands between brackets is not seen from outside, nor is the closing bracket. -/
theorem Free.outer_enclose (hx : b.Free x) :
    b.outer (b.opening :: (x ++ [b.closing])) = [b.opening] := by
  have hone : b.climb 0 b.opening = 1 := if_pos rfl
  have hinner : select b.climb (fun level _ => level == 0) 1 x = [] := by
    rw [select_eq_filter (hx.climb 1), List.filter_eq_nil_iff]
    intro c _
    decide
  rw [Brackets.outer, select, hone, select_append, hinner, foldl_eq_self (hx.climb 1)]
  rfl

end Brackets

end SchemaTypes.Text
