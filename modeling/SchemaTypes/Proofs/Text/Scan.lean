import SchemaTypes.Proofs.Text.Quoted

/-! # Reading a text past its quotes

A text is read from left to right, and whether a character stands inside quotes is known from
what was read before it. A quoted string leaves the reader outside quotes, whatever it holds.
-/
namespace SchemaTypes.Text

theorem prefix_append_iff {p x y : List Char} :
    p <+: x ++ y ↔ p <+: x ∨ ∃ q, q <+: y ∧ x ++ q = p := by
  constructor
  · intro h
    rcases List.prefix_or_prefix_of_prefix h (List.prefix_append x y) with hp | ⟨q, rfl⟩
    · exact .inl hp
    · exact .inr ⟨q, (List.prefix_append_right_inj x).mp h, rfl⟩
  · rintro (hp | ⟨q, hq, rfl⟩)
    · exact List.prefix_append_of_prefix hp
    · exact (List.prefix_append_right_inj x).mpr hq

section Select
variable {σ : Type} {step : σ → Char → σ} {wanted : σ → Char → Bool}

/-- The wanted characters of a text, each judged in the state that the text before it leads to. -/
def select (step : σ → Char → σ) (wanted : σ → Char → Bool) : σ → List Char → List Char
  | _, [] => []
  | s, c :: text =>
    (if wanted s c then [c] else []) ++ select step wanted (step s c) text

theorem select_append (s : σ) (x y : List Char) :
    select step wanted s (x ++ y) =
      select step wanted s x ++ select step wanted (x.foldl step s) y := by
  induction x generalizing s with
  | nil => rfl
  | cons c x ih => rw [List.cons_append, select, select, ih, List.foldl_cons, List.append_assoc]

theorem select_eq_filter {s : σ} {x : List Char} (h : ∀ c ∈ x, step s c = s) :
    select step wanted s x = x.filter (wanted s) := by
  induction x with
  | nil => rfl
  | cons c x ih =>
    have hx : select step wanted s x = x.filter (wanted s) :=
      ih fun d hd => h d (List.mem_cons_of_mem c hd)
    rw [select, h c List.mem_cons_self, hx, List.filter_cons]
    split <;> rfl

theorem foldl_eq_self {s : σ} {x : List Char} (h : ∀ c ∈ x, step s c = s) :
    x.foldl step s = s := by
  induction x with
  | nil => rfl
  | cons c x ih =>
    rw [List.foldl_cons, h c List.mem_cons_self]
    exact ih fun d hd => h d (List.mem_cons_of_mem c hd)

/-- What is selected from the beginnings of a text are the beginnings of what is selected. -/
theorem prefix_select_iff {s : σ} {x q : List Char} :
    q <+: select step wanted s x ↔ ∃ p, p <+: x ∧ select step wanted s p = q := by
  constructor
  · intro h
    induction x generalizing s q with
    | nil => exact ⟨[], List.prefix_refl [], (List.prefix_nil.mp h).symm⟩
    | cons c x ih =>
      -- up to `c` only if nothing is selected, and otherwise beyond `c`
      rw [select] at h
      rcases q with _ | ⟨d, q⟩
      · exact ⟨[], List.nil_prefix, rfl⟩
      · split at h
        case isTrue hw =>
          obtain ⟨rfl, h⟩ := List.cons_prefix_cons.mp h
          obtain ⟨p, hp, hq⟩ := ih h
          exact ⟨d :: p, List.cons_prefix_cons.mpr ⟨rfl, hp⟩, by simp [select, hw, hq]⟩
        case isFalse hw =>
          obtain ⟨p, hp, hq⟩ := ih h
          exact ⟨c :: p, List.cons_prefix_cons.mpr ⟨rfl, hp⟩, by simp [select, hw, hq]⟩
  · rintro ⟨p, ⟨y, rfl⟩, rfl⟩
    rw [select_append]
    exact List.prefix_append _ _

end Select

/-- Where a reader stands: outside quotes, inside them, or behind a backslash inside them. -/
inductive Quoting
  | outside | inside | escaped
  deriving DecidableEq, Repr

def Quoting.read : Quoting → Char → Quoting
  | .outside, c => if c = '\x22' then .inside else .outside
  | .inside, c => if c = '\x22' then .outside else if c = '\\' then .escaped else .inside
  | .escaped, _ => .inside

/-- The text leaves no quoted section open. -/
def Closed (text : List Char) : Prop := text.foldl Quoting.read .outside = .outside

instance (text : List Char) : Decidable (Closed text) :=
  inferInstanceAs (Decidable (_ = _))

/-- A character outside quotes that does not open them. -/
def isShown (q : Quoting) (c : Char) : Bool := q == .outside && c != '\x22'

/-- The characters outside quoted sections. -/
def unquoted (text : List Char) : List Char := select Quoting.read isShown .outside text

theorem prefix_unquoted_iff {text q : List Char} :
    q <+: unquoted text ↔ ∃ p, p <+: text ∧ unquoted p = q := prefix_select_iff

theorem Closed.append {x y : List Char} (hx : Closed x) (hy : Closed y) : Closed (x ++ y) := by
  rw [Closed, List.foldl_append, hx, hy]

section Plain
variable {x : List Char}

theorem read_outside_of_not_mem (hx : '\x22' ∉ x) :
    ∀ c ∈ x, Quoting.read .outside c = .outside := by
  intro c hc
  have hne : c ≠ '\x22' := fun h => hx (h ▸ hc)
  exact if_neg hne

theorem closed_of_not_mem (hx : '\x22' ∉ x) : Closed x :=
  foldl_eq_self (read_outside_of_not_mem hx)

end Plain

section Inside
variable {wanted : Quoting → Char → Bool}

/-- Neither the end of the quotes nor the start of an escape is among the characters. -/
def Inert (x : List Char) : Prop := ∀ c ∈ x, c ≠ '\x22' ∧ c ≠ '\\'

theorem Inert.read {x : List Char} (hx : Inert x) : ∀ c ∈ x, Quoting.read .inside c = .inside := by
  intro c hc
  rw [Quoting.read, if_neg (hx c hc).1, if_neg (hx c hc).2]

theorem Inert.foldl_read {x : List Char} (hx : Inert x) : x.foldl Quoting.read .inside = .inside :=
  foldl_eq_self hx.read

theorem Inert.mono {x p : List Char} (hx : Inert x) (hp : p <+: x) : Inert p :=
  fun c hc => hx c (hp.subset hc)

theorem inert_singleton {c : Char} (hs : c ∉ shortEscapes.map Prod.fst) : Inert [c] := by
  intro d hd
  rw [List.mem_singleton.mp hd]
  exact (verbatim_ne hs).symm

theorem inert_hex (n : Nat) : Inert ('\x7b' :: (Nat.toDigits 16 n ++ ['\x7d'])) := by
  intro c hc
  rcases List.mem_cons.mp hc with rfl | hc
  · decide
  · rcases List.mem_append.mp hc with hc | hc
    · obtain ⟨k, hk, rfl⟩ := exists_digit_of_mem_toDigits (by decide) hc
      have hall : ∀ k < 16, Nat.digitChar k ≠ '\x22' ∧ Nat.digitChar k ≠ '\\' := by decide
      exact hall k hk
    · rw [List.mem_singleton.mp hc]
      decide

/-- The escaped form of a character leads back inside the quotes, where it started. -/
theorem Escaped.foldl_read {c : Char} {e : List Char} (h : Escaped c e) :
    e.foldl Quoting.read .inside = .inside := by
  cases h with
  | short h => rfl
  | hex h =>
    -- the backslash and the `u` behind it lead back inside
    exact (inert_hex c.toNat).foldl_read
  | verbatim hs hv => exact (inert_singleton hs).foldl_read

theorem select_backslash (hw : wanted .escaped = wanted .inside) (d : Char) {x : List Char}
    (hx : Inert x) : select Quoting.read wanted .inside ('\\' :: d :: x) =
      ('\\' :: d :: x).filter (wanted .inside) := by
  have hrest : select Quoting.read wanted .inside x = x.filter (wanted .inside) :=
    select_eq_filter hx.read
  change (if wanted .inside '\\' then ['\\'] else []) ++ ((if wanted .escaped d then [d] else []) ++
    select Quoting.read wanted .inside x) = _
  rw [hw, hrest, List.filter_cons, List.filter_cons]
  split <;> split <;> rfl

/-- Whether a backslash came just before makes no difference to what is wanted. -/
theorem Escaped.select_read {c : Char} {e : List Char} (h : Escaped c e)
    (hw : wanted .escaped = wanted .inside) :
    select Quoting.read wanted .inside e = e.filter (wanted .inside) := by
  cases h with
  | @short letter h => exact select_backslash hw letter fun _ h => nomatch h
  | hex h => exact select_backslash hw 'u' (inert_hex c.toNat)
  | verbatim hs hv => exact select_eq_filter (inert_singleton hs).read

theorem foldl_read_escaped (v : List Char) :
    (v.flatMap escapeChar).foldl Quoting.read .inside = .inside := by
  induction v with
  | nil => rfl
  | cons c v ih =>
    rw [List.flatMap_cons, List.foldl_append, (escaped_escapeChar c).foldl_read, ih]

theorem select_read_escaped (hw : wanted .escaped = wanted .inside) (v : List Char) :
    select Quoting.read wanted .inside (v.flatMap escapeChar) =
      (v.flatMap escapeChar).filter (wanted .inside) := by
  induction v with
  | nil => rfl
  | cons c v ih =>
    have hc := escaped_escapeChar c
    rw [List.flatMap_cons, select_append, hc.foldl_read, hc.select_read hw, ih,
      List.filter_append]

theorem closed_quote (s : String) : Closed (quote s).toList := by
  rw [Closed, toList_quote, List.foldl_cons, List.foldl_append]
  change Quoting.read (List.foldl Quoting.read .inside _) '\x22' = _
  rw [foldl_read_escaped]
  rfl

theorem foldl_read_backslash_ne_outside {d : Char} {x p : List Char} (hx : Inert x)
    (hp : p <+: '\\' :: d :: x) : p.foldl Quoting.read .inside ≠ .outside := by
  rcases List.prefix_cons_iff.mp hp with rfl | ⟨q, rfl, hq⟩
  · decide
  · rcases List.prefix_cons_iff.mp hq with rfl | ⟨r, rfl, hr⟩
    · decide
    · change r.foldl Quoting.read .inside ≠ .outside
      rw [(hx.mono hr).foldl_read]
      decide

theorem Escaped.foldl_read_ne_outside {c : Char} {e p : List Char} (h : Escaped c e)
    (hp : p <+: e) : p.foldl Quoting.read .inside ≠ .outside := by
  cases h with
  | short h => exact foldl_read_backslash_ne_outside (x := []) (fun _ h => nomatch h) hp
  | hex h => exact foldl_read_backslash_ne_outside (inert_hex c.toNat) hp
  | verbatim hs hv =>
    rw [((inert_singleton hs).mono hp).foldl_read]
    decide

/-- Wherever an escaped string is broken off, the quotes around it are still open. -/
theorem foldl_read_escaped_ne_outside {v p : List Char} (hp : p <+: v.flatMap escapeChar) :
    p.foldl Quoting.read .inside ≠ .outside := by
  induction v generalizing p with
  | nil =>
    rw [List.prefix_nil.mp hp]
    decide
  | cons c v ih =>
    have hc := escaped_escapeChar c
    rw [List.flatMap_cons] at hp
    rcases prefix_append_iff.mp hp with hp | ⟨q, hq, rfl⟩
    · exact hc.foldl_read_ne_outside hp
    · rw [List.foldl_append, hc.foldl_read]
      exact ih hq

/-- The quotes of a string end where its text ends, and nowhere before. -/
theorem closed_prefix_quote_iff {s : String} {p : List Char} (hp : p <+: (quote s).toList)
    (hne : p ≠ []) : Closed p ↔ p = (quote s).toList := by
  constructor
  · intro h
    rw [toList_quote] at hp
    rcases List.prefix_cons_iff.mp hp with rfl | ⟨q, rfl, hq⟩
    · exact absurd rfl hne
    · rcases List.prefix_concat_iff.mp hq with rfl | hq
      · exact (toList_quote s).symm
      · exact absurd h (foldl_read_escaped_ne_outside hq)
  · rintro rfl
    exact closed_quote s

theorem select_quote (hw : wanted .escaped = wanted .inside) (s : String) :
    select Quoting.read wanted .outside (quote s).toList =
      ['\x22'].filter (wanted .outside) ++
        (s.toList.flatMap escapeChar ++ ['\x22']).filter (wanted .inside) := by
  have hone (q : Quoting) : ['\x22'].filter (wanted q) =
      if wanted q '\x22' then ['\x22'] else [] := List.filter_cons
  rw [toList_quote, select, select_append, List.filter_append, hone, hone]
  change _ ++ (select Quoting.read wanted .inside _ ++
    select Quoting.read wanted (List.foldl Quoting.read .inside _) _) = _
  rw [foldl_read_escaped, select_read_escaped hw, select, select, List.append_nil]

end Inside

/-- The text closes its quotes, and the rest is what is wanted of it. -/
structure Keeps (wanted : Quoting → Char → Bool) (text kept : List Char) : Prop where
  closed : Closed text
  select_eq : select Quoting.read wanted .outside text = kept

section Keeps
variable {wanted : Quoting → Char → Bool}

theorem Keeps.append {x y u v : List Char} (hx : Keeps wanted x u) (hy : Keeps wanted y v) :
    Keeps wanted (x ++ y) (u ++ v) := by
  refine ⟨hx.closed.append hy.closed, ?_⟩
  rw [select_append, hx.closed, hx.select_eq, hy.select_eq]

theorem keeps_of_not_mem {x : List Char} (hx : '\x22' ∉ x) :
    Keeps wanted x (x.filter (wanted .outside)) :=
  ⟨closed_of_not_mem hx, select_eq_filter (read_outside_of_not_mem hx)⟩

theorem keeps_quote (hw : wanted .escaped = wanted .inside) (s : String) :
    Keeps wanted (quote s).toList (['\x22'].filter (wanted .outside) ++
      (s.toList.flatMap escapeChar ++ ['\x22']).filter (wanted .inside)) :=
  ⟨closed_quote s, select_quote hw s⟩

end Keeps

/-- Outside its quotes, which it closes, the text reads as shown. -/
abbrev Shows (text shown : List Char) : Prop := Keeps isShown text shown

theorem Shows.unquoted_eq {text shown : List Char} (h : Shows text shown) :
    unquoted text = shown := h.select_eq

theorem shows_of_not_mem {x : List Char} (hx : '\x22' ∉ x) : Shows x x := by
  have hall : x.filter (isShown .outside) = x := by
    rw [List.filter_eq_self]
    intro c hc
    have hne : c ≠ '\x22' := fun h => hx (h ▸ hc)
    simpa [isShown] using hne
  have h : Shows x (x.filter (isShown .outside)) := keeps_of_not_mem hx
  rwa [hall] at h

theorem shows_quote (s : String) : Shows (quote s).toList [] := by
  have hinside (x : List Char) : x.filter (isShown .inside) = [] :=
    List.filter_eq_nil_iff.mpr fun _ _ => Bool.false_ne_true
  have h : Shows (quote s).toList _ := keeps_quote rfl s
  rwa [hinside] at h

end SchemaTypes.Text
