import SchemaTypes.Text.Quoted

/-! # Quoted text is self-delimiting

A quoted string at the head of a text determines both the string and what follows it. The
escapes of single characters have the same property, so nothing in a string ends its quotes.
-/
namespace SchemaTypes.Text

section Words
variable {p : Char → Bool} {v w s t : List Char}

/-- A text that is empty or starts with a character outside the class. -/
def StopsAt (p : Char → Bool) (s : List Char) : Prop := ∀ c ∈ s.head?, p c = false

@[simp] theorem stopsAt_nil : StopsAt p [] := fun _ h => nomatch h
@[simp] theorem stopsAt_cons {c : Char} : StopsAt p (c :: s) ↔ p c = false := by
  simp [StopsAt]

theorem takeWhile_word (hw : ∀ c ∈ w, p c = true) (hs : StopsAt p s) :
    (w ++ s).takeWhile p = w := by
  rw [List.takeWhile_append_of_pos hw]
  cases s with
  | nil => simp
  | cons c s => simp [stopsAt_cons.mp hs]

theorem dropWhile_word (hw : ∀ c ∈ w, p c = true) (hs : StopsAt p s) :
    (w ++ s).dropWhile p = s := by
  rw [List.dropWhile_append_of_pos hw]
  cases s with
  | nil => rfl
  | cons c s => simp [stopsAt_cons.mp hs]

theorem word_append_inj (hv : ∀ c ∈ v, p c = true) (hw : ∀ c ∈ w, p c = true)
    (hs : StopsAt p s) (ht : StopsAt p t) (h : v ++ s = w ++ t) : v = w ∧ s = t := by
  constructor
  · rw [← takeWhile_word hv hs, h, takeWhile_word hw ht]
  · rw [← dropWhile_word hv hs, h, dropWhile_word hw ht]

end Words

section Digits
variable {b : Nat}

theorem digitChar_inj (hb : b ≤ 16) {m n : Nat} (hm : m < b) (hn : n < b)
    (h : m.digitChar = n.digitChar) : m = n := by
  have hall : ∀ m < 16, ∀ n < 16, Nat.digitChar m = Nat.digitChar n → m = n := by decide
  exact hall m (by omega) n (by omega) h

theorem exists_digit_of_mem_toDigits (hb : 1 < b) {n : Nat} {c : Char}
    (h : c ∈ Nat.toDigits b n) : ∃ k < b, c = k.digitChar := by
  induction n using Nat.strongRecOn with
  | _ n ih =>
    rw [Nat.toDigits_eq_if hb] at h
    split at h
    case isTrue hn => exact ⟨n, hn, List.mem_singleton.mp h⟩
    case isFalse hn =>
      rcases List.mem_append.mp h with h | h
      · exact ih (n / b) (Nat.div_lt_self (by omega) hb) h
      · exact ⟨n % b, Nat.mod_lt n (by omega), List.mem_singleton.mp h⟩

theorem toDigits_append_ne_singleton {n : Nat} {c d : Char} : Nat.toDigits b n ++ [c] ≠ [d] := by
  intro h
  rw [← List.nil_append [d]] at h
  have hnil : Nat.toDigits b n = [] := (List.append_inj' h rfl).1
  exact Nat.toDigits_ne_nil hnil

theorem toDigits_inj (hb : 1 < b) (hb' : b ≤ 16) {m n : Nat}
    (h : Nat.toDigits b m = Nat.toDigits b n) : m = n := by
  induction m using Nat.strongRecOn generalizing n with
  | _ m ih =>
    rw [Nat.toDigits_eq_if hb, Nat.toDigits_eq_if hb (n := n)] at h
    split at h <;> split at h
    case isTrue.isTrue hm hn => exact digitChar_inj hb' hm hn (List.singleton_inj.mp h)
    case isTrue.isFalse => exact absurd h.symm toDigits_append_ne_singleton
    case isFalse.isTrue => exact absurd h toDigits_append_ne_singleton
    case isFalse.isFalse hm hn =>
      -- the last digit is the remainder, and those before it are the quotient's
      obtain ⟨hq, hr⟩ := List.append_inj' h rfl
      have hquot : m / b = n / b := ih (m / b) (Nat.div_lt_self (by omega) hb) hq
      have hrem : m % b = n % b := digitChar_inj hb' (Nat.mod_lt m (by omega))
        (Nat.mod_lt n (by omega)) (List.singleton_inj.mp hr)
      rw [← Nat.div_add_mod m b, ← Nat.div_add_mod n b, hquot, hrem]

end Digits

/-- The characters with an escape of one letter, and that letter. -/
def shortEscapes : List (Char × Char) :=
  [('\x00', '0'), ('\t', 't'), ('\n', 'n'), ('\r', 'r'), ('\x22', '\x22'), ('\\', '\\')]

/-- The three forms that a character takes between quotes. -/
inductive Escaped : Char → List Char → Prop
  | short {c letter : Char} (h : (c, letter) ∈ shortEscapes) : Escaped c ['\\', letter]
  | hex {c : Char} (h : isHidden c = true) :
      Escaped c ('\\' :: 'u' :: '\x7b' :: (Nat.toDigits 16 c.toNat ++ ['\x7d']))
  | verbatim {c : Char} (hs : c ∉ shortEscapes.map Prod.fst) (hv : isHidden c = false) :
      Escaped c [c]

theorem escaped_escapeChar (c : Char) : Escaped c (escapeChar c) := by
  unfold escapeChar
  split
  case h_7 h0 ht hn hr hq hb =>
    split
    case isTrue hh => exact .hex hh
    case isFalse hh =>
      have hs : c ∉ shortEscapes.map Prod.fst := by
        simpa [shortEscapes] using And.intro h0 ⟨ht, hn, hr, hq, hb⟩
      exact .verbatim hs (by simpa using hh)
  all_goals exact .short (by decide)

theorem verbatim_ne {c : Char} (hs : c ∉ shortEscapes.map Prod.fst) :
    c ≠ '\\' ∧ c ≠ '\x22' := by
  constructor
  · rintro rfl
    exact hs (by decide)
  · rintro rfl
    exact hs (by decide)

/-- A quote inside a string never stands first in its escaped form. -/
theorem Escaped.append_ne_quote {c : Char} {e s t : List Char} (h : Escaped c e) :
    e ++ s ≠ '\x22' :: t := by
  intro he
  cases h with
  | short h => exact absurd (List.cons.inj he).1 (by decide)
  | hex h => exact absurd (List.cons.inj he).1 (by decide)
  | verbatim hs hv => exact (verbatim_ne hs).2 (List.cons.inj he).1

theorem shortEscapes_inj {c d letter : Char} (hc : (c, letter) ∈ shortEscapes)
    (hd : (d, letter) ∈ shortEscapes) : c = d := by
  have hall : ∀ x ∈ shortEscapes, ∀ y ∈ shortEscapes, x.2 = y.2 → x.1 = y.1 := by decide
  exact hall _ hc _ hd rfl

theorem shortEscapes_ne_u {c letter : Char} (h : (c, letter) ∈ shortEscapes) : letter ≠ 'u' := by
  have hall : ∀ x ∈ shortEscapes, x.2 ≠ 'u' := by decide
  exact hall _ h

/-- The digits end at the closing brace, so they determine the character. -/
theorem hex_append_inj {c d : Char} {s t : List Char}
    (h : Nat.toDigits 16 c.toNat ++ '\x7d' :: s = Nat.toDigits 16 d.toNat ++ '\x7d' :: t) :
    c = d ∧ s = t := by
  have hdigits (n : Nat) : ∀ x ∈ Nat.toDigits 16 n, (x != '\x7d') = true := by
    intro x hx
    obtain ⟨k, -, rfl⟩ := exists_digit_of_mem_toDigits (by decide) hx
    simp
  obtain ⟨hd, hst⟩ := word_append_inj (hdigits c.toNat) (hdigits d.toNat) (by simp) (by simp) h
  have hn : c.toNat = d.toNat := toDigits_inj (by decide) (by decide) hd
  exact ⟨Char.toNat_inj.mp hn, (List.cons.inj hst).2⟩

/-- The escapes form a prefix code: after a backslash the second character tells the one-letter
escapes from the hexadecimal one. -/
theorem Escaped.append_inj {c d : Char} {e f s t : List Char} (hc : Escaped c e)
    (hd : Escaped d f) (h : e ++ s = f ++ t) : c = d ∧ s = t := by
  cases hc with
  | short hc =>
    cases hd with
    | short hd =>
      obtain ⟨rfl, hst⟩ := List.cons.inj (List.cons.inj h).2
      exact ⟨shortEscapes_inj hc hd, hst⟩
    | hex => exact absurd (List.cons.inj (List.cons.inj h).2).1 (shortEscapes_ne_u hc)
    | verbatim hs => exact absurd (List.cons.inj h).1.symm (verbatim_ne hs).1
  | hex =>
    cases hd with
    | short hd => exact absurd (List.cons.inj (List.cons.inj h).2).1.symm (shortEscapes_ne_u hd)
    | hex =>
      simp only [List.cons_append, List.cons.injEq, true_and, List.append_assoc,
        List.nil_append] at h
      exact hex_append_inj h
    | verbatim hs => exact absurd (List.cons.inj h).1.symm (verbatim_ne hs).1
  | verbatim hs =>
    cases hd with
    | short => exact absurd (List.cons.inj h).1 (verbatim_ne hs).1
    | hex => exact absurd (List.cons.inj h).1 (verbatim_ne hs).1
    | verbatim => exact List.cons.inj h

theorem escaped_append_inj {v w s t : List Char}
    (h : v.flatMap escapeChar ++ '\x22' :: s = w.flatMap escapeChar ++ '\x22' :: t) :
    v = w ∧ s = t := by
  induction v generalizing w with
  | nil =>
    cases w with
    | nil => exact ⟨rfl, (List.cons.inj h).2⟩
    | cons d w =>
      rw [List.flatMap_cons, List.append_assoc] at h
      exact absurd h.symm (escaped_escapeChar d).append_ne_quote
  | cons c v ih =>
    rw [List.flatMap_cons, List.append_assoc] at h
    cases w with
    | nil => exact absurd h (escaped_escapeChar c).append_ne_quote
    | cons d w =>
      rw [List.flatMap_cons, List.append_assoc] at h
      obtain ⟨rfl, hrest⟩ := (escaped_escapeChar c).append_inj (escaped_escapeChar d) h
      obtain ⟨rfl, hst⟩ := ih hrest
      exact ⟨rfl, hst⟩

theorem quote_append_inj {v w : String} {s t : List Char}
    (h : (quote v).toList ++ s = (quote w).toList ++ t) : v = w ∧ s = t := by
  simp only [toList_quote, List.cons_append, List.append_assoc, List.nil_append,
    List.cons.injEq, true_and] at h
  obtain ⟨hvw, hst⟩ := escaped_append_inj h
  exact ⟨String.toList_inj.mp hvw, hst⟩

end SchemaTypes.Text
