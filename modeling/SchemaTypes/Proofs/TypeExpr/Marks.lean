import SchemaTypes.Proofs.TypeExpr.Preorder
import SchemaTypes.Proofs.TypeExpr.Skeleton

/-! # Counting nodes in the text

If no name holds a mark of the written form, the marks outside quotes count the nodes: angle
brackets the containers, parentheses the annotated nodes, equals signs the annotations. A comma
outside parentheses stands for a map.
-/
namespace SchemaTypes
open Text
open Brackets (parens)

/-- The marks of the written form that have one meaning each, and so all but the comma. -/
def plainMarks : List Char := ['<', '>', '(', ')', '=']

/-- All marks of the written form. -/
def marks : List Char := ['<', '>', '(', ')', ',', '=', '\x22']

variable {mark : Char}

theorem Avoids.count_eq_zero {name : String} (h : Avoids marks name) (hm : mark ∈ marks) :
    name.toList.count mark = 0 :=
  List.count_eq_zero.mpr fun hc => h mark hc hm

theorem mem_marks_of_mem_plainMarks (h : mark ∈ plainMarks) : mark ∈ marks := by
  have hall : plainMarks ⊆ marks := by decide
  exact hall h

/-- One comparison of short texts serves for every plain mark. -/
theorem count_eq_of_map_count_eq {x y : List Char}
    (h : plainMarks.map x.count = plainMarks.map y.count) (hm : mark ∈ plainMarks) :
    x.count mark = y.count mark := List.map_inj_left.mp h mark hm

namespace Annotation
variable {as : List Annotation}

theorem count_caption (hm : mark ∈ plainMarks) {a : Annotation} (h : Avoids marks a.name) :
    a.caption.count mark = ['='].count mark := by
  have hmarks : [' ', '=', ' '].count mark = ['='].count mark :=
    count_eq_of_map_count_eq (by decide) hm
  rw [caption, List.count_append, h.count_eq_zero (mem_marks_of_mem_plainMarks hm), Nat.zero_add,
    hmarks]

theorem count_furtherCaptions (hm : mark ∈ plainMarks) (h : ∀ a ∈ as, Avoids marks a.name) :
    (furtherCaptions as).count mark = as.length * ['='].count mark := by
  have hseparator : [',', ' '].count mark = [].count mark :=
    count_eq_of_map_count_eq (by decide) hm
  induction as with
  | nil => exact (Nat.zero_mul _).symm
  | cons a as ih =>
    have hsplit : furtherCaptions (a :: as) = [',', ' '] ++ a.caption ++ furtherCaptions as := rfl
    rw [hsplit, List.count_append, List.count_append, hseparator, List.count_nil,
      count_caption hm (h a List.mem_cons_self), ih fun b hb => h b (List.mem_cons_of_mem a hb),
      List.length_cons, Nat.succ_mul]
    omega

theorem count_skeleton (hm : mark ∈ plainMarks) (h : ∀ a ∈ as, Avoids marks a.name) :
    (skeleton as).count mark =
      (!as.isEmpty).toNat * ['(', ')'].count mark + as.length * ['='].count mark := by
  cases as with
  | nil => simp [skeleton]
  | cons a as =>
    have hparens : ([' ', '('] ++ [')']).count mark = ['(', ')'].count mark :=
      count_eq_of_map_count_eq (by decide) hm
    have hsplit : skeleton (a :: as) =
        [' ', '('] ++ (a.caption ++ furtherCaptions as ++ [')']) := rfl
    rw [hsplit, List.count_append, List.count_append, List.count_append, ← hparens,
      List.count_append, count_caption hm (h a List.mem_cons_self),
      count_furtherCaptions hm fun b hb => h b (List.mem_cons_of_mem a hb), List.length_cons,
      Nat.succ_mul]
    simp only [List.isEmpty_cons, Bool.not_false, Bool.toNat_true, Nat.one_mul]
    omega

theorem free_parens_captions {a : Annotation} (h : ∀ b ∈ a :: as, Avoids marks b.name) :
    parens.Free (a.caption ++ furtherCaptions as) :=
  free_captions (by decide) fun b hb => (h b hb).free

theorem nested_parens_skeleton (h : ∀ a ∈ as, Avoids marks a.name) :
    ∃ peak ≤ 1, parens.Nested peak (skeleton as) := by
  cases as with
  | nil => exact ⟨0, by decide, Brackets.Free.nested fun c hc => nomatch hc⟩
  | cons a as =>
    have hspace : parens.Free [' '] := by decide
    exact ⟨_, by decide, hspace.nested.append (free_parens_captions h).nested.enclose⟩

/-- A block shows its opening parenthesis only. -/
theorem count_outer_skeleton (h : ∀ a ∈ as, Avoids marks a.name) :
    (parens.outer (skeleton as)).count ',' = 0 := by
  cases as with
  | nil => rfl
  | cons a as =>
    have hspace : parens.Free [' '] := by decide
    have houter : parens.outer (skeleton (a :: as)) = [' ', '('] := by
      change parens.outer ([' '] ++ parens.opening :: (_ ++ [parens.closing])) = _
      rw [Brackets.outer_append hspace.level, hspace.outer,
        (free_parens_captions h).outer_enclose]
      rfl
    rw [houter]
    rfl

end Annotation

namespace TypeExpr
variable {t : TypeExpr}

def isAnnotated (t : TypeExpr) : Bool := !t.annotations.isEmpty

theorem avoids_keyword (p : Primitive) : Avoids marks p.keyword := by cases p <;> decide

section Container
variable {word : String} {parts : List Char} {as : List Annotation}

theorem count_container (hm : mark ∈ plainMarks) (hw : Avoids marks word)
    (h : ∀ a ∈ as, Avoids marks a.name) : (containerSkeleton word parts as).count mark =
      ['<', '>'].count mark + parts.count mark +
        ((!as.isEmpty).toNat * ['(', ')'].count mark + as.length * ['='].count mark) := by
  have hsplit : containerSkeleton word parts as =
      word.toList ++ (['<'] ++ (parts ++ ['>'])) ++ Annotation.skeleton as := rfl
  have hangles : (['<'] ++ ['>']).count mark = ['<'].count mark + ['>'].count mark :=
    List.count_append
  rw [hsplit, List.count_append, List.count_append, List.count_append, List.count_append,
    hw.count_eq_zero (mem_marks_of_mem_plainMarks hm), Annotation.count_skeleton hm h]
  change _ = (['<'] ++ ['>']).count mark + _ + _
  rw [hangles]
  omega

theorem nested_parens_container (hw : Avoids marks word)
    (hparts : ∃ peak ≤ 1, parens.Nested peak parts) (h : ∀ a ∈ as, Avoids marks a.name) :
    ∃ peak ≤ 1, parens.Nested peak (containerSkeleton word parts as) := by
  have hword : parens.Free word.toList := hw.free
  have hopening : parens.Free ['<'] := by decide
  have hclosing : parens.Free ['>'] := by decide
  obtain ⟨m, hm, hparts⟩ := hparts
  obtain ⟨n, hn, htail⟩ := Annotation.nested_parens_skeleton h
  refine ⟨_, ?_, (hword.nested.append (hopening.nested.append
    (hparts.append hclosing.nested))).append htail⟩
  omega

theorem count_outer_container (hw : Avoids marks word) (hparts : parens.level parts = 0)
    (h : ∀ a ∈ as, Avoids marks a.name) :
    (parens.outer (containerSkeleton word parts as)).count ',' =
      (parens.outer parts).count ',' := by
  have hword : parens.Free word.toList := hw.free
  have hopening : parens.Free ['<'] := by decide
  have hclosing : parens.Free ['>'] := by decide
  have hbody : parens.level (['<'] ++ (parts ++ ['>'])) = 0 := by
    rw [Brackets.level_append, Brackets.level_append, hopening.level, hparts, hclosing.level]
    rfl
  have hfront : parens.level (word.toList ++ (['<'] ++ (parts ++ ['>']))) = 0 := by
    rw [Brackets.level_append, hword.level, hbody]
    rfl
  have hsplit : containerSkeleton word parts as =
      word.toList ++ (['<'] ++ (parts ++ ['>'])) ++ Annotation.skeleton as := rfl
  rw [hsplit, Brackets.outer_append hfront, Brackets.outer_append hword.level,
    Brackets.outer_append hopening.level, Brackets.outer_append hparts, hword.outer,
    hopening.outer, hclosing.outer, List.count_append, List.count_append, List.count_append,
    List.count_append, hw.count_eq_zero (by decide), Annotation.count_outer_skeleton h]
  simp

end Container

theorem count_skeleton (hm : mark ∈ plainMarks)
    (h : t.NamesSatisfy (Avoids marks) (Avoids marks)) : t.skeleton.count mark =
      t.count isContainer * ['<', '>'].count mark + t.count isAnnotated * ['(', ')'].count mark +
        t.total (fun n => n.annotations.length) * ['='].count mark := by
  induction t with
  | primitive p as =>
    rw [skeleton, List.count_append,
      (avoids_keyword p).count_eq_zero (mem_marks_of_mem_plainMarks hm),
      Annotation.count_skeleton hm h, count_primitive, count_primitive, total_primitive]
    simp only [isContainer, isAnnotated, variant, Variant.isContainer, annotations,
      Bool.toNat_false, Nat.zero_mul, Nat.zero_add]
  | map k v as ihk ihv =>
    have hseparator : [',', ' '].count mark = [].count mark :=
      count_eq_of_map_count_eq (by decide) hm
    have hparts : (k.skeleton ++ ([',', ' '] ++ v.skeleton)).count mark =
        k.skeleton.count mark + v.skeleton.count mark := by
      rw [List.count_append, List.count_append, hseparator, List.count_nil, Nat.zero_add]
    rw [skeleton, count_container hm (by decide) h.2.2, hparts, ihk h.1, ihv h.2.1]
    simp only [count_map, total_map, isContainer, isAnnotated, variant, Variant.isContainer,
      annotations, Bool.toNat_true, Nat.add_mul, Nat.one_mul]
    omega
  | list e as ih =>
    rw [skeleton, count_container hm (by decide) h.2, ih h.1]
    simp only [count_list, total_list, isContainer, isAnnotated, variant, Variant.isContainer,
      annotations, Bool.toNat_true, Nat.add_mul, Nat.one_mul]
    omega
  | set e as ih =>
    rw [skeleton, count_container hm (by decide) h.2, ih h.1]
    simp only [count_set, total_set, isContainer, isAnnotated, variant, Variant.isContainer,
      annotations, Bool.toNat_true, Nat.add_mul, Nat.one_mul]
    omega
  | reference r =>
    have hr : r.name.toList.count mark = 0 :=
      Avoids.count_eq_zero h (mem_marks_of_mem_plainMarks hm)
    rw [skeleton, hr, count_reference, count_reference, total_reference]
    simp only [isContainer, isAnnotated, variant, Variant.isContainer, annotations,
      List.isEmpty_nil, Bool.not_true, Bool.toNat_false, List.length_nil, Nat.zero_mul]

theorem nested_parens_skeleton (h : t.NamesSatisfy (Avoids marks) (Avoids marks)) :
    ∃ peak ≤ 1, parens.Nested peak t.skeleton := by
  induction t with
  | primitive p as =>
    have hp : parens.Free p.keyword.toList := (avoids_keyword p).free
    obtain ⟨n, hn, htail⟩ := Annotation.nested_parens_skeleton h
    exact ⟨max 0 n, by omega, hp.nested.append htail⟩
  | map k v as ihk ihv =>
    have hseparator : parens.Free [',', ' '] := by decide
    obtain ⟨m, hm, hk⟩ := ihk h.1
    obtain ⟨n, hn, hv⟩ := ihv h.2.1
    have hparts := hk.append (hseparator.nested.append hv)
    exact nested_parens_container (by decide) ⟨_, by omega, hparts⟩ h.2.2
  | list e as ih | set e as ih => exact nested_parens_container (by decide) (ih h.1) h.2
  | reference r =>
    have hr : parens.Free r.name.toList := Avoids.free h
    exact ⟨0, by decide, hr.nested⟩

theorem count_outer_skeleton (h : t.NamesSatisfy (Avoids marks) (Avoids marks)) :
    (parens.outer t.skeleton).count ',' = t.count isMap := by
  have hsettled {u : TypeExpr} (hu : u.NamesSatisfy (Avoids marks) (Avoids marks)) :
      parens.level u.skeleton = 0 := by
    obtain ⟨n, -, hn⟩ := nested_parens_skeleton hu
    exact hn.settled
  induction t with
  | primitive p as =>
    have hp : parens.Free p.keyword.toList := (avoids_keyword p).free
    rw [skeleton, Brackets.outer_append hp.level, hp.outer, List.count_append,
      (avoids_keyword p).count_eq_zero (by decide), Annotation.count_outer_skeleton h,
      count_primitive]
    rfl
  | map k v as ihk ihv =>
    have hseparator : parens.Free [',', ' '] := by decide
    have hlevel : parens.level (k.skeleton ++ ([',', ' '] ++ v.skeleton)) = 0 := by
      rw [Brackets.level_append, Brackets.level_append, hsettled h.1, hseparator.level,
        hsettled h.2.1]
      rfl
    have hparts : (parens.outer (k.skeleton ++ ([',', ' '] ++ v.skeleton))).count ',' =
        k.count isMap + (1 + v.count isMap) := by
      rw [Brackets.outer_append (hsettled h.1), Brackets.outer_append hseparator.level,
        hseparator.outer, List.count_append, List.count_append, ihk h.1, ihv h.2.1]
      rfl
    have hmap : (TypeExpr.map k v as).count isMap = 1 + (k.count isMap + v.count isMap) :=
      count_map isMap k v as
    rw [skeleton, count_outer_container (by decide) hlevel h.2.2, hparts, hmap]
    omega
  | list e as ih =>
    rw [skeleton, count_outer_container (by decide) (hsettled h.1) h.2, ih h.1, count_list]
    exact (Nat.zero_add _).symm
  | set e as ih =>
    rw [skeleton, count_outer_container (by decide) (hsettled h.1) h.2, ih h.1, count_set]
    exact (Nat.zero_add _).symm
  | reference r =>
    have hr : parens.Free r.name.toList := Avoids.free h
    rw [skeleton, hr.outer, Avoids.count_eq_zero h (by decide), count_reference]
    rfl

/-- A map has one more child than the other containers have. -/
theorem count_leaves (t : TypeExpr) :
    t.count isMap + 1 = t.count isPrimitive + t.count isReference := by
  induction t with
  | primitive p as => simp only [count_primitive]; rfl
  | map k v as ihk ihv =>
    simp only [count_map]
    change 1 + _ + 1 = 0 + _ + (0 + _)
    omega
  | list e as ih =>
    simp only [count_list]
    change 0 + _ + 1 = 0 + _ + (0 + _)
    omega
  | set e as ih =>
    simp only [count_set]
    change 0 + _ + 1 = 0 + _ + (0 + _)
    omega
  | reference r => simp only [count_reference]; rfl

/-- Everything that a visitor of all nodes can count by variant, by annotated nodes and by
annotations stands in the text outside quotes. -/
theorem marks_render (h : t.NamesSatisfy (Avoids marks) (Avoids marks)) :
    let shown := unquoted t.render.toList
    Closed t.render.toList ∧
      (shown.count '<' = t.count isContainer ∧ shown.count '>' = t.count isContainer) ∧
      ((parens.outer shown).count ',' = t.count isMap ∧
        (parens.outer shown).count ',' + 1 = t.count isPrimitive + t.count isReference) ∧
      (shown.count '(' = t.count isAnnotated ∧ shown.count ')' = t.count isAnnotated ∧
        ∀ p, p <+: t.render.toList →
          0 ≤ parens.level (unquoted p) ∧ parens.level (unquoted p) ≤ 1) ∧
      shown.count '=' = t.total fun n => n.annotations.length := by
  intro shown
  have hshows : Shows t.render.toList t.skeleton :=
    shows_render (h.avoids_mono (by decide))
  have hshown : shown = t.skeleton := hshows.unquoted_eq
  have hcount (m : Char) (hm : m ∈ plainMarks) : shown.count m =
      t.count isContainer * ['<', '>'].count m + t.count isAnnotated * ['(', ')'].count m +
        t.total (fun n => n.annotations.length) * ['='].count m := by
    rw [hshown, count_skeleton hm h]
  have hcommas : (parens.outer shown).count ',' = t.count isMap := by
    rw [hshown, count_outer_skeleton h]
  obtain ⟨peak, hpeak, hnested⟩ := nested_parens_skeleton h
  rw [← hshown] at hnested
  refine ⟨hshows.closed, ⟨?_, ?_⟩, ⟨hcommas, ?_⟩, ⟨?_, ?_, ?_⟩, ?_⟩
  · simpa using hcount '<' (by decide)
  · simpa using hcount '>' (by decide)
  · rw [hcommas, count_leaves]
  · simpa using hcount '(' (by decide)
  · simpa using hcount ')' (by decide)
  · intro p hp
    obtain ⟨hnonneg, hle⟩ := hnested.level_unquoted hp
    exact ⟨hnonneg, Int.le_trans hle hpeak⟩
  · simpa using hcount '=' (by decide)

/-- Values that hold every mark, in blocks of one and of two annotations. -/
theorem marks_render_values :
    let t : TypeExpr := .map (.list (.reference ⟨"a b", 1⟩) [⟨"k", ">,(=\")\\", 2⟩])
      (.set (.primitive .i32 [⟨"", "\"", 3⟩, ⟨"\\", "), x = \"<", 4⟩]) []) []
    let shown := unquoted t.render.toList
    t.NamesSatisfy (Avoids marks) (Avoids marks) ∧ Closed t.render.toList ∧
      (shown.count '<' = 3 ∧ shown.count '>' = 3) ∧ (parens.outer shown).count ',' = 1 ∧
      (shown.count '(' = 2 ∧ shown.count ')' = 2 ∧ ∀ p, p <+: t.render.toList →
        0 ≤ parens.level (unquoted p) ∧ parens.level (unquoted p) ≤ 1) ∧ shown.count '=' = 3 := by
  intro t shown
  have hnames : t.NamesSatisfy (Avoids marks) (Avoids marks) := by decide
  exact ⟨hnames, (marks_render hnames).1, (marks_render hnames).2.1,
    (marks_render hnames).2.2.1.1, (marks_render hnames).2.2.2.1, (marks_render hnames).2.2.2.2⟩

end TypeExpr

end SchemaTypes
