import SchemaTypes.TypeExpr.Counting
import SchemaTypes.TypeExpr.Draft
import SchemaTypes.TypeExpr.References
import SchemaTypes.TypeExpr.Render

/-! # Assembling types on a stack

Types are built and edited step by step on a stack. A step that finds too few types, or one
of the wrong variant, fails and leaves the stack as it was.
-/
namespace SchemaTypes

/-- Two values compared as values, by hash and by the text they are written as. The hash is
ideal: it is taken over all parts of a value, and no two values share one. -/
structure Comparison where
  equal : Bool
  different : Bool
  sameHash : Bool
  sameText : Bool
  deriving DecidableEq, Repr

namespace Comparison
variable {α : Type} [BEq α]

def of (text : α → String) (a b : α) : Comparison where
  equal := a == b
  different := a != b
  sameHash := a == b
  sameText := text a == text b

theorem of_self [ReflBEq α] (text : α → String) (a : α) :
    of text a a = ⟨true, false, true, true⟩ := by
  simp [of, bne]

end Comparison

inductive Fault
  | lookup (error : LookupError)
  | underflow (needed : Nat)
  | wrongVariant (found : Variant)
  deriving DecidableEq, Repr

namespace Assembly

inductive Wrapping
  | list | set | mapKey | mapValue
  deriving DecidableEq, Repr

namespace Wrapping

/-- The other side of a map is a plain `bool`. -/
def layer (w : Wrapping) (as : List Annotation) (t : TypeExpr) : TypeExpr :=
  match w with
  | .list => .list t as
  | .set => .set t as
  | .mapKey => .map t (.bare .bool) as
  | .mapValue => .map (.bare .bool) t as

/-- Only the outermost of the layers is annotated. -/
def layers (w : Wrapping) (as : List Annotation) : Nat → TypeExpr → TypeExpr
  | 0, t => t
  | n + 1, t => w.layer as (Nat.repeat (w.layer []) n t)

end Wrapping

inductive Step
  | push (draft : Draft)
  | wrap (wrapping : Wrapping) (times : Nat) (annotations : List Annotation)
  /-- The two topmost types become key and value of a map. -/
  | pair (annotations : List Annotation)
  | annotate (added : Annotation)
  | clearAnnotations
  | reverseAnnotations
  | setLine (line : Nat)
  | rename (name : String)
  | setKind (kind : Designation)
  /-- The top takes the place of the last child of the type below it. -/
  | replace
  | unwrap
  | duplicate
  | swap
  | drop
  | compare
  | references
  | depth
  deriving DecidableEq, Repr

inductive Answer
  | done
  | comparison (c : Comparison)
  | references (rs : List Reference)
  | depth (n : Nat)
  deriving DecidableEq, Repr

/-- The topmost type stands first. -/
abbrev Stack := List TypeExpr

def editAnnotations (f : List Annotation → List Annotation) (t : TypeExpr) :
    Except Fault TypeExpr :=
  if t.isReference then .error (.wrongVariant t.variant)
  else .ok (t.withAnnotations (f t.annotations))

def editReference (f : Reference → Reference) : TypeExpr → Except Fault TypeExpr
  | .reference r => .ok (.reference (f r))
  | t => .error (.wrongVariant t.variant)

/-- The kind is looked up only if there is one to set. -/
def setKind (kind : Designation) : TypeExpr → Except Fault TypeExpr
  | .primitive _ as => (kind.resolve.mapError .lookup).map fun p => .primitive p as
  | t => .error (.wrongVariant t.variant)

def replaceLast (child : TypeExpr) : TypeExpr → Except Fault TypeExpr
  | .map k _ as => .ok (.map k child as)
  | .list _ as => .ok (.list child as)
  | .set _ as => .ok (.set child as)
  | t => .error (.wrongVariant t.variant)

def unwrap (t : TypeExpr) : Except Fault (List TypeExpr) :=
  if t.isContainer then .ok t.children else .error (.wrongVariant t.variant)

namespace Step

/-- How many types the step takes from the stack. -/
def needed : Step → Nat
  | .push _ => 0
  | .pair _ | .replace | .swap | .compare => 2
  | _ => 1

/-- The stack with its top edited, if the edit succeeds. -/
def editTop (edit : TypeExpr → Except Fault TypeExpr) (t : TypeExpr) (rest : Stack) :
    Except Fault (Answer × Stack) :=
  (edit t).map fun t => (.done, t :: rest)

def apply : Step → Stack → Except Fault (Answer × Stack)
  | .push draft, stack => (draft.resolve.mapError .lookup).map fun t => (.done, t :: stack)
  | .wrap w times as, t :: rest => .ok (.done, w.layers as times t :: rest)
  | .pair as, value :: key :: rest => .ok (.done, .map key value as :: rest)
  | .annotate a, t :: rest => editTop (editAnnotations (· ++ [a])) t rest
  | .clearAnnotations, t :: rest => editTop (editAnnotations fun _ => []) t rest
  | .reverseAnnotations, t :: rest => editTop (editAnnotations List.reverse) t rest
  | .setLine line, t :: rest => editTop (editReference fun r => { r with line }) t rest
  | .rename name, t :: rest => editTop (editReference fun r => { r with name }) t rest
  | .setKind kind, t :: rest => editTop (Assembly.setKind kind) t rest
  | .replace, child :: t :: rest => editTop (replaceLast child) t rest
  | .unwrap, t :: rest => (Assembly.unwrap t).map fun ts => (.done, ts.reverse ++ rest)
  | .duplicate, t :: rest => .ok (.done, t :: t :: rest)
  | .swap, t :: u :: rest => .ok (.done, u :: t :: rest)
  | .drop, _ :: rest => .ok (.done, rest)
  | .compare, b :: a :: rest => .ok (.comparison (.of TypeExpr.render a b), b :: a :: rest)
  | .references, t :: rest => .ok (.references t.references, t :: rest)
  | .depth, t :: rest => .ok (.depth t.depth, t :: rest)
  | step, _ => .error (.underflow step.needed)

theorem needed_le (step : Step) : step.needed ≤ 2 := by cases step <;> simp [needed]

theorem apply_of_length_lt {step : Step} {stack : Stack} (h : stack.length < step.needed) :
    step.apply stack = .error (.underflow step.needed) := by
  cases stack with
  | nil =>
    cases step with
    | push draft => exact absurd h (Nat.not_lt_zero _)
    | _ => rfl
  | cons t rest =>
    cases rest with
    | nil =>
      cases step with
      | pair | replace | swap | compare => rfl
      | _ => simp [needed] at h
    | cons u rest =>
      have hn := needed_le step
      simp only [List.length_cons] at h
      omega

def run (step : Step) (stack : Stack) : Except Fault Answer × Stack :=
  match step.apply stack with
  | .ok (answer, stack) => (.ok answer, stack)
  | .error fault => (.error fault, stack)

theorem run_of_error {step : Step} {stack : Stack} {fault : Fault}
    (h : step.apply stack = .error fault) : step.run stack = (.error fault, stack) := by
  simp only [run, h]

end Step

end Assembly

end SchemaTypes
