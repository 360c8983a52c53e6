import SchemaTypes.Text.Quoted

/-! # Structural dumps

A dump shows a value with the names of its constructors and fields. It has two layouts: all
on one line, or every part on a line of its own, four spaces deeper and with a comma after it.
-/
namespace SchemaTypes.Text

inductive Layout
  | oneLine | indented
  deriving DecidableEq, Repr

/-- The text in a layout when its first line stands at the given depth. -/
abbrev Dump := Layout → Nat → String

theorem toList_intercalate_cons (separator s : String) (ss : List String) :
    (separator.intercalate (s :: ss)).toList =
      s.toList ++ ss.flatMap fun t => separator.toList ++ t.toList := by
  induction ss generalizing s with
  | nil => simp
  | cons t ss ih =>
    rw [String.intercalate_cons_cons, String.toList_append, String.toList_append, ih,
      List.flatMap_cons, List.append_assoc, List.append_assoc]

namespace Dump

def newline (depth : Nat) : String := "\n" ++ String.ofList (List.replicate (4 * depth) ' ')

def word (w : String) : Dump := fun _ _ => w

def quoted (s : String) : Dump := fun _ _ => quote s

def field (name : String) (value : Dump) : Dump :=
  fun layout depth => name ++ ": " ++ value layout depth

/-- The gap stands inside the brackets if they are on one line. -/
def enclosed (opening gap closing : String) (parts : List Dump) : Dump
  | .oneLine, n =>
    opening ++ gap ++ ", ".intercalate (parts.map fun p => p .oneLine n) ++ gap ++ closing
  | .indented, n =>
    opening ++ String.join (parts.map fun p => newline (n + 1) ++ p .indented (n + 1) ++ ",")
      ++ newline n ++ closing

def record (name : String) (fields : List (String × Dump)) : Dump :=
  enclosed (name ++ " \x7b") " " "\x7d" (fields.map fun f => field f.1 f.2)

def tuple (name : String) (parts : List Dump) : Dump := enclosed (name ++ "(") "" ")" parts

def list : List Dump → Dump
  | [] => word "[]"
  | parts => enclosed "[" "" "]" parts

@[simp] theorem enclosed_oneLine (opening gap closing : String) (parts : List Dump) (n : Nat) :
    enclosed opening gap closing parts .oneLine n =
      opening ++ gap ++ ", ".intercalate (parts.map fun p => p .oneLine n) ++ gap ++ closing := rfl
@[simp] theorem enclosed_indented (opening gap closing : String) (parts : List Dump) (n : Nat) :
    enclosed opening gap closing parts .indented n =
      opening ++ String.join (parts.map fun p => newline (n + 1) ++ p .indented (n + 1) ++ ",")
        ++ newline n ++ closing := rfl

end Dump

end SchemaTypes.Text
