import SchemaTypes.Text.Formatter

/-! # Primitive types

Every primitive has a stable id, counted from 1, and one lower-case keyword. Primitives are
ordered by id.
-/
namespace SchemaTypes
open Text

inductive Primitive
  | bool | byte | i16 | i32 | i64 | double | string | binary
  deriving DecidableEq, Repr

namespace Primitive

/-- All primitives, by rising id. -/
def all : List Primitive := [.bool, .byte, .i16, .i32, .i64, .double, .string, .binary]

theorem mem_all (p : Primitive) : p ∈ all := by cases p <;> decide

def id : Primitive → Int
  | .bool => 1
  | .byte => 2
  | .i16 => 3
  | .i32 => 4
  | .i64 => 5
  | .double => 6
  | .string => 7
  | .binary => 8

def keyword : Primitive → String
  | .bool => "bool"
  | .byte => "byte"
  | .i16 => "i16"
  | .i32 => "i32"
  | .i64 => "i64"
  | .double => "double"
  | .string => "string"
  | .binary => "binary"

/-- The name in dumps. -/
def label : Primitive → String
  | .bool => "Bool"
  | .byte => "Byte"
  | .i16 => "I16"
  | .i32 => "I32"
  | .i64 => "I64"
  | .double => "Double"
  | .string => "String"
  | .binary => "Binary"

theorem id_inj {p q : Primitive} : p.id = q.id ↔ p = q := by
  cases p <;> cases q <;> decide

theorem keyword_inj {p q : Primitive} : p.keyword = q.keyword ↔ p = q := by
  cases p <;> cases q <;> decide

/-- The integers of a fixed width. -/
def isInteger : Primitive → Bool
  | .byte | .i16 | .i32 | .i64 => true
  | _ => false

/-- The primitives carried as a sequence of bytes. -/
def isStringLike : Primitive → Bool
  | .string | .binary => true
  | _ => false

instance : Ord Primitive := ⟨fun p q => compare p.id q.id⟩
instance : LT Primitive := ⟨fun p q => p.id < q.id⟩
instance : LE Primitive := ⟨fun p q => p.id ≤ q.id⟩
instance (p q : Primitive) : Decidable (p < q) := inferInstanceAs (Decidable (p.id < q.id))
instance (p q : Primitive) : Decidable (p ≤ q) := inferInstanceAs (Decidable (p.id ≤ q.id))
instance : Max Primitive := maxOfLe
instance : Min Primitive := minOfLe

def sort (ps : List Primitive) : List Primitive := ps.mergeSort fun p q => decide (p ≤ q)

def write {σ : Type} [Sink σ] (p : Primitive) : Formatter σ Unit := Formatter.put p.keyword

def script (p : Primitive) : Script := .put p.keyword

@[simp] theorem write_script {σ : Type} [Sink σ] (p : Primitive) :
    (p.script.write : Formatter σ Unit) = p.write := rfl

@[simp] theorem text_script (o : FormatOptions) (p : Primitive) :
    p.script.text o = p.keyword := by simp only [script, Script.text_put]

end Primitive

end SchemaTypes
