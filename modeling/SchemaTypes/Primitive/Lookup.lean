import SchemaTypes.Primitive.Basic
import SchemaTypes.Text.Dump

/-! # Looking a primitive up

A primitive is named by keyword or by id. An unknown name is rejected and leaves one event in
the log. An unknown id that the caller vouched for is a fatal error.
-/
namespace SchemaTypes
open Text

inductive Designation
  | keyword (word : String)
  | id (n : Int)
  /-- An id that the caller vouches for. -/
  | trustedId (n : Int)
  deriving DecidableEq, Repr

inductive Unknown
  | keyword (word : String)
  | id (n : Int)
  deriving DecidableEq, Repr

namespace Unknown

def message : Unknown → String
  | .keyword word => "`" ++ word ++ "` is not a primitive type keyword"
  | .id n => "unknown primitive kind " ++ toString n

def dump : Unknown → Dump
  | .keyword word => .record "UnknownKeyword" [("keyword", .quoted word)]
  | .id n => .record "UnknownPrimitiveKind" [("id", .word (toString n))]

end Unknown

inductive LookupError
  | rejected (cause : Unknown)
  | fatal (cause : Unknown)
  deriving DecidableEq, Repr

/-- The error for a caller who vouched for the name. -/
def LookupError.asFatal : LookupError → LookupError
  | .rejected cause | .fatal cause => .fatal cause

/-- What the log keeps of a name that was rejected. -/
structure Event where
  level : String
  message : String
  cause : Unknown
  deriving DecidableEq, Repr

structure Lookup where
  result : Except LookupError Primitive
  log : List Event

namespace Lookup

/-- What was found, without an event, or the rejection of what is unknown, with one. -/
def of (found : Option Primitive) (message : String) (cause : Unknown) : Lookup :=
  match found with
  | some p => ⟨.ok p, []⟩
  | none => ⟨.error (.rejected cause), [⟨"DEBUG", message, cause⟩]⟩

end Lookup

namespace Primitive

def ofKeyword? (word : String) : Option Primitive := all.find? fun p => p.keyword == word

def ofId? (n : Int) : Option Primitive := all.find? fun p => p.id == n

theorem ofKeyword?_eq_some_iff {word : String} {p : Primitive} :
    ofKeyword? word = some p ↔ word = p.keyword := by
  constructor
  · intro h
    exact (by simpa using List.find?_some h : p.keyword = word).symm
  · rintro rfl
    cases p <;> decide

theorem ofId?_eq_some_iff {n : Int} {p : Primitive} : ofId? n = some p ↔ n = p.id := by
  constructor
  · intro h
    exact (by simpa using List.find?_some h : p.id = n).symm
  · rintro rfl
    cases p <;> decide

def lookupKeyword (word : String) : Lookup :=
  .of (ofKeyword? word) "rejected primitive keyword" (.keyword word)

def lookupId (n : Int) : Lookup := .of (ofId? n) "rejected primitive kind id" (.id n)

end Primitive

namespace Designation

def lookup : Designation → Lookup
  | .keyword word => Primitive.lookupKeyword word
  | .id n => Primitive.lookupId n
  | .trustedId n =>
    let found := Primitive.lookupId n
    { found with result := found.result.mapError LookupError.asFatal }

def resolve (d : Designation) : Except LookupError Primitive := d.lookup.result

end Designation

end SchemaTypes
