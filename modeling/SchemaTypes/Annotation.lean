import SchemaTypes.Text.Dump
import SchemaTypes.Text.Formatter

/-! # Annotations

An annotation attaches a name and a value to a type. It is written `name = "value"`; a list
of annotations is written as one block in parentheses, and an empty list as nothing.
-/
namespace SchemaTypes
open Text

structure Annotation where
  name : String
  value : String
  /-- Where it stands in the source; never written. -/
  line : Nat
  deriving DecidableEq, Repr

namespace Annotation

section
open Formatter (put pad quoted separated)
variable {σ : Type} [Sink σ]

def write (a : Annotation) : Formatter σ Unit := do
  (pad a.name).plainly
  put " = "
  quoted a.value

def writeBlock (as : List Annotation) : Formatter σ Unit := do
  if as.isEmpty then return
  put "("
  separated (put ", ") (as.map fun a => a.write.plainly)
  put ")"

/-- What follows a type: its block after one space, if there is one. -/
def writeTail (as : List Annotation) : Formatter σ Unit := do
  if as.isEmpty then return
  put " "
  (writeBlock as).plainly

end

def render (a : Annotation) : String := a.write.text .plain

def block (as : List Annotation) : String := (writeBlock as).text .plain

def tail (as : List Annotation) : String := (writeTail as).text .plain

def script (a : Annotation) : Script := .plainly (.pad a.name) ++ .put " = " ++ .quoted a.value

def blockScript : List Annotation → Script
  | [] => .nothing
  | as => .put "(" ++ .separated (.put ", ") (as.map fun a => .plainly a.script) ++ .put ")"

def tailScript : List Annotation → Script
  | [] => .nothing
  | as => .put " " ++ .plainly (blockScript as)

section
variable {σ : Type} [Sink σ]

@[simp] theorem write_script (a : Annotation) :
    (a.script.write : Formatter σ Unit) = a.write := by
  simp only [script, write, Script.write_append, Script.write_quoted, bind_assoc]
  rfl

@[simp] theorem write_blockScript (as : List Annotation) :
    ((blockScript as).write : Formatter σ Unit) = writeBlock as := by
  cases as with
  | nil => rfl
  | cons a as =>
    simp only [blockScript, Script.write_append, Script.write_separated, Script.write,
      write_script, bind_assoc, List.map_map, Function.comp_def]
    rfl

@[simp] theorem write_tailScript (as : List Annotation) :
    ((tailScript as).write : Formatter σ Unit) = writeTail as := by
  cases as with
  | nil => rfl
  | cons a as =>
    simp only [tailScript, Script.write_append, Script.write, write_blockScript]
    rfl

end

@[simp] theorem text_script (o : FormatOptions) (a : Annotation) : a.script.text o = a.render := by
  rw [render, ← write_script, ← Script.text]
  simp only [script, Script.text_append, Script.text_plainly, Script.text_put,
    Script.text_quoted]

@[simp] theorem text_write (o : FormatOptions) (a : Annotation) : a.write.text o = a.render := by
  rw [← text_script o, Script.text, write_script]

theorem render_eq (a : Annotation) : a.render = a.name ++ " = " ++ quote a.value := by
  rw [← text_script .plain]
  simp only [script, Script.text_append, Script.text_plainly, Script.text_pad,
    Script.text_put, Script.text_quoted, FormatOptions.fit_plain]

@[simp] theorem text_blockScript (o : FormatOptions) (as : List Annotation) :
    (blockScript as).text o = block as := by
  rw [block, ← write_blockScript, ← Script.text]
  cases as with
  | nil => rfl
  | cons a as =>
    simp only [blockScript, Script.text_append, Script.text_put, Script.text_separated,
      List.map_map, Function.comp_def, Script.text_plainly]

@[simp] theorem text_writeBlock (o : FormatOptions) (as : List Annotation) :
    (writeBlock as).text o = block as := by
  rw [← text_blockScript o, Script.text, write_blockScript]

@[simp] theorem block_nil : block [] = "" := rfl

theorem block_of_ne_nil {as : List Annotation} (h : as ≠ []) :
    block as = "(" ++ ", ".intercalate (as.map render) ++ ")" := by
  rw [← text_blockScript .plain]
  cases as with
  | nil => contradiction
  | cons a as =>
    simp only [blockScript, Script.text_append, Script.text_put, Script.text_separated,
      List.map_map, Function.comp_def, Script.text_plainly, text_script]

@[simp] theorem text_tailScript (o : FormatOptions) (as : List Annotation) :
    (tailScript as).text o = tail as := by
  rw [tail, ← write_tailScript, ← Script.text]
  cases as with
  | nil => rfl
  | cons a as =>
    simp only [tailScript, Script.text_append, Script.text_put, Script.text_plainly]

@[simp] theorem tail_nil : tail [] = "" := rfl
@[simp] theorem tail_cons (a : Annotation) (as : List Annotation) :
    tail (a :: as) = " " ++ block (a :: as) := by
  rw [← text_tailScript .plain]
  simp only [tailScript, Script.text_append, Script.text_put, Script.text_plainly,
    text_blockScript]

def dump (a : Annotation) : Dump :=
  .record "Annotation"
    [("name", .quoted a.name), ("value", .quoted a.value), ("line", .word (toString a.line))]

def dumpList (as : List Annotation) : Dump := .list (as.map dump)

/-- The list as a value of its own. -/
def dumpBlock (as : List Annotation) : Dump := .tuple "Annotations" [dumpList as]

end Annotation

end SchemaTypes
