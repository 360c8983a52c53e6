import SchemaTypes.TypeExpr.Basic

/-! # The written form of a type

A type is written as its keyword, then its parameters between angle brackets, then the block
of its annotations. A reference is written as its name. A dump shows instead everything that
equality looks at, source lines included.
-/
namespace SchemaTypes
open Text
namespace TypeExpr

section
open Formatter (put)
variable {σ : Type} [Sink σ]

def write : TypeExpr → Formatter σ Unit
  | .primitive p as => do
    put p.keyword
    Annotation.writeTail as
  | .map k v as => do
    put "map<"
    k.write.plainly
    put ", "
    v.write.plainly
    put ">"
    Annotation.writeTail as
  | .list e as => do
    put "list<"
    e.write.plainly
    put ">"
    Annotation.writeTail as
  | .set e as => do
    put "set<"
    e.write.plainly
    put ">"
    Annotation.writeTail as
  | .reference r => put r.name

end

def render (t : TypeExpr) : String := t.write.text .plain

/-- The type written into a sink that takes so many characters. -/
def renderBounded (t : TypeExpr) (limit : Nat) : Bool × String :=
  let (result, sink) := t.write.run .plain (⟨limit, ""⟩ : Bounded)
  (result.isOk, sink.taken)

def script : TypeExpr → Script
  | .primitive p as => p.script ++ Annotation.tailScript as
  | .map k v as =>
    .put "map<" ++ .plainly k.script ++ .put ", " ++ .plainly v.script ++ .put ">"
      ++ Annotation.tailScript as
  | .list e as => .put "list<" ++ .plainly e.script ++ .put ">" ++ Annotation.tailScript as
  | .set e as => .put "set<" ++ .plainly e.script ++ .put ">" ++ Annotation.tailScript as
  | .reference r => .put r.name

/-- A type catches no failure at any node. -/
@[simp] theorem write_script {σ : Type} [Sink σ] (t : TypeExpr) :
    (t.script.write : Formatter σ Unit) = t.write := by
  induction t with
  | primitive p as =>
    rw [script, Script.write_append, Annotation.write_tailScript]
    rfl
  | map k v as ihk ihv =>
    simp only [script, Script.write_append, Script.write, ihk, ihv, Annotation.write_tailScript,
      bind_assoc]
    rfl
  | list e as ih | set e as ih =>
    simp only [script, Script.write_append, Script.write, ih, Annotation.write_tailScript,
      bind_assoc]
    rfl
  | reference r => rfl

section
open Annotation (tail text_tailScript)

@[simp] theorem text_script (o : FormatOptions) (t : TypeExpr) : t.script.text o = t.render := by
  rw [render, ← write_script, ← Script.text]
  cases t with
  | primitive p as =>
    simp only [script, Script.text_append, Primitive.text_script, text_tailScript]
  | map k v as | list e as | set e as =>
    simp only [script, Script.text_append, Script.text_put, Script.text_plainly, text_tailScript]
  | reference r => simp only [script, Script.text_put]

@[simp] theorem text_write (o : FormatOptions) (t : TypeExpr) : t.write.text o = t.render := by
  rw [← text_script o, Script.text, write_script]

@[simp] theorem render_primitive (p : Primitive) (as : List Annotation) :
    (TypeExpr.primitive p as).render = p.keyword ++ tail as := by
  rw [← text_script .plain]
  simp only [script, Script.text_append, Primitive.text_script, text_tailScript]
@[simp] theorem render_map (k v : TypeExpr) (as : List Annotation) :
    (TypeExpr.map k v as).render =
      "map<" ++ k.render ++ ", " ++ v.render ++ ">" ++ tail as := by
  rw [← text_script .plain]
  simp only [script, Script.text_append, Script.text_put, Script.text_plainly, text_script,
    text_tailScript]
@[simp] theorem render_list (e : TypeExpr) (as : List Annotation) :
    (TypeExpr.list e as).render = "list<" ++ e.render ++ ">" ++ tail as := by
  rw [← text_script .plain]
  simp only [script, Script.text_append, Script.text_put, Script.text_plainly, text_script,
    text_tailScript]
@[simp] theorem render_set (e : TypeExpr) (as : List Annotation) :
    (TypeExpr.set e as).render = "set<" ++ e.render ++ ">" ++ tail as := by
  rw [← text_script .plain]
  simp only [script, Script.text_append, Script.text_put, Script.text_plainly, text_script,
    text_tailScript]
@[simp] theorem render_reference (r : Reference) : (TypeExpr.reference r).render = r.name := by
  rw [← text_script .plain, script, Script.text_put]

theorem toList_render_map (k v : TypeExpr) (as : List Annotation) :
    (TypeExpr.map k v as).render.toList = "map".toList ++ '<' :: (k.render.toList ++
      ',' :: ' ' :: (v.render.toList ++ '>' :: (tail as).toList)) := by
  simp

theorem toList_render_list (e : TypeExpr) (as : List Annotation) :
    (TypeExpr.list e as).render.toList =
      "list".toList ++ '<' :: (e.render.toList ++ '>' :: (tail as).toList) := by
  simp

theorem toList_render_set (e : TypeExpr) (as : List Annotation) :
    (TypeExpr.set e as).render.toList =
      "set".toList ++ '<' :: (e.render.toList ++ '>' :: (tail as).toList) := by
  simp

end

end TypeExpr

/-! ## Dumps -/

namespace Reference

def dump (r : Reference) : Dump :=
  .record "TypeReference" [("name", .quoted r.name), ("line", .word (toString r.line))]

end Reference

namespace TypeExpr

def dump : TypeExpr → Dump
  | .primitive p as => .tuple "Primitive" [.record "PrimitiveType"
      [("kind", .word p.label), ("annotations", Annotation.dumpList as)]]
  | .map k v as => .tuple "Map" [.record "MapType"
      [("key", k.dump), ("value", v.dump), ("annotations", Annotation.dumpList as)]]
  | .list e as => .tuple "List" [.record "ListType"
      [("element", e.dump), ("annotations", Annotation.dumpList as)]]
  | .set e as => .tuple "Set" [.record "SetType"
      [("element", e.dump), ("annotations", Annotation.dumpList as)]]
  | .reference r => .tuple "Reference" [r.dump]

end TypeExpr

end SchemaTypes
