import SchemaTypes.Text.Quoted

/-! # Formatters

A formatter writes a text piece by piece into a sink, under the options of its caller. A piece
that the sink refuses makes it fail, and what comes after is not written unless the failure is
caught. A script says which pieces make up a text and under which options each is written; it is
a formatter that catches nothing.
-/
namespace SchemaTypes.Text

inductive Alignment
  | left | center | right
  deriving DecidableEq, Repr

/-- What a caller may ask for a piece: a width with its fill, a precision, the alternate form. -/
structure FormatOptions where
  fill : Char := ' '
  alignment : Alignment := .left
  width : Nat := 0
  precision : Option Nat := none
  alternate : Bool := false
  deriving DecidableEq, Repr

namespace FormatOptions

def plain : FormatOptions := {}

/-- Characters beyond the precision are dropped first; the rest is filled up to the width. -/
def fit (o : FormatOptions) (fragment : String) : String :=
  let kept := fragment.toList.take (o.precision.getD fragment.length)
  let gap := o.width - kept.length
  let before := match o.alignment with
    | .left => 0
    | .center => gap / 2
    | .right => gap
  String.ofList (List.replicate before o.fill ++ kept ++ List.replicate (gap - before) o.fill)

@[simp] theorem fit_plain (fragment : String) : plain.fit fragment = fragment := by
  simp [plain, fit, ← String.length_toList]

end FormatOptions

/-! ## Sinks -/

/-- A sink takes the fragments of a text one by one and may refuse. -/
class Sink (σ : Type) where
  /-- Whether the fragment was accepted, and the sink after it. -/
  offer : σ → String → Bool × σ

instance : Sink String where
  offer taken fragment := (true, taken ++ fragment)

@[simp] theorem offer_string (taken fragment : String) :
    Sink.offer taken fragment = (true, taken ++ fragment) := rfl

structure Bounded where
  room : Nat
  taken : String := ""
  deriving DecidableEq, Repr

/-- A fragment longer than the room is taken up to the room and refused. -/
instance : Sink Bounded where
  offer b fragment :=
    if fragment.length ≤ b.room then (true, ⟨b.room - fragment.length, b.taken ++ fragment⟩)
    else (false, ⟨0, b.taken ++ String.ofList (fragment.toList.take b.room)⟩)

/-- A sink with the fragments offered so far, latest first, and its answer to each. -/
structure Watched (σ : Type) where
  sink : σ
  offers : List (String × Bool) := []

instance {σ : Type} [Sink σ] : Sink (Watched σ) where
  offer w fragment :=
    let (accepted, sink) := Sink.offer w.sink fragment
    (accepted, ⟨sink, (fragment, accepted) :: w.offers⟩)

theorem offer_watched {σ : Type} [Sink σ] (w : Watched σ) (fragment : String) :
    Sink.offer w fragment =
      let reply := Sink.offer w.sink fragment
      (reply.1, ⟨reply.2, (fragment, reply.1) :: w.offers⟩) := rfl

/-! ## Formatters -/

/-- Why a formatter fails: the sink refused a fragment. -/
inductive Refusal
  | refused
  deriving DecidableEq, Repr

/-- An action that reads its options, offers fragments to the sink and may fail. -/
abbrev Formatter (σ : Type) := ReaderT FormatOptions (ExceptT Refusal (StateM σ))

namespace Formatter
variable {σ : Type}

def run (w : Formatter σ Unit) (o : FormatOptions) (sink : σ) : Except Refusal Unit × σ :=
  w o sink

/-- What is written into an empty string, which refuses nothing. -/
def text (o : FormatOptions) (w : Formatter String Unit) : String := (w.run o "").2

/-- The body under plain options. -/
def plainly (body : Formatter σ Unit) : Formatter σ Unit := withReader (fun _ => .plain) body

@[simp] theorem run_pure (o : FormatOptions) (sink : σ) :
    run (pure () : Formatter σ Unit) o sink = (.ok (), sink) := rfl

/-- The second formatter runs only if the first has not failed. -/
theorem run_bind (v w : Formatter σ Unit) (o : FormatOptions) (sink : σ) :
    run (do v; w) o sink = match v.run o sink with
      | (.ok (), sink) => w.run o sink
      | (.error e, sink) => (.error e, sink) := by
  change ExceptT.bindCont (fun _ => w o) (v.run o sink).1 (v.run o sink).2 = _
  rcases v.run o sink with ⟨_ | _, _⟩ <;> rfl

@[simp] theorem run_plainly (body : Formatter σ Unit) (o : FormatOptions) (sink : σ) :
    body.plainly.run o sink = body.run .plain sink := rfl

variable [Sink σ]

/-- The fragment as it is, whatever the options. -/
def put (fragment : String) : Formatter σ Unit := fun _ sink =>
  match Sink.offer sink fragment with
  | (true, sink) => (.ok (), sink)
  | (false, sink) => (.error .refused, sink)

/-- The fragment fitted to the options in force. -/
def pad (fragment : String) : Formatter σ Unit := do put ((← read).fit fragment)

/-- The string between quotes, each character escaped on its own. -/
def quoted (s : String) : Formatter σ Unit := do
  put "\""
  for c in s.toList do
    put (String.ofList (escapeChar c))
  put "\""

/-- The items in order, with the separator before each but the first. -/
def separated (separator : Formatter σ Unit) (items : List (Formatter σ Unit)) :
    Formatter σ Unit := do
  for (item, i) in items.zipIdx do
    if i > 0 then separator
    item

theorem run_put (fragment : String) (o : FormatOptions) (sink : σ) :
    (put fragment).run o sink = match Sink.offer sink fragment with
      | (true, sink) => (.ok (), sink)
      | (false, sink) => (.error .refused, sink) := rfl

theorem run_put_eq_ok_iff (fragment : String) (o : FormatOptions) (sink : σ) :
    ((put fragment).run o sink).1 = .ok () ↔ (Sink.offer sink fragment).1 = true := by
  rw [run_put]
  rcases Sink.offer sink fragment with ⟨_ | _, after⟩ <;> simp

theorem run_put_snd (fragment : String) (o : FormatOptions) (sink : σ) :
    ((put fragment).run o sink).2 = (Sink.offer sink fragment).2 := by
  rw [run_put]
  rcases Sink.offer sink fragment with ⟨_ | _, after⟩ <;> rfl

theorem run_pad (fragment : String) (o : FormatOptions) (sink : σ) :
    (pad fragment).run o sink = (put (o.fit fragment)).run o sink := rfl

end Formatter

/-! ## Scripts -/

inductive Script
  | nothing
  /-- The fragment as it is, whatever the options. -/
  | put (fragment : String)
  /-- The fragment fitted to the options in force. -/
  | pad (fragment : String)
  /-- The body under plain options. -/
  | plainly (body : Script)
  | append (first second : Script)

namespace Script
variable {σ : Type} [Sink σ]

instance : Append Script := ⟨.append⟩

/-- The formatter that the script describes. It fails with the first fragment that is refused. -/
def write : Script → Formatter σ Unit
  | .nothing => pure ()
  | .put fragment => Formatter.put fragment
  | .pad fragment => Formatter.pad fragment
  | .plainly body => body.write.plainly
  | .append first second => do
    first.write
    second.write

def text (o : FormatOptions) (w : Script) : String := w.write.text o

theorem run_string (o : FormatOptions) (w : Script) (taken : String) :
    w.write.run o taken = (.ok (), taken ++ w.text o) := by
  induction w generalizing o taken with
  | nothing => simp [text, Formatter.text, write]
  | put fragment => simp [text, Formatter.text, write, Formatter.run_put]
  | pad fragment => simp [text, Formatter.text, write, Formatter.run_put, Formatter.run_pad]
  | plainly body ih => exact ih .plain taken
  | append first second ihf ihs =>
    have h (s : String) : (append first second).write.run o s =
        (.ok (), s ++ first.text o ++ second.text o) := by
      simp only [write, Formatter.run_bind, ihf, ihs]
    have ht : (append first second).text o = first.text o ++ second.text o := by
      rw [text, Formatter.text, h, String.empty_append]
    rw [h, ht, String.append_assoc]

@[simp] theorem text_nothing (o : FormatOptions) : nothing.text o = "" := rfl
@[simp] theorem text_put (o : FormatOptions) (s : String) : (put s).text o = s := by
  simp [text, Formatter.text, write, Formatter.run_put]
@[simp] theorem text_pad (o : FormatOptions) (s : String) : (pad s).text o = o.fit s := by
  simp [text, Formatter.text, write, Formatter.run_put, Formatter.run_pad]
@[simp] theorem text_plainly (o : FormatOptions) (w : Script) :
    (plainly w).text o = w.text .plain := rfl
@[simp] theorem text_append (o : FormatOptions) (v w : Script) :
    (v ++ w).text o = v.text o ++ w.text o := by
  change ((append v w).write.run o "").2 = _
  simp only [write, Formatter.run_bind, run_string, String.empty_append]

def concat : List Script → Script
  | [] => .nothing
  | w :: ws => w ++ concat ws

/-- The scripts in order with the separator before each but the first. -/
def separated (separator : Script) : List Script → Script
  | [] => .nothing
  | w :: ws => w ++ concat (ws.map fun v => separator ++ v)

/-- The string between quotes, each character escaped on its own. -/
def quoted (s : String) : Script :=
  .put "\"" ++ concat (s.toList.map fun c => .put (String.ofList (escapeChar c))) ++ .put "\""

@[simp] theorem text_separated (o : FormatOptions) (separator : Script) (ws : List Script) :
    (separated separator ws).text o =
      (separator.text o).intercalate (ws.map fun w => w.text o) := by
  cases ws with
  | nil => simp only [separated, text_nothing, List.map_nil, String.intercalate_nil]
  | cons w ws =>
    rw [separated, text_append]
    induction ws generalizing w with
    | nil => simp [concat]
    | cons v ws ih =>
      simp only [List.map_cons, concat, text_append, String.intercalate_cons_cons] at ih ⊢
      rw [String.append_assoc, ih, String.append_assoc]

theorem text_concat_put (o : FormatOptions) (f : Char → List Char) (cs : List Char) :
    (concat (cs.map fun c => put (String.ofList (f c)))).text o =
      String.ofList (cs.flatMap f) := by
  induction cs with
  | nil => rfl
  | cons c cs ih => simp [concat, ih]

@[simp] theorem text_quoted (o : FormatOptions) (s : String) : (quoted s).text o = quote s := by
  apply String.toList_inj.mp
  simp [quoted, text_concat_put]

/-! ### The loops of formatters as scripts -/

theorem write_append (v w : Script) :
    ((v ++ w).write : Formatter σ Unit) = v.write >>= fun _ => w.write := rfl

theorem write_concat_map {α : Type} (f : α → Script) (as : List α) :
    ((concat (as.map f)).write : Formatter σ Unit) = (do for a in as do (f a).write) := by
  induction as with
  | nil => rfl
  | cons a as ih =>
    simp only [List.map_cons, concat, write_append, List.forIn_cons, bind_assoc, pure_bind] at ih ⊢
    rw [ih]

theorem write_quoted (s : String) :
    ((quoted s).write : Formatter σ Unit) = Formatter.quoted s := by
  simp only [quoted, write_append, write_concat_map, Formatter.quoted, bind_assoc, pure_bind]
  rfl

/-- From the second item on the index is positive. -/
theorem write_concat_separated (separator : Script) (ws : List Script) (n : Nat) :
    ((concat (ws.map fun v => separator ++ v)).write : Formatter σ Unit) =
      (do
        for (item, i) in (ws.map write).zipIdx (n + 1) do
          if i > 0 then separator.write
          item) := by
  induction ws generalizing n with
  | nil => rfl
  | cons w ws ih =>
    have hpos : n + 1 > 0 := Nat.succ_pos n
    simp only [List.map_cons, concat, write_append, List.zipIdx_cons, List.forIn_cons, bind_assoc,
      pure_bind, ih (n + 1), hpos, if_true]

theorem write_separated (separator : Script) (ws : List Script) :
    ((separated separator ws).write : Formatter σ Unit) =
      Formatter.separated separator.write (ws.map write) := by
  cases ws with
  | nil => rfl
  | cons w ws =>
    rw [separated, write_append, write_concat_separated separator ws 0]
    simp only [Formatter.separated, List.map_cons, List.zipIdx_cons, List.forIn_cons, bind_assoc,
      pure_bind, gt_iff_lt, Nat.lt_irrefl, if_false]

end Script

end SchemaTypes.Text
