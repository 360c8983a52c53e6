import SchemaTypes.TypeExpr.Basic

/-! # Visitors

A visitor acts on its state when it enters a node and again when it leaves it, and decides on
entering whether the children are walked in between. A map's key is walked before its value. The
same walk runs as a loop over a stack of pending tasks. A recorder is the visitor that keeps the
sites it visits.
-/
namespace SchemaTypes

/-- A node and the way to it from the root. -/
structure Site where
  path : Path
  node : TypeExpr
  deriving DecidableEq, Repr

/-- The sites of the children, in the order of the walk. -/
def Site.children (site : Site) : List Site :=
  match site.node with
  | .primitive .. | .reference _ => []
  | .map k v _ => [⟨0 :: site.path, k⟩, ⟨1 :: site.path, v⟩]
  | .list e _ | .set e _ => [⟨0 :: site.path, e⟩]

structure Visitor (σ : Type) where
  /-- Whether to walk the children, and the state to do it with. -/
  enter : Site → σ → Bool × σ
  leave : Site → σ → σ := fun _ s => s

/-- Where a walk starts: at the root or, passing over it, at its children. -/
inductive Start
  | root | children
  deriving DecidableEq, Repr

namespace Visitor
variable {σ : Type} (v : Visitor σ)

/-- The actions at a site around the walk of its children. -/
def around (site : Site) (descend : σ → σ) (s : σ) : σ :=
  let (wanted, s) := v.enter site s
  v.leave site (if wanted then descend s else s)

def walk (path : Path) : TypeExpr → σ → σ
  | .primitive p as, s => v.around ⟨path, .primitive p as⟩ (fun s => s) s
  | .map key value as, s =>
    v.around ⟨path, .map key value as⟩
      (fun s => walk (1 :: path) value (walk (0 :: path) key s)) s
  | .list e as, s => v.around ⟨path, .list e as⟩ (fun s => walk (0 :: path) e s) s
  | .set e as, s => v.around ⟨path, .set e as⟩ (fun s => walk (0 :: path) e s) s
  | .reference r, s => v.around ⟨path, .reference r⟩ (fun s => s) s

def walkChildren (path : Path) (t : TypeExpr) (s : σ) : σ :=
  match t with
  | .primitive .. | .reference _ => s
  | .map key value _ => v.walk (1 :: path) value (v.walk (0 :: path) key s)
  | .list e _ | .set e _ => v.walk (0 :: path) e s

theorem walk_eq (path : Path) (t : TypeExpr) (s : σ) :
    v.walk path t s = v.around ⟨path, t⟩ (v.walkChildren path t) s := by
  cases t <;> rfl

theorem walkChildren_eq_foldl (path : Path) (t : TypeExpr) (s : σ) :
    v.walkChildren path t s =
      (Site.mk path t).children.foldl (fun s c => v.walk c.path c.node s) s := by
  cases t <;> rfl

def run : Start → TypeExpr → σ → σ
  | .root, t, s => v.walk [] t s
  | .children, t, s => v.walkChildren [] t s

end Visitor

/-! ## Walks with an explicit stack -/

inductive Task
  | enter (site : Site)
  | leave (site : Site)
  deriving DecidableEq, Repr

namespace Task

/-- An upper bound on the turns of the loop that the task causes. -/
def weight : Task → Nat
  | .enter site => 2 * site.node.nodeCount
  | .leave _ => 1

/-- The weight of all pending tasks. -/
def load : List Task → Nat
  | [] => 0
  | task :: pending => task.weight + load pending

theorem load_append (tasks pending : List Task) :
    load (tasks ++ pending) = load tasks + load pending := by
  induction tasks with
  | nil => simp only [List.nil_append, load, Nat.zero_add]
  | cons task tasks ih => simp only [List.cons_append, load, ih, Nat.add_assoc]

theorem load_children (site : Site) :
    load (site.children.map .enter) + 2 = (Task.enter site).weight := by
  obtain ⟨path, node⟩ := site
  cases node <;> simp only [Site.children, List.map_cons, List.map_nil, load, weight,
    TypeExpr.nodeCount] <;> omega

end Task

namespace Visitor
variable {σ : Type} (v : Visitor σ)

/-- Entering a node leaves behind the task to leave it, below those for its children. -/
def runStack : List Task → σ → σ
  | [], s => s
  | .leave site :: pending, s => runStack pending (v.leave site s)
  | .enter site :: pending, s =>
    let (wanted, s) := v.enter site s
    runStack ((if wanted then site.children.map .enter else []) ++ .leave site :: pending) s
termination_by tasks => Task.load tasks
decreasing_by
  · simp only [Task.load, Task.weight]
    omega
  · have h := Task.load_children site
    simp only [Task.load_append, Task.load]
    split <;> simp only [Task.load, Task.weight] at h ⊢ <;> omega

end Visitor

/-! ## Recorders -/

inductive Order
  | pre | post
  deriving DecidableEq, Repr

/-- Nothing is walked below the variants where it stops, nor once it holds as many sites as its
limit. -/
structure Recorder where
  order : Order := .pre
  stop : Variant → Bool := fun _ => false
  limit : Option Nat := none

namespace Recorder

/-- The recorder that keeps the site where it starts and nothing below it. -/
def shallow : Recorder := ⟨.pre, fun _ => true, none⟩

def descends (r : Recorder) (site : Site) (recorded : Array Site) : Bool :=
  !r.stop site.node.variant && r.limit.all fun n => recorded.size < n

/-- A site recorded before its children counts against the limit at once. -/
def visitor (r : Recorder) : Visitor (Array Site) :=
  match r.order with
  | .pre =>
    { enter := fun site recorded =>
        let recorded := recorded.push site
        (r.descends site recorded, recorded) }
  | .post =>
    { enter := fun site recorded => (r.descends site recorded, recorded)
      leave := fun site recorded => recorded.push site }

def record (r : Recorder) (start : Start) (t : TypeExpr) : List Site :=
  (r.visitor.run start t #[]).toList

end Recorder

namespace TypeExpr

def preorder (t : TypeExpr) : List Site := ({ order := .pre } : Recorder).record .root t

def postorder (t : TypeExpr) : List Site := ({ order := .post } : Recorder).record .root t

end TypeExpr

end SchemaTypes
