import SceneScript.Act
import SceneScript.Program
/-!
Fibers: lists of acts still to do. The fiber of a run fetches the next command when its list is done;
every other fiber ends there.
-/

namespace SceneScript

structure Run where
  number : Nat
  program : Program
  pointer : Nat
  page : Page
deriving Inhabited

inductive Role where
  | run (r : Run)
  /-- A tween stops once the flag of its scope is up. -/
  | tween (target : Target) (scope : Nat)
  | countdown (timer stop : Nat)
  | fade (channel : Channel)
  | load (number : Nat)
deriving Inhabited

structure Fiber where
  id : Nat
  role : Role
  /-- Asked to stop: it is dropped when its turn comes. -/
  doomed : Bool
  todo : List Act
  /-- An error on its way to the act that handles it. -/
  fault : Option Failure
  cursor : Option Cursor
  boardCursor : Option Cursor
  /-- Keys pressed since it last began to listen. -/
  pressed : Keys
deriving Inhabited

namespace Fiber

def start (id : Nat) (role : Role) (cursor : Option Cursor) (todo : List Act) : Fiber :=
  ⟨id, role, false, todo, none, cursor, none, .nothing⟩

def run? (f : Fiber) : Option Run :=
  match f.role with
  | .run r => some r
  | _ => none

/-- The flag that ends this fiber's work when it is raised. -/
def watches (f : Fiber) : Option Nat :=
  match f.role with
  | .tween _ scope => some scope
  | .countdown _ stop => some stop
  | _ => none

def cursorOn (f : Fiber) : Lane → Option Cursor
  | .own => f.cursor
  | .board => f.boardCursor

def setCursor (f : Fiber) (lane : Lane) (c : Cursor) : Fiber :=
  match lane with
  | .own => { f with cursor := some c }
  | .board => { f with boardCursor := some c }

def cursorCount (f : Fiber) : Nat := f.cursor.toList.length + f.boardCursor.toList.length

def first (f : Fiber) (acts : List Act) : Fiber := { f with todo := acts ++ f.todo }

def fail (f : Fiber) (e : Failure) : Fiber := { f with fault := some e }

def isRelease : Act → Bool
  | .release => true
  | _ => false

def holdsScene (f : Fiber) : Bool := f.todo.any isRelease

end Fiber

inductive Wait where
  | frame
  | permit
  | answer (receiver : Nat)
  | scene
  | time (due : Span)
deriving DecidableEq, Inhabited, Repr

structure Parked where
  wait : Wait
  fiber : Fiber
deriving Inhabited

inductive Outcome where
  | completed
  | failed (error : Failure)
  | cancelled
  | panicked (text : String)
deriving DecidableEq, Inhabited, Repr

end SceneScript
