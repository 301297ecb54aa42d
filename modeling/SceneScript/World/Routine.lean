import SceneScript.World.Callback
/-!
Callbacks as code of the host, which may call the registry back. A routine is such code, cut at its
calls of the registry; what it does between two of them leaves the registry alone. A conduct says what
each callback does, and the callbacks of scripts follow one (`scripted`).
-/

namespace SceneScript

namespace CallbackKind

/-- What a callback of this kind gives back. -/
abbrev Result : CallbackKind → Type
  | predicate => Bool
  | selector => String
  | action => Unit

/-- What is registered as a callback of this kind. -/
abbrev Body : CallbackKind → Type
  | predicate => Predicate
  | selector => Selector
  | action => List Effect

def idle : (kind : CallbackKind) → kind.Body
  | predicate => .constant true
  | selector => .constant ""
  | action => []

end CallbackKind

namespace Registry

def add (r : Registry) : (kind : CallbackKind) → kind.Body → Registry × Nat
  | .predicate, body => r.addPredicate body
  | .selector, body => r.addSelector body
  | .action, body => r.addAction body

def bodies (r : Registry) : (kind : CallbackKind) → List kind.Body
  | .predicate => r.predicates.toList.map (·.body)
  | .selector => r.selectors.toList.map (·.body)
  | .action => r.actions.toList

/-- What a handle resolves to. -/
def body? (r : Registry) (kind : CallbackKind) (index : Nat) : Option kind.Body :=
  (r.bodies kind)[index]?

/-- How often a callback was called. Nobody counts the calls of an action. -/
def calls (r : Registry) : CallbackKind → Nat → Nat
  | .predicate, index => (r.predicates[index]?.map (·.calls)).getD 0
  | .selector, index => (r.selectors[index]?.map (·.calls)).getD 0
  | .action, _ => 0

def countCall (r : Registry) : CallbackKind → Nat → Registry
  | .predicate, index => r.callPredicate index
  | .selector, index => r.callSelector index
  | .action, _ => r

end Registry

/-! ### Routines -/

/-- How a call comes back to its caller. -/
inductive Returned (α : Type) where
  | value (a : α)
  | failed (e : Failure)
  | panicked (text : String)

structure Work where
  run : World → World
  aside : ∀ w, (run w).registry = w.registry

/-- What follows a call depends on what comes back; a panic may be caught or passed on. -/
inductive Routine (α : Type) where
  | give (a : α)
  | panic (text : String)
  | work (job : Work) (rest : World → Routine α)
  | register (kind : CallbackKind) (body : kind.Body) (rest : Nat → Routine α)
  | call (kind : CallbackKind) (index : Nat) (rest : Returned kind.Result → Routine α)

/-- What a callback does when it is called, given its earlier calls and the world it is called in. -/
abbrev Conduct := (kind : CallbackKind) → kind.Body → Nat → World → Routine kind.Result

namespace Registry

inductive Deal where
  | registered (kind : CallbackKind) (body : kind.Body) (index : Nat)
  | entered (kind : CallbackKind) (body : kind.Body) (index : Nat)
  | missed (kind : CallbackKind) (index : Nat)

/-- A deal with the registry, and the world as it was before. -/
structure Mark where
  world : World
  deal : Deal

structure Session where
  world : World
  marks : List Mark

namespace Session

def opening (w : World) : Session := ⟨{ w with registry := .empty }, []⟩

def note (s : Session) (deal : Deal) (w : World) : Session := ⟨w, s.marks ++ [⟨s.world, deal⟩]⟩

def register (s : Session) (kind : CallbackKind) (body : kind.Body) : Session × Nat :=
  let (registry, index) := s.world.registry.add kind body
  (s.note (.registered kind body index) { s.world with registry }, index)

def enter (s : Session) (kind : CallbackKind) (body : kind.Body) (index : Nat) : Session :=
  s.note (.entered kind body index)
    { s.world with registry := s.world.registry.countCall kind index }

def miss (s : Session) (kind : CallbackKind) (index : Nat) : Session :=
  s.note (.missed kind index) s.world

end Session

end Registry

/-- Nothing comes back when calls nest deeper than `call` lets them. -/
def Routine.run {α : Type}
    (call : Registry.Session → (kind : CallbackKind) → Nat →
      Registry.Session × Option (Returned kind.Result)) :
    Routine α → Registry.Session → Registry.Session × Option (Returned α)
  | .give a, s => (s, some (.value a))
  | .panic text, s => (s, some (.panicked text))
  | .work job rest, s => (rest (job.run s.world)).run call { s with world := job.run s.world }
  | .register kind body rest, s =>
    let (s, index) := s.register kind body
    (rest index).run call s
  | .call kind index rest, s =>
    match call s kind index with
    | (s, some returned) => (rest returned).run call s
    | (s, none) => (s, none)

namespace Registry.Session

/-- Calls a callback. While it runs, calls may nest `depth` deep, itself included. -/
def call (conduct : Conduct) : Nat → Session → (kind : CallbackKind) → Nat →
    Session × Option (Returned kind.Result)
  | depth, s, kind, index =>
    match s.world.registry.body? kind index, depth with
    | none, _ => (s.miss kind index, some (.failed (.unknownCallback kind index)))
    | some _, 0 => (s, none)
    | some body, depth + 1 =>
      (conduct kind body (s.world.registry.calls kind index) s.world).run (call conduct depth)
        (s.enter kind body index)

/-- The session of a host that starts with an empty registry. -/
def play (conduct : Conduct) (depth : Nat) (w : World) (host : Routine Unit) : Session :=
  (host.run (call conduct depth) (opening w)).1

end Registry.Session

/-! ### Scripts -/

namespace Routine

def ofExcept {α : Type} : Except String α → Routine α
  | .ok a => .give a
  | .error text => .panic text

def ofEffects : List Effect → Routine Unit
  | [] => .give ()
  | .panic text :: _ => .panic text
  | .register kind :: rest =>
    .register kind kind.idle fun index =>
      .work ⟨(·.note (.registered kind index)), fun _ => rfl⟩ fun _ => ofEffects rest
  | e :: rest =>
    .work ⟨fun w => { w.runEffect e with registry := w.registry }, fun _ => rfl⟩ fun _ =>
      ofEffects rest

end Routine

/-- What the callbacks of scripts do. -/
def scripted : Conduct
  | .predicate, p, calls, w => .ofExcept (p.answer calls w.state.chosen w.vars)
  | .selector, s, calls, w => .ofExcept (s.answer calls w.state.chosen w.vars)
  | .action, effects, _, _ => .ofEffects effects

def Answer.returned {α : Type} (kind : CallbackKind) (index : Nat) : Answer α → Returned α
  | .value a => .value a
  | .panicked text => .panicked text
  | .unknown => .failed (.unknownCallback kind index)

def World.callBack (w : World) : (kind : CallbackKind) → Nat → World × Answer kind.Result
  | .predicate, index => w.callPredicate index
  | .selector, index => w.callSelector index
  | .action, index => w.callAction index

end SceneScript
