import SceneScript.World.Basic
/-!
Calls of callbacks. A callback may change the world it is called in; a handle that resolves to
nothing changes nothing.
-/

namespace SceneScript

inductive Answer (α : Type) where
  | value (a : α)
  | panicked (text : String)
  | unknown
deriving Inhabited

/-- What the script hears of a call; a panic does not come back. -/
def Answer.reply? {α : Type} (f : α → Reply) : Answer α → Option Reply
  | .value a => some (f a)
  | .panicked _ => none
  | .unknown => some .unknown

namespace World

def noteReply (w : World) : Option Reply → World
  | some r => w.record (.replied r)
  | none => w

def note (w : World) (n : Note) : World := w.record (.note n)

def failure? {α : Type} : Except Failure α → Option Failure
  | .ok _ => none
  | .error e => some e

def runEffect (w : World) : Effect → World
  | .note text => w.note (.text text)
  | .set name value => { w with vars := w.vars.set name value }
  | .add name value => { w with vars := w.vars.set name (w.vars.get name + value) }
  | .execute program =>
    let (w, result) := w.executeNumber program
    w.note (.executed (failure? result))
  | .select index =>
    let (w, result) := w.select index
    w.note (.selected (failure? result))
  | .setChosen index => w.setChosen index
  | .view => w.note (.viewed w.state.view w.state.command)
  | .register kind =>
    let (registry, index) := w.registry.addIdle kind
    let w := { w with registry }
    w.note (.registered kind index)
  | .panic _ => w

/-- The steps of an action, up to the first panic. -/
def runEffects (w : World) : List Effect → World × Answer Unit
  | [] => (w, .value ())
  | .panic text :: _ => (w, .panicked text)
  | e :: rest => (w.runEffect e).runEffects rest

def answer {α : Type} : Except String α → Answer α
  | .ok a => .value a
  | .error text => .panicked text

def callPredicate (w : World) (index : Nat) : World × Answer Bool :=
  match w.registry.predicates[index]? with
  | none => (w, .unknown)
  | some p =>
    ({ w with registry := w.registry.callPredicate index },
      answer (p.body.answer p.calls w.state.chosen w.vars))

def callSelector (w : World) (index : Nat) : World × Answer String :=
  match w.registry.selectors[index]? with
  | none => (w, .unknown)
  | some s =>
    ({ w with registry := w.registry.callSelector index },
      answer (s.body.answer s.calls w.state.chosen w.vars))

def callAction (w : World) (index : Nat) : World × Answer Unit :=
  match w.registry.actions[index]? with
  | none => (w, .unknown)
  | some effects => w.runEffects effects

end World

end SceneScript
