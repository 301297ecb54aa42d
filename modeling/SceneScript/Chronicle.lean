import SceneScript.Callback
import SceneScript.Fiber
import SceneScript.Mixer
/-!
The chronicle: everything that happens, in order, each with the fiber that did it or with none for
the host.
-/

namespace SceneScript

inductive SceneCall where
  | load (job : SceneJob)
  | blocked (blocked : Bool)
  | board (color : Color)
  | switch (scene : String)
deriving Inhabited

/-- What a callback gives back to the script. -/
inductive Reply where
  | holds (truth : Bool)
  | label (name : String)
  | done
  /-- There is no callback under the handle. -/
  | unknown
deriving DecidableEq, Inhabited, Repr

inductive Deed where
  | published (f : Frame)
  | took (f : Frame)
  | stage (call : StageCall)
  | audio (call : SoundCall)
  | sound (event : SoundEvent)
  | scene (call : SceneCall)
  | event (e : Event)
  | remark (r : Remark)
  | note (n : Note)
  | replied (r : Reply)
  | outcome (run : Nat) (o : Outcome)
  | loaded (number : Nat) (o : Outcome)
deriving Inhabited

structure Entry where
  author : Option Nat
  deed : Deed
deriving Inhabited

namespace Deed

def event? : Deed → Option Event
  | .event e => some e
  | _ => none

def stage? : Deed → Option StageCall
  | .stage c => some c
  | _ => none

def scene? : Deed → Option SceneCall
  | .scene c => some c
  | _ => none

def took? : Deed → Option Frame
  | .took f => some f
  | _ => none

def note? : Deed → Option Note
  | .note n => some n
  | _ => none

def reply? : Deed → Option Reply
  | .replied r => some r
  | _ => none

def outcome? : Deed → Option (Nat × Outcome)
  | .outcome run o => some (run, o)
  | _ => none

end Deed

end SceneScript
