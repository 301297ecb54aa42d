import SceneScript.World.Turn
/-!
The host's side of a performance: frames, time, permits, and the steps a host can take.
-/

namespace SceneScript

namespace World

/-! ### Frames -/

def publish (w : World) (delta : Span) (keys : Keys) : World :=
  let w := { w with feed := w.feed.publish delta keys }
  let w := w.record (.published ⟨w.feed.count, delta, keys⟩)
  w.wake fun b => b.wait == Wait.frame

/-- The host lets go of its handle on the feed; the subsystems keep theirs. -/
def dropClock (w : World) : World :=
  if w.rig.keptSources < w.feed.sources then
    { w with feed := { w.feed with sources := w.feed.sources - 1 } }
  else w

def tick (w : World) (delta : Span) (keys : Keys) : World :=
  (w.settle.publish delta keys).settle

/-! ### Time -/

def earlier (a : Option Span) (b : Span) : Option Span :=
  match a with
  | none => some b
  | some a => if b < a then some b else some a

def nextDue (w : World) : Option Span :=
  w.blocked.foldl (fun due b =>
    match b.wait with
    | .time t => earlier due t
    | _ => due) none

def reach (w : World) (time : Span) : World :=
  let w := { w with now := time }
  w.wake fun b =>
    match b.wait with
    | .time due => due ≤ time
    | _ => false

/-- Fires the timers before `goal`, or up to it if it is included, one after the other. Timers are at
least a millisecond apart, so `n` counts milliseconds. -/
def fireTimers (goal : Span) (included : Bool) : Nat → World → World
  | 0, w => w
  | n + 1, w =>
    match w.nextDue with
    | some due =>
      if due < goal ∨ (included ∧ due = goal) then fireTimers goal included n (w.reach due).settle
      else w
    | none => w

def timersUntil (w : World) (goal : Span) : Nat :=
  (goal.nanos - w.now.nanos) / Span.perMilli + 2

/-- Lets time pass; a timer due at the very end still fires. -/
def passTime (w : World) (span : Span) : World :=
  let w := w.settle
  let goal := (w.now + span).ceilMillis
  (fireTimers goal true (w.timersUntil goal) w).reach goal

/-! ### Gates -/

def grantPermits (w : World) (n : Nat) : World :=
  let w := { w with permits := w.permits + n }
  w.wake fun b => b.wait == Wait.permit

def grantRelease (w : World) : World :=
  let w := { w with releases := w.releases + 1 }
  w.wake fun b => b.wait == Wait.scene

/-! ### Tasks of the host -/

def spawnLoad (w : World) (acts : List Act) : World × Nat :=
  ({ w with loads := w.loads + 1 }.spawn (.load w.loads) none acts, w.loads)

def load (w : World) (job : SceneJob) : World × Nat := w.spawnLoad [.load job]

def boardIn (w : World) (color : Color) (span : Span) : World × Nat :=
  w.spawnLoad [.watchBoard, .sweep (.start .board (.board color 0 1) span)]

def boardOut (w : World) (span : Span) : World × Nat := w.spawnLoad [.clearBoard span]

def runFiber? (w : World) (number : Nat) : Option Fiber :=
  w.fibers.find? fun f =>
    match f.role with
    | .run r => r.number == number
    | _ => false

def loadFiber? (w : World) (number : Nat) : Option Fiber :=
  w.fibers.find? fun f =>
    match f.role with
    | .load n => n == number
    | _ => false

def abortFiber (w : World) : Option Fiber → World × Bool
  | some f => (w.abort f.id, true)
  | none => (w, false)

end World

/-! ### Steps -/

inductive HostStep where
  | execute (program : Nat)
  | tick (frames : List (Span × Keys))
  | burst (frames : List (Span × Keys))
  | sleep (span : Span)
  | select (index : Nat)
  | setChosen (index : Option Nat)
  | setVar (name : String) (value : Int)
  | abort (run : Nat)
  | finishAnimation (n : Nat)
  | cancelSideEffects
  | play (channel : Channel) (clip : Clip) (pitch : Float32)
  | fadeOut (channel : Channel) (span : Span)
  | stopChannel (channel : Channel)
  | load (job : SceneJob)
  | boardIn (color : Color) (span : Span)
  | boardOut (span : Span)
  | abortLoad (number : Nat)
  | release
  | failScenes (missing : Bool)
  | dropClock
  | look
deriving Inhabited

inductive HostReply where
  | done
  | failed (e : Failure)
  | number (n : Nat)
  | gone
deriving DecidableEq, Inhabited, Repr

namespace World

def reply {α : Type} (ok : α → HostReply) : Except Failure α → HostReply
  | .ok a => ok a
  | .error e => .failed e

def aborted : Bool → HostReply
  | true => .done
  | false => .gone

def apply (w : World) : HostStep → World × HostReply
  | .execute program =>
    let (w, r) := w.executeNumber program
    (w, reply .number r)
  | .tick frames =>
    let w := frames.foldl (fun w f => w.tick f.1 f.2) w
    (w, .number w.feed.count)
  | .burst frames =>
    let w := frames.foldl (fun w f => w.publish f.1 f.2) w
    (w, .number w.feed.count)
  | .sleep span => (w.passTime span, .done)
  | .select index =>
    let (w, r) := w.select index
    (w, reply (fun _ => .done) r)
  | .setChosen index => (w.setChosen index, .done)
  | .setVar name value => ({ w with vars := w.vars.set name value }, .done)
  | .abort run =>
    let (w, alive) := w.abortFiber (w.runFiber? run)
    (w, aborted alive)
  | .finishAnimation n => (w.grantPermits n, .done)
  | .cancelSideEffects => (w.cancelSideEffects, .done)
  | .play channel clip pitch => (w.play channel clip pitch, .done)
  | .fadeOut channel span =>
    let (w, r) := w.fadeOut channel span
    (w, reply (fun _ => .done) r)
  | .stopChannel channel => (w.stopChannel channel, .done)
  | .load job =>
    let (w, n) := w.load job
    (w, .number n)
  | .boardIn color span =>
    let (w, n) := w.boardIn color span
    (w, .number n)
  | .boardOut span =>
    let (w, n) := w.boardOut span
    (w, .number n)
  | .abortLoad number =>
    let (w, alive) := w.abortFiber (w.loadFiber? number)
    (w, aborted alive)
  | .release => (w.grantRelease, .done)
  | .failScenes missing => ({ w with sceneFails := missing }, .done)
  | .dropClock => (w.dropClock, .done)
  | .look => (w, .done)

/-- A step, with every fiber settled after it unless the host is not patient. -/
def step (w : World) (s : HostStep) (settles : Bool) : World × HostReply :=
  let (w, r) := w.apply s
  (if settles then w.settle else w, r)

end World

end SceneScript
