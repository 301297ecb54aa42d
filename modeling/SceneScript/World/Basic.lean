import SceneScript.Chronicle
import SceneScript.Flag
import SceneScript.Offer
/-!
The state of a performance, and the operations that fibers and the host share.

Fibers take turns. The head of `ready` runs until it suspends; whatever makes others runnable puts
them at the end of `ready` in the order in which they began to wait.
-/

namespace SceneScript

inductive SceneRig where
  /-- Loads are noted and succeed at once. -/
  | noted
  | failing
  /-- Loads fade a board; behind a gate every change of scene waits for a release. -/
  | board (gated : Bool)
deriving DecidableEq, Inhabited, Repr

structure Rig where
  gatedStage : Bool
  mixed : Bool
  /-- Whether the mixer can run fades in the background. -/
  tasks : Bool
  scenes : SceneRig
deriving DecidableEq, Inhabited, Repr

def Rig.keptSources (rig : Rig) : Nat :=
  let board := match rig.scenes with
    | .board _ => 1
    | _ => 0
  1 + (if rig.mixed then 1 else 0) + board

/-- A countdown that was started, and the flag that stops it. -/
structure Timer where
  left : Countdown
  stop : Nat
deriving DecidableEq, Inhabited, Repr

structure World where
  settings : Settings
  rig : Rig
  feed : Feed
  now : Span
  state : Execution
  slot : ChoiceSlot
  registry : Registry
  vars : Vars
  programs : Array Program
  flags : Flags
  scope : Nat
  /-- Every countdown so far; the last one is the one on show. -/
  timers : Array Timer
  mixer : Mixer
  loading : Bool
  boardColor : Color
  sceneFails : Bool
  permits : Nat
  releases : Nat
  ready : List Fiber
  blocked : List Parked
  nextFiber : Nat
  /-- The tweens, by the numbers of their fibers, that look for a frame before they look whether their
  scope was cancelled. Which of them do is up to the scheduler. -/
  hasty : Nat → Bool
  runs : Nat
  loads : Nat
  actor : Option Nat
  chronicle : Array Entry
deriving Inhabited

namespace World

def new (settings : Settings) (rig : Rig) (backlog : Nat) : World :=
  let (flags, scope) := Flags.empty.fresh
  { settings, rig, flags, scope
    feed := { Feed.new backlog with sources := rig.keptSources + 1 }
    now := .zero
    state := .idle
    slot := .empty
    registry := .empty
    vars := .empty
    programs := #[]
    timers := #[]
    mixer := .silent
    loading := false
    boardColor := .transparent
    sceneFails := false
    permits := 0
    releases := 0
    ready := []
    blocked := []
    nextFiber := 0
    hasty := fun _ => true
    runs := 0
    loads := 0
    actor := none
    chronicle := #[] }

/-! ### The chronicle -/

def record (w : World) (d : Deed) : World :=
  { w with chronicle := w.chronicle.push ⟨w.actor, d⟩ }

def remark (w : World) (r : Remark) : World := w.record (.remark r)

def emit (w : World) (e : Event) : World := w.record (.event e)

def stage (w : World) (c : StageCall) : World := w.record (.stage c)

/-! ### Fibers -/

def resume (w : World) (f : Fiber) : World := { w with ready := f :: w.ready }

def park (w : World) (wait : Wait) (f : Fiber) : World :=
  { w with blocked := w.blocked ++ [⟨wait, f⟩] }

/-- A new fiber runs for the first time after the ones that are ready now. -/
def spawn (w : World) (role : Role) (cursor : Option Cursor) (todo : List Act) : World :=
  { w with
    nextFiber := w.nextFiber + 1
    ready := w.ready ++ [.start w.nextFiber role cursor todo] }

def wake (w : World) (p : Parked → Bool) : World :=
  { w with
    ready := w.ready ++ (w.blocked.filter p).map (·.fiber),
    blocked := w.blocked.filter fun b => !p b }

def fibers (w : World) : List Fiber := w.ready ++ w.blocked.map (·.fiber)

def doom (id : Nat) (f : Fiber) : Fiber := if f.id = id then { f with doomed := true } else f

/-- Asks a fiber to stop where it stands. -/
def abort (w : World) (id : Nat) : World :=
  let w := { w with
    ready := w.ready.map (doom id),
    blocked := w.blocked.map fun (b : Parked) => ⟨b.wait, doom id b.fiber⟩ }
  w.wake fun b => b.fiber.id == id

def cursorCount (w : World) : Nat := w.fibers.foldr (fun f n => f.cursorCount + n) 0

def raise (w : World) (flag : Nat) : World :=
  let w := { w with flags := w.flags.raise flag }
  w.wake fun b => b.fiber.watches == some flag

/-! ### Effects in the background -/

def stopCountdown (w : World) : World :=
  match w.timers.back? with
  | some t => w.raise t.stop
  | none => w

def freshScope (w : World) : World :=
  let (flags, scope) := w.flags.fresh
  { w with flags, scope }

def renewScope (w : World) : World :=
  let old := w.scope
  let w := w.freshScope
  if w.settings.cancelStaleEffects then (w.raise old).stopCountdown else w

/-- Stops the tweens of the current scope and the countdown. -/
def cancelSideEffects (w : World) : World :=
  let old := w.scope
  (w.freshScope.raise old).stopCountdown.remark .sideEffectsCancelled

def startCountdown (w : World) (c : Countdown) : World :=
  let w := w.stopCountdown
  let w := w.stage (.playAnimation .timerTextEnter)
  let w := w.stage (.setTimerText c.text)
  let w := w.remark (.countdownStarted c)
  let (flags, stop) := w.flags.fresh
  let timer := w.timers.size
  let w := { w with flags, timers := w.timers.push ⟨c, stop⟩ }
  w.spawn (.countdown timer stop) none [.count timer none]

def isCountingDown (w : World) : Bool :=
  match w.timers.back? with
  | some t => !w.flags.isRaised t.stop
  | none => false

/-! ### Sound -/

def modifyStrip (w : World) (channel : Channel) (f : Strip → Strip) : World :=
  { w with mixer := w.mixer.modifyStrip channel f }

def setFade (w : World) (channel : Channel) (task : Option Nat) : World :=
  { w with mixer := w.mixer.setFade channel task }

def cancelFade (w : World) (channel : Channel) : World :=
  match w.mixer.fades.get channel with
  | some task => (w.setFade channel none).abort task
  | none => w

def silence (w : World) (channel : Channel) : World :=
  ((w.modifyStrip channel Strip.stop).remark (.fadedOut channel)).record (.sound (.fadedOut channel))

def play (w : World) (channel : Channel) (clip : Clip) (pitch : Float32) : World :=
  if w.rig.mixed then
    let w := if channel.isLooping then w.cancelFade channel else w
    let w := w.modifyStrip channel fun s => s.play clip pitch
    (w.remark (.clipPlayed channel clip pitch)).record (.sound (.played channel clip))
  else w.record (.audio (.play channel clip pitch))

def fadeOut (w : World) (channel : Channel) (span : Span) : World × Except Failure Unit :=
  if w.rig.mixed then
    if !channel.isLooping then
      (w.remark (.fadeUnsupported channel), .error (.invalidFadeChannel channel))
    else
      let w := w.cancelFade channel
      if w.rig.tasks then
        let task := w.nextFiber
        let sweep := Sweep.start .own (.volume channel) span
        let w := w.spawn (.fade channel) (some w.feed.subscribe) [.sweep sweep, .silence channel]
        (w.setFade channel (some task), .ok ())
      else ((w.remark (.fadeWithoutTasks channel)).silence channel, .ok ())
  else if !channel.isLooping then (w, .error (.invalidFadeChannel channel))
  else (w.record (.audio (.fadeOut channel span)), .ok ())

def stopChannel (w : World) (channel : Channel) : World :=
  ((w.cancelFade channel).modifyStrip channel Strip.stop).remark (.channelStopped channel)

/-! ### Scenes -/

def setBoard (w : World) (color : Color) : World :=
  let w := { w with boardColor := color }
  w.record (.scene (.board color))

def maskBoard (w : World) (blocked : Bool) : World :=
  (w.record (.scene (.blocked blocked))).remark (.boardMask blocked)

def enterScene (w : World) (scene : String) : World × Except Failure Unit :=
  if w.sceneFails then (w, .error (.scene (scene ++ " missing")))
  else if scene.isEmpty then (w, .error (.scene "scene name is empty"))
  else (w.remark (.sceneLoaded scene), .ok ())

/-! ### Choices -/

/-- The host picks an option. The pick is remembered before the fiber can see it, and forgotten again
if nobody takes it. -/
def select (w : World) (index : Nat) : World × Except Failure Unit :=
  match w.slot.select index with
  | (slot, .ok ()) =>
    let receiver := (w.slot.pending.map (·.receiver)).getD 0
    let w := { w with slot, state := { w.state with chosen := some index } }
    (w.wake fun b => b.wait == Wait.answer receiver, .ok ())
  | (slot, .error e) =>
    let w := { w with slot }
    (w.remark (.selectionRejected index e), .error e)

def setChosen (w : World) (index : Option Nat) : World :=
  { w with state := { w.state with chosen := index } }

def closeSlot (w : World) : World :=
  let closed := { w with slot := w.slot.close }
  match w.slot.pending with
  | some offer => closed.wake fun b => b.wait == Wait.answer offer.receiver
  | none => closed

/-! ### Runs -/

def settleIdle (w : World) : World :=
  let w := { w with state := w.state.reset }
  (w.closeSlot.stage (.setInputBlocked false)).stage (.setCursorVisible true)

/-- Starts a program. A rejected one changes nothing, except that a program of nothing but labels
comes back resolved. -/
def execute (w : World) (p : Program) : World × Program × Except Failure Nat :=
  if p.isEmpty then (w.remark .refusedEmpty, p, .error .emptyProgram)
  else if w.state.executing then (w.remark .stillExecuting, p, .error .alreadyExecuting)
  else
    match p.preprocess with
    | .error e => (w.remark (.preprocessingFailed e), p, .error e)
    | .ok p =>
      if p.isEmpty then (w.remark .refusedLabelsOnly, p, .error .emptyProgram)
      else
        let number := w.runs
        let w := { w with state := w.state.begin number, runs := number + 1 }
        let w := w.renewScope
        let cursor := w.feed.subscribe
        let w := w.stage (.setInputBlocked true)
        let w := w.stage (.setCursorVisible false)
        let w := w.emit (.started number)
        (w.spawn (.run ⟨number, p, 0, .empty⟩) (some cursor) [], p, .ok number)

def executeNumber (w : World) (program : Nat) : World × Except Failure Nat :=
  let (w, p, result) := w.execute (w.programs.getD program (.ofCommands []))
  ({ w with programs := w.programs.setIfInBounds program p }, result)

end World

end SceneScript
