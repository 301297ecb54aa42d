import SceneScript.Report
import SceneScript.Showcase.Harbour
import SceneScript.Showcase.Setup
/-!
The showcase: the harbour cutscene before a host that publishes frames at a fixed rate and plays the
part of the player, pressing confirm at regular intervals and always picking the same option.

The host reads notifications from a bounded buffer after every frame. If some were lost it reads none
of the others until the next frame.
-/

namespace SceneScript.Showcase

def autoChoice : Nat := 0

def rig : Rig := ⟨false, true, true, .board false⟩

structure Host where
  world : World
  frame : Nat
  due : Span
  choicePending : Bool
  mark : Nat
  inbox : List Event
deriving Inhabited

inductive Ending where
  | frames (n : Nat)
  | fault (f : Fault)
  | panicked (text : String)
deriving DecidableEq, Inhabited, Repr

namespace Host

def opening (setup : Setup) (hasty : Nat → Bool) : World :=
  let w := { World.new setup.settings rig Feed.defaultBacklog with hasty }
  let (registry, program) := harbour w.registry
  let (w, program, _) := { w with registry }.execute program
  w.remark (.cutsceneStarted program.length)

/-- Lets time pass up to the next frame. A timer that fires at the same moment has its turn after the
host. -/
def awaitFrame (w : World) (due : Span) : World :=
  if due ≤ w.now then w
  else
    let goal := due.ceilMillis
    let timers := w.timersUntil goal
    (World.fireTimers goal false timers w).reach goal

def pick (w : World) : World × Bool :=
  let w := { w with vars := w.vars.set routeVar autoChoice }
  match w.select autoChoice with
  | (w, .ok ()) => (w, false)
  | (w, .error e) => (w.remark (.choiceNotReady e), true)

def hear : World × Bool → Event → World × Bool
  | (w, _), .stepped _ .choice => (w, true)
  | (w, pending), .countdownTimedOut => (w.remark .countdownRanOut, pending)
  | (w, pending), .aborted e => (w.remark (.cutsceneAborted e), pending)
  | (w, pending), e => (w.remark (.notification e), pending)

/-- Reads the inbox, unless notifications were lost. -/
def readInbox : Host → Host
  | ⟨w, frame, due, pending, mark, inbox⟩ =>
    let events := (Report.since w mark).filterMap (·.event?)
    let mark := w.chronicle.size
    let (lost, inbox) := Report.buffered w.settings.eventCapacity (inbox ++ events)
    if lost = 0 then
      let (w, pending) := inbox.foldl hear (w, pending)
      ⟨w, frame, due, pending, mark, []⟩
    else ⟨w, frame, due, pending, mark, inbox⟩

def playFrame (setup : Setup) : Host → Host
  | ⟨w, frame, due, pending, mark, inbox⟩ =>
    let w := awaitFrame w due
    let frame := frame + 1
    let confirm := frame % setup.confirmEvery == 0
    let (w, pending) := if confirm && pending then pick w else (w, pending)
    let w := (w.publish setup.frameSpan ⟨confirm, false⟩).settle
    readInbox ⟨w, frame, due + setup.frameSpan, pending, mark, inbox⟩

def outcome? (w : World) : Option Outcome :=
  (Report.since w 0).findSome? fun d => (Report.outcome? d).map (·.2)

def isOver (w : World) : Bool := (w.runFiber? 0).isNone

def finish : Host → World × Ending
  | ⟨w, frame, _, _, _, _⟩ =>
    match (outcome? w).bind Report.failure? with
    | some e => (w, .fault (.dialogue e))
    | none => (w.remark (.cutsceneFinished frame), .frames frame)

def stop : Host → World × Ending
  | ⟨w, frame, _, _, _, _⟩ => ((w.abortFiber (w.runFiber? 0)).1, .fault (.timeout frame))

def play (setup : Setup) : Nat → Host → World × Ending
  | n, h =>
    if isOver h.world then h.finish
    else
      match n with
      | 0 => h.stop
      | n + 1 => play setup n (h.playFrame setup)

end Host

/-- Plays the cutscene. Frames need a length: a rate so high that none is left cannot be kept. -/
def play (setup : Setup) (hasty : Nat → Bool) : World × Ending :=
  let w := Host.opening setup hasty
  if setup.frameSpan = .zero then (w, .panicked "`period` must be non-zero.")
  else
    let (w, ending) := Host.play setup setup.maxFrames ⟨w, 0, .zero, false, 0, []⟩
    (w.settle, ending)

end SceneScript.Showcase
