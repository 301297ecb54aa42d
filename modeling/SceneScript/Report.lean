import SceneScript.Console
import SceneScript.World.Host
/-!
What a host reads off the chronicle: the calls of each subsystem, the notifications that still fit
its buffer, the log.
-/

namespace SceneScript

structure Logbook where
  level : Option Level
  console : Option Console
deriving Inhabited

namespace Logbook

def keeps (b : Logbook) (l : Line) : Bool :=
  match b.level with
  | some level => l.level.rank ≤ level.rank
  | none => false

def write (b : Logbook) (lines : Array Line) : Deed → Logbook × Array Line
  | .remark r => (b, if b.keeps r.line then lines.push r.line else lines)
  | .stage call =>
    match b.console with
    | none => (b, lines)
    | some c =>
      ({ b with console := some (c.after call) },
        match c.line? call with
        | some l => if b.keeps l then lines.push l else lines
        | none => lines)
  | _ => (b, lines)

def writeAll (b : Logbook) (deeds : List Deed) : Logbook × Array Line :=
  deeds.foldl (fun (b, lines) d => b.write lines d) (b, #[])

end Logbook

inductive TimerMark where
  | text (t : String)
  | exit
deriving DecidableEq, Inhabited, Repr

namespace Report

def since (w : World) (mark : Nat) : List Deed :=
  (w.chronicle.extract mark w.chronicle.size).toList.map (·.deed)

/-- The last events that fit a buffer for `capacity`, after the number of events that were lost. -/
def buffered (capacity : Nat) (events : List Event) : Nat × List Event :=
  let lost := events.length - Feed.roundDepth capacity
  (lost, events.drop lost)

def timerMark? : StageCall → Option TimerMark
  | .setTimerText t => some (.text t)
  | .playAnimation .timerTextExit => some .exit
  | _ => none

def tint? : StageCall → Option (Target × Color)
  | .setColor .flash _ => none
  | .setColor target color => some (target, color)
  | _ => none

/-- Calls in the order of the script: all but tints and timer texts. -/
def isScripted (c : StageCall) : Bool := (timerMark? c).isNone && (tint? c).isNone

def stageCalls (deeds : List Deed) : List StageCall := deeds.filterMap (·.stage?)

def insertTint (acc : List (Target × List Color)) (target : Target) (color : Color) :
    List (Target × List Color) :=
  match acc with
  | [] => [(target, [color])]
  | (t, colors) :: rest =>
    if t = target then (t, colors ++ [color]) :: rest
    else (t, colors) :: insertTint rest target color

def tints (calls : List StageCall) : List (Target × List Color) :=
  (calls.filterMap tint?).foldl (fun acc (target, color) => insertTint acc target color) []

def outcome? : Deed → Option (Nat × Outcome) := Deed.outcome?

def loaded? : Deed → Option (Nat × Outcome)
  | .loaded number o => some (number, o)
  | _ => none

def audio? : Deed → Option SoundCall
  | .audio c => some c
  | _ => none

def sound? : Deed → Option SoundEvent
  | .sound e => some e
  | _ => none

def failure? : Outcome → Option Failure
  | .completed => none
  | .failed e => some e
  | .cancelled => some (.aborted "task was cancelled")
  | .panicked text => some (.aborted ("task panicked with message " ++ Text.quote text))

structure Summary where
  sentence : List Nat
  readVisible : List Nat
  readTexts : List String
  timer : List String
  animations : List Animation
  flash : List Color
deriving Inhabited

def summary (w : World) : Summary :=
  let calls := stageCalls (since w 0)
  { sentence := calls.filterMap fun
      | .setSentenceVisible n => some n
      | _ => none
    readVisible := calls.filterMap fun
      | .setReadModeVisible n => some n
      | _ => none
    readTexts := calls.filterMap fun
      | .setReadModeText t => some t
      | _ => none
    timer := calls.filterMap fun
      | .setTimerText t => some t
      | _ => none
    animations := calls.filterMap fun
      | .playAnimation a => some a
      | _ => none
    flash := calls.filterMap fun
      | .setColor .flash c => some c
      | _ => none }

end Report

end SceneScript
