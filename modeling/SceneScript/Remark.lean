import SceneScript.Countdown
import SceneScript.Execution
/-!
What the player writes to the log.
-/

namespace SceneScript

inductive Level where
  | error
  | warn
  | info
  | debug
deriving DecidableEq, Inhabited, Repr

namespace Level

def all : List Level := [error, warn, info, debug]

def name : Level → String
  | error => "error"
  | warn => "warn"
  | info => "info"
  | debug => "debug"

def named? (s : String) : Option Level := all.find? (·.name = s)

def rank : Level → Nat
  | error => 0
  | warn => 1
  | info => 2
  | debug => 3

end Level

inductive Datum where
  | text (s : String)
  | nat (n : Nat)
  | int (n : Int)
  | flag (b : Bool)
  | single (x : Float32)
deriving Inhabited

structure Line where
  level : Level
  text : String
  fields : List (String × Datum)
deriving Inhabited

inductive Remark where
  | cursorLagged (skipped : Nat)
  | scriptLog (message : String)
  | strayLabel (label : String)
  | dispatching (index : Nat) (opcode : Opcode)
  | jump (label : String) (place : Nat)
  | textSkipped (visible total : Nat)
  | choiceMade (index : Nat) (option : String)
  | selectionRejected (index : Nat) (error : Failure)
  | soundStopRejected (channel : Channel) (error : Failure)
  | loadingScene (scene : String)
  | sceneLoadFailed (scene : String) (error : Failure)
  | tweenInterrupted (target : Target) (error : Failure)
  | tweenCancelled (target : Target)
  | sideEffectsCancelled
  | countdownStarted (countdown : Countdown)
  | countdownStopRequested
  | countdownStopped
  | countdownTimedOut
  | refusedEmpty
  | refusedLabelsOnly
  | stillExecuting
  | preprocessingFailed (error : Failure)
  | programCompleted
  | programAborted (error : Failure)
  | programCancelled
  | clipPlayed (channel : Channel) (clip : Clip) (pitch : Float32)
  | fadeUnsupported (channel : Channel)
  | fadeWithoutTasks (channel : Channel)
  | fadeInterrupted (channel : Channel) (error : Failure)
  | fadedOut (channel : Channel)
  | channelStopped (channel : Channel)
  | sceneBusy (scene : String)
  | musicFadeRejected (error : Failure)
  | sceneSwitched (scene : String)
  | sceneLoaded (scene : String)
  | boardMask (blocked : Bool)
  | cutsceneStarted (commands : Nat)
  | cutsceneAborted (error : Failure)
  | cutsceneFinished (frames : Nat)
  | choiceNotReady (error : Failure)
  | countdownRanOut
  | notification (event : Event)
deriving Inhabited

namespace Remark

open Datum in
def line : Remark → Line
  | cursorLagged skipped =>
    ⟨.warn, "frame cursor lagged behind the host", [("skipped", nat skipped)]⟩
  | scriptLog message => ⟨.info, "script log", [("message", text message)]⟩
  | strayLabel label =>
    ⟨.warn, "label reached the main loop; ignoring", [("label", text label)]⟩
  | dispatching index opcode =>
    ⟨.debug, "dispatching command", [("index", nat index), ("opcode", text opcode.name)]⟩
  | jump label place => ⟨.debug, "jump", [("label", text label), ("target", nat place)]⟩
  | textSkipped visible total =>
    ⟨.debug, "text reveal skipped", [("visible", nat visible), ("total", nat total)]⟩
  | choiceMade index option =>
    ⟨.info, "choice made", [("index", nat index), ("option", text option)]⟩
  | selectionRejected index error =>
    ⟨.warn, "choice selection rejected", [("index", nat index), ("error", text error.message)]⟩
  | soundStopRejected channel error =>
    ⟨.error, "sound stop rejected",
      [("channel", text channel.caption), ("error", text error.message)]⟩
  | loadingScene scene => ⟨.info, "loading map scene", [("scene", text scene)]⟩
  | sceneLoadFailed scene error =>
    ⟨.error, "map scene load failed", [("scene", text scene), ("error", text error.message)]⟩
  | tweenInterrupted target error =>
    ⟨.warn, "colour tween interrupted",
      [("target", text target.caption), ("error", text error.message)]⟩
  | tweenCancelled target =>
    ⟨.debug, "colour tween cancelled", [("target", text target.caption)]⟩
  | sideEffectsCancelled => ⟨.debug, "side effects cancelled", []⟩
  | countdownStarted countdown =>
    ⟨.info, "countdown started", [("countdown", text countdown.text)]⟩
  | countdownStopRequested => ⟨.debug, "countdown stop requested", []⟩
  | countdownStopped => ⟨.debug, "countdown stopped", []⟩
  | countdownTimedOut => ⟨.info, "countdown timed out", []⟩
  | refusedEmpty => ⟨.error, "refusing to execute a program without commands", []⟩
  | refusedLabelsOnly => ⟨.error, "refusing to execute a program that only contains labels", []⟩
  | stillExecuting => ⟨.warn, "previous program is still executing", []⟩
  | preprocessingFailed error =>
    ⟨.error, "program preprocessing failed", [("error", text error.message)]⟩
  | programCompleted => ⟨.info, "program completed", []⟩
  | programAborted error => ⟨.error, "program aborted", [("error", text error.message)]⟩
  | programCancelled => ⟨.warn, "program cancelled before completion", []⟩
  | clipPlayed channel clip pitch =>
    ⟨.debug, "clip played",
      [("channel", text channel.caption), ("clip", text clip.key), ("pitch", single pitch)]⟩
  | fadeUnsupported channel =>
    ⟨.error, "fade out is only supported on BGM and BGS", [("channel", text channel.caption)]⟩
  | fadeWithoutTasks channel =>
    ⟨.warn, "no async runtime; stopping without a fade", [("channel", text channel.caption)]⟩
  | fadeInterrupted channel error =>
    ⟨.warn, "fade interrupted", [("channel", text channel.caption), ("error", text error.message)]⟩
  | fadedOut channel => ⟨.info, "channel faded out", [("channel", text channel.caption)]⟩
  | channelStopped channel => ⟨.debug, "channel stopped", [("channel", text channel.caption)]⟩
  | sceneBusy scene =>
    ⟨.error, "cannot load multiple scenes at the same time", [("scene", text scene)]⟩
  | musicFadeRejected error =>
    ⟨.warn, "background music fade rejected", [("error", text error.message)]⟩
  | sceneSwitched scene => ⟨.info, "scene switched", [("scene", text scene)]⟩
  | sceneLoaded scene => ⟨.info, "scene loaded", [("scene", text scene)]⟩
  | boardMask blocked => ⟨.debug, "fade board input mask", [("blocked", flag blocked)]⟩
  | cutsceneStarted commands =>
    ⟨.info, "cutscene started", [("run_id", text ""), ("commands", nat commands)]⟩
  | cutsceneAborted error => ⟨.warn, "cutscene aborted", [("error", text error.message)]⟩
  | cutsceneFinished frames => ⟨.info, "cutscene finished", [("frames", nat frames)]⟩
  | choiceNotReady error => ⟨.debug, "choice not ready yet", [("error", text error.message)]⟩
  | countdownRanOut => ⟨.info, "countdown ran out", []⟩
  | notification event => ⟨.debug, "interpreter event", [("event", text event.name)]⟩

end Remark

end SceneScript
