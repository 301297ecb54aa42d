import SceneScript.Span
import SceneScript.Stage
/-!
The commands of a script. Callbacks are referred to by their number in the registry.
-/

namespace SceneScript

inductive Opcode where
  | log
  | wait
  | text
  | choice
  | label
  | branch
  | switch
  | goto
  | boxState
  | image
  | portrait
  | flash
  | soundPlay
  | soundStop
  | sceneLoad
  | readModeStart
  | readModeText
  | readModeClear
  | readModeEnd
  | action
  | timer
  | timerStop
deriving DecidableEq, Inhabited, Repr

namespace Opcode

def all : List Opcode :=
  [log, wait, text, choice, label, branch, switch, goto, boxState, image, portrait, flash, soundPlay,
    soundStop, sceneLoad, readModeStart, readModeText, readModeClear, readModeEnd, action, timer,
    timerStop]

def name : Opcode → String
  | log => "log"
  | wait => "wait"
  | text => "text"
  | choice => "choice"
  | label => "label"
  | branch => "if"
  | switch => "switch"
  | goto => "goto"
  | boxState => "box_state"
  | image => "image"
  | portrait => "tachie"
  | flash => "flash"
  | soundPlay => "sound_play"
  | soundStop => "sound_stop"
  | sceneLoad => "map_scene_load"
  | readModeStart => "read_mode_start"
  | readModeText => "read_mode_text"
  | readModeClear => "read_mode_clear"
  | readModeEnd => "read_mode_end"
  | action => "action"
  | timer => "timer"
  | timerStop => "timer_stop"

/-- Opcodes after which a script may go on somewhere other than at the next command. -/
def isControlFlow : Opcode → Bool
  | label | branch | switch | goto => true
  | _ => false

end Opcode

inductive Command where
  | log (message : String)
  | wait (span : Span)
  | text (speaker body : String) (skippable : Bool) (nameBox : Place)
  | choice (options : List String)
  | label (name : String)
  /-- Goes on to the next command if the predicate holds, and to the label if not. -/
  | branch (predicate : Nat) (otherwise : String)
  | switch (selector : Nat)
  | goto (label : String)
  | boxState (opening : Bool)
  | image (layer : Nat) (texture : Option Texture) (span : Span) (start stop : Color)
  | portrait (place : Place) (texture : Option Texture) (span : Span) (start stop : Color)
  | flash (color : Color) (span hold : Span)
  | soundPlay (channel : Channel) (clip : Clip) (pitch : Float32)
  | soundStop (channel : Channel) (fade : Span)
  | sceneLoad (scene : String) (color : Color) (span : Span) (fadeMusic : Bool)
  | readModeStart
  | readModeText (text : String)
  | readModeClear
  | readModeEnd
  | action (action : Nat)
  | timer (minutes seconds centis : Nat)
  | timerStop
deriving BEq, Inhabited

namespace Command

def opcode : Command → Opcode
  | log .. => .log
  | wait .. => .wait
  | text .. => .text
  | choice .. => .choice
  | label .. => .label
  | branch .. => .branch
  | switch .. => .switch
  | goto .. => .goto
  | boxState .. => .boxState
  | image .. => .image
  | portrait .. => .portrait
  | flash .. => .flash
  | soundPlay .. => .soundPlay
  | soundStop .. => .soundStop
  | sceneLoad .. => .sceneLoad
  | readModeStart => .readModeStart
  | readModeText .. => .readModeText
  | readModeClear => .readModeClear
  | readModeEnd => .readModeEnd
  | action .. => .action
  | timer .. => .timer
  | timerStop => .timerStop

def choiceSeparator : Char := ','

def choiceOf (contents : String) : Command :=
  .choice (contents.splitOn (String.singleton choiceSeparator))

def labelName? : Command → Option String
  | label name => some name
  | _ => none

def isLabel (c : Command) : Bool := c.labelName?.isSome

end Command

end SceneScript
