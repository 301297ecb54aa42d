import SceneScript.Asset
import SceneScript.Color
/-!
The primitives of the picture: what a script can ask the stage to show.
-/

namespace SceneScript

inductive Target where
  | image (layer : Nat)
  | portrait (place : Place)
  | flash
deriving DecidableEq, Inhabited, Repr

def Target.caption : Target → String
  | image layer => "Image(" ++ toString layer ++ ")"
  | portrait place => "Tachie(" ++ place.name ++ ")"
  | flash => "Flash"

def Target.path : Target → String
  | image layer => "image:" ++ toString layer
  | portrait place => "tachie:" ++ place.name
  | flash => "flash"

inductive Animation where
  | sentenceBoxOpen
  | sentenceBoxClose
  | choiceBoxOpen
  | choiceBoxClose
  | readModeEnter
  | readModeExit
  | readModeSentenceClean
  | readModeSentenceEnter
  | timerTextEnter
  | timerTextExit
deriving DecidableEq, Inhabited, Repr

namespace Animation

def all : List Animation :=
  [sentenceBoxOpen, sentenceBoxClose, choiceBoxOpen, choiceBoxClose, readModeEnter, readModeExit,
    readModeSentenceClean, readModeSentenceEnter, timerTextEnter, timerTextExit]

def clipName : Animation → String
  | sentenceBoxOpen => "SentenceBoxOpen"
  | sentenceBoxClose => "SentenceBoxClose"
  | choiceBoxOpen => "ChoiceBoxOpen"
  | choiceBoxClose => "ChoiceBoxClose"
  | readModeEnter => "ReadModeEnter"
  | readModeExit => "ReadModeExit"
  | readModeSentenceClean => "ReadModeSentenceClean"
  | readModeSentenceEnter => "ReadModeSentenceEnter"
  | timerTextEnter => "TimerTextEnter"
  | timerTextExit => "TimerTextExit"

end Animation

inductive StageCall where
  | showNameBox (name : String) (x : Int)
  | hideNameBox
  | setSentence (text : String)
  | setSentenceVisible (count : Nat)
  | setWaitIndicator (visible : Bool)
  | setCursorVisible (visible : Bool)
  | setInputBlocked (blocked : Bool)
  | showChoices (options : List String)
  | hideChoices
  | setTexture (target : Target) (texture : Texture)
  | setColor (target : Target) (color : Color)
  | setReadModeBackground (visible : Bool)
  | setReadModeText (text : String)
  | setReadModeVisible (count : Nat)
  | setTimerText (text : String)
  | playAnimation (animation : Animation)
  | animationFinished (animation : Animation)
deriving Inhabited

def StageCall.name : StageCall → String
  | showNameBox .. => "show_name_box"
  | hideNameBox => "hide_name_box"
  | setSentence _ => "set_sentence"
  | setSentenceVisible _ => "set_sentence_visible"
  | setWaitIndicator _ => "set_wait_indicator"
  | setCursorVisible _ => "set_cursor_visible"
  | setInputBlocked _ => "set_input_blocked"
  | showChoices _ => "show_choices"
  | hideChoices => "hide_choices"
  | setTexture .. => "set_texture"
  | setColor .. => "set_color"
  | setReadModeBackground _ => "set_read_mode_background"
  | setReadModeText _ => "set_read_mode_text"
  | setReadModeVisible _ => "set_read_mode_visible"
  | setTimerText _ => "set_timer_text"
  | playAnimation _ => "play_animation"
  | animationFinished _ => "animation_finished"

end SceneScript
