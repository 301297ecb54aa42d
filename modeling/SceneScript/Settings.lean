import SceneScript.Asset
import SceneScript.Span
/-!
The tunables of the player.
-/

namespace SceneScript

structure Settings where
  textCharDelay : Nat
  readModeCharDelay : Nat
  countdownInterval : Nat
  nameBoxOffsets : Int × Int × Int
  systemSpeaker : String
  readModeLineBreak : String
  maxChoices : Nat
  /-- Whether a new run cancels the tweens and the countdown of the run before. -/
  cancelStaleEffects : Bool
  eventCapacity : Nat
deriving DecidableEq, Repr

namespace Settings

def standard : Settings where
  textCharDelay := 50
  readModeCharDelay := 10
  countdownInterval := 10
  nameBoxOffsets := (152, 960, 1768)
  systemSpeaker := "System"
  readModeLineBreak := "[下一行]"
  maxChoices := 5
  cancelStaleEffects := true
  eventCapacity := 256

instance : Inhabited Settings := ⟨standard⟩

def textDelay (s : Settings) : Span := .ofMillis s.textCharDelay

def readModeDelay (s : Settings) : Span := .ofMillis s.readModeCharDelay

def tickPeriod (s : Settings) : Span := .ofMillis (max s.countdownInterval 1)

def nameBoxOffset (s : Settings) : Place → Int
  | .left => s.nameBoxOffsets.1
  | .centre => s.nameBoxOffsets.2.1
  | .right => s.nameBoxOffsets.2.2

end Settings

end SceneScript
