import SceneScript.Asset
/-!
What can go wrong while a script is built, started or played.
-/

namespace SceneScript

inductive CallbackKind where
  | predicate
  | selector
  | action
deriving DecidableEq, Inhabited, Repr

def CallbackKind.caption : CallbackKind → String
  | predicate => "predicate"
  | selector => "switch"
  | action => "action"

inductive Failure where
  | emptyProgram
  | alreadyExecuting
  | unknownLabel (label : String)
  | duplicateLabel (label : String)
  | invalidFadeChannel (channel : Channel)
  /-- A handle that was issued elsewhere and resolves to nothing here. -/
  | unknownCallback (kind : CallbackKind) (index : Nat)
  | noPendingChoice
  | choiceOutOfRange (index available : Nat)
  | tooManyChoices (requested limit : Nat)
  | frameSourceClosed
  | sceneLoadInProgress
  | scene (text : String)
  | aborted (text : String)
deriving DecidableEq, Inhabited, Repr

def Failure.name : Failure → String
  | emptyProgram => "EmptyProgram"
  | alreadyExecuting => "AlreadyExecuting"
  | unknownLabel _ => "UnknownLabel"
  | duplicateLabel _ => "DuplicateLabel"
  | invalidFadeChannel _ => "InvalidFadeChannel"
  | unknownCallback .. => "UnknownCallback"
  | noPendingChoice => "NoPendingChoice"
  | choiceOutOfRange .. => "ChoiceOutOfRange"
  | tooManyChoices .. => "TooManyChoices"
  | frameSourceClosed => "FrameSourceClosed"
  | sceneLoadInProgress => "SceneLoadInProgress"
  | scene _ => "Scene"
  | aborted _ => "Aborted"

def Failure.message : Failure → String
  | emptyProgram => "program has no instructions"
  | alreadyExecuting => "another program is already executing"
  | unknownLabel label => "unknown label: " ++ label
  | duplicateLabel label => "duplicate label: " ++ label
  | invalidFadeChannel channel => "channel " ++ channel.caption ++ " does not support fading"
  | unknownCallback kind index => "unknown " ++ kind.caption ++ " handle #" ++ toString index
  | noPendingChoice => "no choice is pending"
  | choiceOutOfRange index available =>
    "choice " ++ toString index ++ " is out of range for " ++ toString available ++ " options"
  | tooManyChoices requested limit =>
    "choice has " ++ toString requested ++ " options but at most " ++ toString limit ++
      " can be shown"
  | frameSourceClosed => "frame source closed"
  | sceneLoadInProgress => "a scene load is already in progress"
  | scene text => "scene error: " ++ text
  | aborted text => "execution aborted: " ++ text

end SceneScript
