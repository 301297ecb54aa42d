import SceneScript.Failure
import SceneScript.Json.Record
import SceneScript.Text.Property
/-!
The set-up of the showcase, read from named texts. The first of several faults wins, in the order
settings file, frame rate, confirm interval, frame limit.
-/

namespace SceneScript.Showcase

inductive Fault where
  | config (text : String)
  | unreadable
  | malformed
  | dialogue (e : Failure)
  | timeout (frames : Nat)
deriving DecidableEq, Inhabited, Repr

def Fault.message? : Fault → Option String
  | config text => some ("configuration error: " ++ text)
  | dialogue e => some ("dialogue error: " ++ e.message)
  | timeout frames => some ("cutscene still running after " ++ toString frames ++ " frames")
  | unreadable | malformed => none

/-! ### Numbers in texts -/

inductive NumberFault where
  | empty
  | digit
  | large
deriving DecidableEq, Inhabited, Repr

def NumberFault.message : NumberFault → String
  | empty => "cannot parse integer from empty string"
  | digit => "invalid digit found in string"
  | large => "number too large to fit in target type"

/-- Reads digits from the left. At every one a character that is no digit comes before a value that
reaches the bound. -/
def readDigits (bound : Nat) : Nat → List Char → Except NumberFault Nat
  | n, [] => .ok n
  | n, c :: rest =>
    if !c.isDigit then .error .digit
    else
      let next := n * 10 + (c.toNat - '0'.toNat)
      if next < bound then readDigits bound next rest else .error .large

def readNumber (bound : Nat) (s : String) : Except NumberFault Nat :=
  match s.toList with
  | [] => .error .empty
  | '+' :: c :: rest => readDigits bound 0 (c :: rest)
  | cs => readDigits bound 0 cs

/-! ### The set-up -/

structure Setup where
  settings : Settings
  frameRate : Nat
  confirmEvery : Nat
  maxFrames : Nat
deriving Inhabited

namespace Setup

def frameSpan (s : Setup) : Span := ⟨Span.perSecond / s.frameRate⟩

def number (lookup : String → Option String) (key : String) (bound standard : Nat) :
    Except Fault Nat :=
  match lookup key with
  | none => .ok standard
  | some raw =>
    match readNumber bound (Text.trim raw) with
    | .ok n => .ok n
    | .error e => .error (.config (key ++ " must be a valid number: " ++ e.message))

def settingsOf (lookup readFile : String → Option String) : Except Fault Settings :=
  match lookup "DIALOGUE_CONFIG" with
  | none => .ok .standard
  | some path =>
    match readFile path with
    | none => .error .unreadable
    | some raw =>
      match (Json.read? raw).bind Settings.ofJson? with
      | none => .error .malformed
      | some s => .ok s

def ofLookup (lookup readFile : String → Option String) : Except Fault Setup := do
  let settings ← settingsOf lookup readFile
  let frameRate ← number lookup "FRAME_RATE" (Nat.pow 2 32) 60
  if frameRate = 0 then throw (.config "FRAME_RATE must be positive")
  let confirmEvery ← number lookup "AUTO_CONFIRM_FRAMES" (Nat.pow 2 64) 20
  let maxFrames ← number lookup "MAX_FRAMES" (Nat.pow 2 64) 36000
  pure ⟨settings, frameRate, max confirmEvery 1, maxFrames⟩

end Setup

end SceneScript.Showcase
