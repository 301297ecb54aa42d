import SceneScript.Color
import SceneScript.Json.Reader
import SceneScript.Settings
/-!
Values of the library read from JSON. Records come as objects, where an unknown name is skipped and a
known one may stand once, or as lists of their fields in order.
-/

namespace SceneScript

namespace Json

/-! ### Plain values -/

def nat? (bound : Nat) : Json → Option Nat
  | number (.nat n) => if n < bound then some n else none
  | _ => none

def int32? : Json → Option Int
  | number (.nat n) => if n < Nat.pow 2 31 then some n else none
  | number (.neg n) => if n ≤ Nat.pow 2 31 then some (-n) else none
  | _ => none

def bool? : Json → Option Bool
  | bool b => some b
  | _ => none

def text? : Json → Option String
  | text s => s
  | _ => none

/-- A number in single precision. Integers are rounded at once, reals twice. -/
def single? : Json → Option Float32
  | number (.nat n) => some n.toUInt64.toFloat32
  | number (.neg n) => some (-n.toUInt64.toFloat32)
  | number (.real x) => some x.toFloat32
  | _ => none

/-- One of several names, alone or as an object that gives it nothing. -/
def name? : Json → Option String
  | text s => s
  | object [(some name, null)] => some name
  | _ => none

/-! ### Records -/

def pick (fields : List (Option String × Json)) : List String → Option (List (Option Json))
  | [] => some []
  | name :: rest => do
    let found ←
      match fields.filter (·.1 == some name) with
      | [] => some none
      | [(_, v)] => some (some v)
      | _ => none
    let others ← pick fields rest
    pure (found :: others)

def record? (names : List String) : Json → Option (List (Option Json))
  | object fields => if fields.all (·.1.isSome) then pick fields names else none
  | list items =>
    if items.length ≤ names.length then
      some (items.map some ++ List.replicate (names.length - items.length) none)
    else none
  | _ => none

def withDefault {α : Type} (read : Json → Option α) (standard : α) : Option Json → Option α
  | none => some standard
  | some v => read v

end Json

namespace Color

def ofJson? (j : Json) : Option Color := do
  match ← j.record? ["r", "g", "b", "a"] with
  | [some r, some g, some b, some a] =>
    pure ⟨← r.single?, ← g.single?, ← b.single?, ← a.single?⟩
  | _ => none

end Color

namespace Place

def ofJson? (j : Json) : Option Place := j.name?.bind named?

end Place

namespace Channel

def ofJson? (j : Json) : Option Channel := j.name?.bind named?

end Channel

namespace Settings

def offsetsOfJson? : Json → Option (Int × Int × Int)
  | .list [x, y, z] => do pure (← x.int32?, ← y.int32?, ← z.int32?)
  | _ => none

def fieldNames : List String :=
  ["text_char_delay_ms", "read_mode_char_delay_ms", "countdown_interval_ms", "name_box_offsets",
    "system_speaker", "read_mode_line_break", "max_choices", "cancel_stale_effects",
    "event_capacity"]

def ofJson? (j : Json) : Option Settings := do
  match ← j.record? fieldNames with
  | [textDelay, readDelay, interval, offsets, speaker, lineBreak, choices, stale, capacity] =>
    let word := Json.nat? Json.natLimit
    pure {
      textCharDelay := ← Json.withDefault word standard.textCharDelay textDelay
      readModeCharDelay := ← Json.withDefault word standard.readModeCharDelay readDelay
      countdownInterval := ← Json.withDefault word standard.countdownInterval interval
      nameBoxOffsets := ← Json.withDefault offsetsOfJson? standard.nameBoxOffsets offsets
      systemSpeaker := ← Json.withDefault Json.text? standard.systemSpeaker speaker
      readModeLineBreak := ← Json.withDefault Json.text? standard.readModeLineBreak lineBreak
      maxChoices := ← Json.withDefault word standard.maxChoices choices
      cancelStaleEffects := ← Json.withDefault Json.bool? standard.cancelStaleEffects stale
      eventCapacity := ← Json.withDefault word standard.eventCapacity capacity }
  | _ => none

end Settings

end SceneScript
