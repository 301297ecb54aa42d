import SceneScript.Callback
import SceneScript.Decimal.Single
import SceneScript.Mixer
import SceneScript.Text.Quoted
/-!
Descriptions of the subsystems for people who look for faults: a name and, between braces, the fields;
two dots stand for the ones left out.
-/

namespace SceneScript.Describe

def field (name value : String) : String := name ++ ": " ++ value

def braces (name : String) (fields : List String) : String :=
  name ++ " \x7b " ++ ", ".intercalate fields ++ " \x7d"

def list (items : List String) : String := "[" ++ ", ".intercalate items ++ "]"

def truth (b : Bool) : String := if b then "true" else "false"

def clip (c : Clip) : String := "Clip(" ++ Text.quote c.key ++ ")"

def optionalClip : Option Clip → String
  | none => "None"
  | some c => "Some(" ++ clip c ++ ")"

def strip (s : Strip) : String :=
  braces "ChannelState"
    [field "channel" s.channel.name, field "clip" (optionalClip s.clip),
      field "pitch" (Decimal.Single.text s.pitch), field "volume" (Decimal.Single.text s.volume),
      field "playing" (truth s.playing), field "one_shots" (list (s.oneShots.toList.map clip))]

def mixer (m : Mixer) : String :=
  braces "SoundManager" [field "channels" (list (m.strips.toList.map strip)), ".."]

def fader (loading : Bool) : String := braces "SceneFader" [field "loading" (truth loading), ".."]

def registry (r : Registry) : String :=
  let (predicates, selectors, actions) := r.counts
  braces "CallbackRegistry"
    [field "predicates" (toString predicates), field "switches" (toString selectors),
      field "actions" (toString actions)]

end SceneScript.Describe
