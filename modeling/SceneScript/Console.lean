import SceneScript.Remark
import SceneScript.Text.Quoted
/-!
A stage without a picture: it writes down what a player would see. A line of dialogue is written once,
when its last character appears.
-/

namespace SceneScript

structure Console where
  speaker : Option String
  text : String
  visible : Nat
deriving DecidableEq, Inhabited, Repr

namespace Console

def blank : Console := ⟨none, "", 0⟩

def after (c : Console) : StageCall → Console
  | .showNameBox name _ => { c with speaker := some name }
  | .hideNameBox => { c with speaker := none }
  | .setSentence text => { c with text := text, visible := 0 }
  | .setSentenceVisible count => { c with visible := count }
  | _ => c

def dialogue (c : Console) : Line :=
  ⟨.info, "dialogue", [("speaker", .text (c.speaker.getD "-")), ("line", .text c.text)]⟩

def line? (c : Console) : StageCall → Option Line
  | .showNameBox name x => some ⟨.debug, "name box shown", [("name", .text name), ("x", .int x)]⟩
  | .setSentenceVisible count =>
    if count = c.text.length ∧ c.visible < c.text.length then some c.dialogue else none
  | .setWaitIndicator visible => some ⟨.debug, "wait indicator", [("visible", .flag visible)]⟩
  | .setCursorVisible visible => some ⟨.debug, "cursor", [("visible", .flag visible)]⟩
  | .setInputBlocked blocked => some ⟨.debug, "input mask", [("blocked", .flag blocked)]⟩
  | .showChoices options =>
    some ⟨.info, "choices shown", [("options", .text (Text.quoteList options))]⟩
  | .hideChoices => some ⟨.debug, "choices hidden", []⟩
  | .setTexture target texture =>
    some ⟨.info, "sprite assigned",
      [("target", .text target.caption), ("texture", .text texture.key)]⟩
  | .setColor target color =>
    some ⟨.debug, "tint", [("target", .text target.caption), ("alpha", .single color.a)]⟩
  | .setReadModeBackground visible =>
    some ⟨.debug, "read-mode backdrop", [("visible", .flag visible)]⟩
  | .setReadModeText page =>
    if page.isEmpty then none else some ⟨.info, "read mode", [("page", .text page)]⟩
  | .setTimerText caption => some ⟨.debug, "timer", [("text", .text caption)]⟩
  | .playAnimation a => some ⟨.debug, "animation started", [("animation", .text a.clipName)]⟩
  | .hideNameBox | .setSentence _ | .setReadModeVisible _ | .animationFinished _ => none

end Console

end SceneScript
