import SceneScript.Frame
import SceneScript.Remark
import SceneScript.Settings
/-!
Acts, the small steps that commands are made of, and the acts of every command.

All waiting for time is one act, the sweep: it paints, takes a frame, and goes on until the deltas of
the frames it took add up to its span. A wait is a sweep that paints nothing; a tint, the fade of the
board and the fade of a channel are sweeps that paint a share of the way before every frame.
-/

namespace SceneScript

/-- The two places a fiber can hold in the frame feed: its own, and the one of a scene change. -/
inductive Lane where
  | own
  | board
deriving DecidableEq, Inhabited, Repr

inductive Paint where
  | nothing
  | tint (target : Target) (start stop : Color)
  | board (color : Color) (start stop : Float32)
  | volume (channel : Channel)
deriving Inhabited

structure Sweep where
  lane : Lane
  paint : Paint
  span : Span
  elapsed : Span
  pressed : Keys
deriving Inhabited

namespace Sweep

def start (lane : Lane) (paint : Paint) (span : Span) : Sweep :=
  ⟨lane, paint, span, .zero, .nothing⟩

def pause (span : Span) : Sweep := start .own .nothing span

def share (s : Sweep) : Float32 := s.elapsed.share s.span

/-- The sweep after a frame, unless time overflows. -/
def take? (s : Sweep) (f : Frame) : Option Sweep :=
  (s.elapsed.add? f.delta).map fun elapsed =>
    { s with elapsed := elapsed, pressed := s.pressed.merge f.keys }

theorem of_take? {s s' : Sweep} {f : Frame} (taken : s.take? f = some s') :
    (s.elapsed + f.delta).nanos < Span.limit ∧
      s' = { s with elapsed := s.elapsed + f.delta, pressed := s.pressed.merge f.keys } := by
  obtain ⟨sum, added, rfl⟩ := Option.map_eq_some_iff.mp taken
  obtain ⟨fits, rfl⟩ := Span.add?_eq_some.mp added
  exact ⟨fits, rfl⟩

theorem take?_eq_none {s : Sweep} {f : Frame} :
    s.take? f = none ↔ Span.limit ≤ (s.elapsed + f.delta).nanos := by
  rw [take?, Option.map_eq_none_iff, Span.add?_eq_none]

end Sweep

inductive RevealKind where
  | sentence (skippable : Bool)
  | page
deriving DecidableEq, Inhabited, Repr

structure Reveal where
  kind : RevealKind
  shown : Nat
  last : Nat
deriving DecidableEq, Inhabited, Repr

namespace Reveal

def isCutShort (r : Reveal) (pressed : Keys) : Bool :=
  match r.kind with
  | .sentence skippable => skippable && pressed.skip
  | .page => pressed.confirm

def call (r : Reveal) (count : Nat) : StageCall :=
  match r.kind with
  | .sentence _ => .setSentenceVisible count
  | .page => .setReadModeVisible count

def delay (r : Reveal) (settings : Settings) : Span :=
  match r.kind with
  | .sentence _ => settings.textDelay
  | .page => settings.readModeDelay

end Reveal

structure SceneJob where
  scene : String
  color : Color
  span : Span
  fadeMusic : Bool
deriving Inhabited

inductive Act where
  | remark (r : Remark)
  | stage (call : StageCall)
  /-- Waits for the end of an animation. -/
  | finish (animation : Animation)
  | resync
  | sweep (s : Sweep)
  | stride (s : Sweep)
  | listen
  | reveal (r : Reveal)
  | confirm
  | offer (options : List String)
  | answer (receiver : Nat) (options : List String)
  | chosen (index : Nat) (options : List String)
  | branch (predicate : Nat) (otherwise : String)
  | switch (selector : Nat)
  | goto (label : String)
  | tween (target : Target) (span : Span) (start stop : Color)
  | play (channel : Channel) (clip : Clip) (pitch : Float32)
  | hush (channel : Channel) (span : Span)
  | action (action : Nat)
  | timer (countdown : Countdown)
  | stopTimer
  /-- Ticks a countdown; `due` is the time of the next tick, once there is one. -/
  | count (timer : Nat) (due : Option Span)
  | load (job : SceneJob)
  | loaded (scene : String)
  | hushMusic (span : Span)
  | watchBoard
  | switchScene (scene : String)
  | enterScene (scene : String)
  | release
  | clearBoard (span : Span)
  | silence (channel : Channel)
deriving Inhabited

/-- The read-mode page: its text and how much of it was revealed. -/
structure Page where
  text : String
  shown : Nat
deriving DecidableEq, Inhabited, Repr

namespace Page

def empty : Page := ⟨"", 0⟩

/-- Non-overlapping occurrences from the left are replaced. -/
def replaceChars (marker replacement : List Char) : Nat → List Char → List Char
  | 0, text => text
  | _ + 1, [] => []
  | n + 1, c :: rest =>
    if marker.isPrefixOf (c :: rest) then
      replacement ++ replaceChars marker replacement n ((c :: rest).drop marker.length)
    else c :: replaceChars marker replacement n rest

/-- An empty marker occurs around every character. -/
def breakLines (marker text : String) : String :=
  if marker.isEmpty then
    String.ofList ('\n' :: text.toList.flatMap fun c => [c, '\n'])
  else String.ofList (replaceChars marker.toList ['\n'] text.length text.toList)

def append (p : Page) (paragraph : String) : Page :=
  ⟨p.text ++ paragraph, p.shown + paragraph.length⟩

end Page

namespace Command

def pageAfter (settings : Settings) (page : Page) : Command → Page
  | readModeText t => page.append (Page.breakLines settings.readModeLineBreak t)
  | readModeClear | readModeEnd => .empty
  | _ => page

/-- Frames published during an animation are not replayed after it. -/
def animate (a : Animation) : List Act := [.stage (.playAnimation a), .finish a, .resync]

def awaitConfirm : List Act :=
  [.stage (.setWaitIndicator true), .confirm, .stage (.setWaitIndicator false)]

def nameBox (settings : Settings) (speaker : String) (place : Place) : StageCall :=
  if speaker == settings.systemSpeaker then .hideNameBox
  else .showNameBox speaker (settings.nameBoxOffset place)

def tintActs (target : Target) (texture : Option Texture) (span : Span) (start stop : Color) :
    List Act :=
  (texture.toList.map fun t => .stage (.setTexture target t)) ++ [.tween target span start stop]

def flashActs (color : Color) (span hold : Span) : List Act :=
  let half := span.half
  [.sweep (.start .own (.tint .flash .transparent color) half), .sweep (.pause hold),
    .sweep (.start .own (.tint .flash color .transparent) (span.without half))]

def acts (settings : Settings) (page : Page) : Command → List Act
  | log message => [.remark (.scriptLog message)]
  | wait span => [.sweep (.pause span)]
  | text speaker body skippable place =>
    [.stage (nameBox settings speaker place), .stage (.setSentenceVisible 0),
      .stage (.setSentence body), .listen, .reveal ⟨.sentence skippable, 0, body.length⟩,
      .stage (.setSentenceVisible body.length)] ++ awaitConfirm
  | choice options => [.offer options]
  | label name => [.remark (.strayLabel name)]
  | branch predicate otherwise => [.branch predicate otherwise]
  | switch selector => [.switch selector]
  | goto name => [.goto name]
  | boxState true => animate .sentenceBoxOpen ++ [.stage (.setSentence "")]
  | boxState false =>
    .stage .hideNameBox :: animate .sentenceBoxClose ++ [.stage (.setSentence "")]
  | image layer texture span start stop => tintActs (.image layer) texture span start stop
  | portrait place texture span start stop => tintActs (.portrait place) texture span start stop
  | flash color span hold => flashActs color span hold
  | soundPlay channel clip pitch => [.play channel clip pitch]
  | soundStop channel fade => [.hush channel fade]
  | sceneLoad scene color span fadeMusic =>
    [.remark (.loadingScene scene), .load ⟨scene, color, span, fadeMusic⟩, .loaded scene, .resync]
  | readModeStart => .stage (.setReadModeBackground true) :: animate .readModeEnter
  | readModeText t =>
    let next := page.append (Page.breakLines settings.readModeLineBreak t)
    [.stage (.setReadModeVisible page.shown), .stage (.setReadModeText next.text), .listen,
      .reveal ⟨.page, page.shown, next.shown⟩, .stage (.setReadModeVisible next.shown)] ++
      awaitConfirm
  | readModeClear =>
    .stage (.setWaitIndicator false) :: animate .readModeSentenceClean ++
      .stage (.setReadModeText "") :: animate .readModeSentenceEnter
  | readModeEnd =>
    .stage (.setWaitIndicator false) :: animate .readModeExit ++
      [.stage (.setReadModeBackground false)]
  | action a => [.action a]
  | timer minutes seconds centis => [.timer (.ofParts minutes seconds centis)]
  | timerStop => [.stopTimer]

end Command

/-- Covers the picture, changes the scene behind the board and uncovers it again. -/
def SceneJob.acts (job : SceneJob) : List Act :=
  let half := job.span.half
  (if job.fadeMusic then [.hushMusic job.span] else []) ++
    [.watchBoard, .sweep (.start .board (.board job.color 0 1) half), .switchScene job.scene,
      .enterScene job.scene, .remark (.sceneSwitched job.scene),
      .sweep (.start .board (.board job.color 1 0) (job.span.without half)), .release]

end SceneScript
