import SceneScript.Asset
import SceneScript.Span
/-!
The state of the mixer: one strip per channel, and the fade that runs on it, if any.
-/

namespace SceneScript

structure Bank (α : Type) where
  bgm : α
  bgs : α
  se : α
  uiSe : α
deriving Inhabited

namespace Bank

variable {α : Type}

def ofFn (f : Channel → α) : Bank α := ⟨f .bgm, f .bgs, f .se, f .uiSe⟩

def get (b : Bank α) : Channel → α
  | .bgm => b.bgm
  | .bgs => b.bgs
  | .se => b.se
  | .uiSe => b.uiSe

def set (b : Bank α) (channel : Channel) (a : α) : Bank α :=
  match channel with
  | .bgm => { b with bgm := a }
  | .bgs => { b with bgs := a }
  | .se => { b with se := a }
  | .uiSe => { b with uiSe := a }

def modify (b : Bank α) (channel : Channel) (f : α → α) : Bank α :=
  b.set channel (f (b.get channel))

def toList (b : Bank α) : List α := Channel.all.map b.get

@[simp] theorem get_ofFn (f : Channel → α) (c : Channel) : (ofFn f).get c = f c := by
  cases c <;> rfl

@[simp] theorem get_set_self (b : Bank α) (c : Channel) (a : α) : (b.set c a).get c = a := by
  cases c <;> rfl

theorem get_set_ne (b : Bank α) {c d : Channel} (a : α) (h : d ≠ c) :
    (b.set c a).get d = b.get d := by
  cases c <;> cases d <;> first | rfl | exact absurd rfl h

end Bank

structure Strip where
  channel : Channel
  clip : Option Clip
  pitch : Float32
  volume : Float32
  playing : Bool
  /-- The clips that were layered, oldest first. -/
  oneShots : Array Clip
deriving Inhabited

namespace Strip

def fullVolume : Float32 := 1

def silent (channel : Channel) : Strip := ⟨channel, none, 1, fullVolume, false, #[]⟩

/-- A looping channel replaces its clip, the others layer the new one. -/
def play (s : Strip) (clip : Clip) (pitch : Float32) : Strip :=
  if s.channel.isLooping then
    { s with pitch := pitch, clip := some clip, volume := fullVolume, playing := true }
  else { s with pitch := pitch, oneShots := s.oneShots.push clip }

def stop (s : Strip) : Strip := { s with playing := false, volume := fullVolume }

inductive Step where
  | play (clip : Clip) (pitch : Float32)
  | stop
  | volume (level : Float32)
deriving Inhabited

def apply (s : Strip) : Step → Strip
  | .play clip pitch => s.play clip pitch
  | .stop => s.stop
  | .volume level => { s with volume := level }

end Strip

structure Mixer where
  strips : Bank Strip
  fades : Bank (Option Nat)
deriving Inhabited

namespace Mixer

def silent : Mixer := ⟨.ofFn .silent, .ofFn fun _ => none⟩

def isFading (m : Mixer) (channel : Channel) : Bool := (m.fades.get channel).isSome

def modifyStrip (m : Mixer) (channel : Channel) (f : Strip → Strip) : Mixer :=
  { m with strips := m.strips.modify channel f }

def setFade (m : Mixer) (channel : Channel) (task : Option Nat) : Mixer :=
  { m with fades := m.fades.set channel task }

end Mixer

inductive SoundEvent where
  | played (channel : Channel) (clip : Clip)
  | fadedOut (channel : Channel)
deriving DecidableEq, Inhabited, Repr

inductive SoundCall where
  | play (channel : Channel) (clip : Clip) (pitch : Float32)
  | fadeOut (channel : Channel) (span : Span)
deriving Inhabited

end SceneScript
