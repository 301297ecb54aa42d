import SceneScript.Asset
/-!
Splash screens: a list of logos shown one after the other, one per animation.
-/

namespace SceneScript

structure Splash where
  logos : List Texture
  index : Nat
deriving DecidableEq, Inhabited, Repr

namespace Splash

inductive Step where
  | show (logo : Texture)
  | finished
deriving DecidableEq, Inhabited, Repr

inductive HostCall where
  | showLogo (logo : Texture)
  | playAnimation
  | animationFinished
deriving DecidableEq, Inhabited, Repr

def ofLogos (logos : List Texture) : Splash := ⟨logos, 0⟩

def current (s : Splash) : Step :=
  match s.logos[s.index]? with
  | some logo => .show logo
  | none => .finished

def start (s : Splash) : Splash := { s with index := 0 }

def advance (s : Splash) : Splash :=
  if s.index < s.logos.length then { s with index := s.index + 1 } else s

def isFinished (s : Splash) : Bool := s.logos.length ≤ s.index

/-- Shows what is left, logo by logo; `shown` and `calls` grow on the way. -/
def playOn (s : Splash) (shown : Nat) (calls : Array HostCall) : Splash × Nat × Array HostCall :=
  if h : s.index < s.logos.length then
    playOn { s with index := s.index + 1 } (shown + 1)
      (calls.push (.showLogo s.logos[s.index]) |>.push .playAnimation |>.push .animationFinished)
  else (s, shown, calls)
termination_by s.logos.length - s.index
decreasing_by omega

def play (s : Splash) : Splash × Nat × Array HostCall := s.start.playOn 0 #[]

inductive Order where
  | start
  | next
  | play
deriving DecidableEq, Inhabited, Repr

inductive Reply where
  | step (s : Step)
  | played (shown : Nat) (calls : List HostCall)
deriving DecidableEq, Inhabited, Repr

def apply (s : Splash) : Order → Splash × Reply
  | .start => (s.start, .step s.start.current)
  | .next => (s.advance, .step s.advance.current)
  | .play =>
    let (s, shown, calls) := s.play
    (s, .played shown calls.toList)

end Splash

end SceneScript
