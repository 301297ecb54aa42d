/-!
Handles to things the host owns, and the fixed places of the picture and the mixer.
-/

namespace SceneScript

structure Clip where
  key : String
deriving DecidableEq, Inhabited, Repr

structure Texture where
  key : String
deriving DecidableEq, Inhabited, Repr

inductive Place where
  | left
  | centre
  | right
deriving DecidableEq, Inhabited, Repr

namespace Place

def all : List Place := [left, centre, right]

def index : Place → Nat
  | left => 0
  | centre => 1
  | right => 2

def name : Place → String
  | left => "Left"
  | centre => "Centre"
  | right => "Right"

def named? (s : String) : Option Place := all.find? (·.name = s)

end Place

inductive Channel where
  | bgm
  | bgs
  | se
  | uiSe
deriving DecidableEq, Inhabited, Repr

namespace Channel

def all : List Channel := [bgm, bgs, se, uiSe]

def index : Channel → Nat
  | bgm => 0
  | bgs => 1
  | se => 2
  | uiSe => 3

def name : Channel → String
  | bgm => "Bgm"
  | bgs => "Bgs"
  | se => "Se"
  | uiSe => "UiSe"

def caption : Channel → String
  | bgm => "BGM"
  | bgs => "BGS"
  | se => "SE"
  | uiSe => "UISE"

def named? (s : String) : Option Channel := all.find? (·.name = s)

/-- Looping channels hold one clip and can fade; the others layer clips that sound once. -/
def isLooping : Channel → Bool
  | bgm | bgs => true
  | se | uiSe => false

end Channel

end SceneScript
