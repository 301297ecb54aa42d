/-!
Colours in single precision. Blending clamps the share to [0, 1] and rounds after every operation.
-/

namespace SceneScript

structure Color where
  r : Float32
  g : Float32
  b : Float32
  a : Float32
deriving BEq, Inhabited

namespace Color

def transparent : Color := ⟨0, 0, 0, 0⟩

def white : Color := ⟨1, 1, 1, 1⟩

def black : Color := ⟨0, 0, 0, 1⟩

def untinted : Color := white

def withAlpha (c : Color) (a : Float32) : Color := { c with a := a }

/-- A share below zero counts as zero and one above one as one; a NaN stays. -/
def clampShare (t : Float32) : Float32 :=
  if t < 0 then 0 else if t > 1 then 1 else t

def blend (x y t : Float32) : Float32 := x + (y - x) * t

def lerp (c d : Color) (share : Float32) : Color :=
  let t := clampShare share
  ⟨blend c.r d.r t, blend c.g d.g t, blend c.b d.b t, blend c.a d.a t⟩

end Color

end SceneScript
