/-!
JSON values as they stand in a text: fields keep their order and may repeat, and what cannot be
represented is marked instead of refused, since a reader may skip it.
-/

namespace SceneScript

namespace Json

inductive Number where
  | nat (n : Nat)
  /-- The negation of a number from 1 to 2^63. -/
  | neg (n : Nat)
  | real (x : Float)
  | tooLarge
deriving Inhabited

end Json

inductive Json where
  | null
  | bool (b : Bool)
  | number (n : Json.Number)
  /-- No text if an escape stands for half a character. -/
  | text (s : Option String)
  | list (items : List Json)
  | object (fields : List (Option String × Json))
deriving Inhabited

namespace Json

def natLimit : Nat := Nat.pow 2 64

def negLimit : Nat := Nat.pow 2 63

namespace Number

def powerOfTen (n : Nat) : Float := Float.ofScientific 1 false n

/-- `significand * 10 ^ exponent`, with one rounding for the significand and one for each power of
ten. Powers beyond 10^308 are divided off in steps, so small numbers vanish and large ones have no
value. -/
def scale : Nat → Float → Int → Option Float
  | 0, x, _ => some x
  | n + 1, x, exponent =>
    if exponent.natAbs ≤ 308 then
      if 0 ≤ exponent then
        let y := x * powerOfTen exponent.natAbs
        if y.isInf then none else some y
      else some (x / powerOfTen exponent.natAbs)
    else if x == 0 then some x
    else if 0 ≤ exponent then none
    else scale n (x / powerOfTen 308) (exponent + 308)

def scaleSteps : Nat := 8

def ofScale (negative : Bool) (significand : Nat) (exponent : Int) : Number :=
  match scale scaleSteps significand.toUInt64.toFloat exponent with
  | some x => .real (if negative then -x else x)
  | none => .tooLarge

/-- An integer; minus zero and what fits no 64-bit integer are reals. -/
def ofInteger (negative : Bool) (n : Nat) : Number :=
  if !negative then .nat n
  else if 0 < n ∧ n ≤ negLimit then .neg n
  else .real (-n.toUInt64.toFloat)

end Number

end Json

end SceneScript
