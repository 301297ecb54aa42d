import SceneScript.Decimal.Shortest
/-!
The text of a single-precision number: the fewest digits that read back, positional between 10^-4 and
10^16 and always with a fraction there, scientific outside.
-/

namespace SceneScript.Decimal

namespace Single

def fractionSize : Nat := Nat.pow 2 23

def exponentSize : Nat := Nat.pow 2 8

def signBit : Nat := Nat.pow 2 31

def binary (bits : Nat) : Binary :=
  let fraction : Nat := bits % fractionSize
  let biased : Nat := bits / fractionSize % exponentSize
  if biased = 0 then ⟨fraction, -149, false⟩
  else ⟨fraction + fractionSize, (biased : Int) - 150, decide (fraction = 0 ∧ 1 < biased)⟩

def digits (bits : Nat) : Digits := (binary bits).shortest (-46) 86 9

def positional (d : Digits) : String :=
  let text := toString d.digits
  if 0 ≤ d.exponent then text ++ String.ofList (List.replicate d.exponent.toNat '0') ++ ".0"
  else
    let places := (-d.exponent).toNat
    if places < text.length then
      String.ofList (text.toList.take (text.length - places)) ++ "." ++
        String.ofList (text.toList.drop (text.length - places))
    else "0." ++ String.ofList (List.replicate (places - text.length) '0') ++ text

def scientific (d : Digits) : String :=
  let text := (toString d.digits).toList
  let head := String.ofList (text.take 1)
  let tail := String.ofList (text.drop 1)
  let exponent := d.exponent + (text.length - 1 : Nat)
  head ++ (if tail.isEmpty then "" else "." ++ tail) ++ "e" ++ toString exponent

def magnitude (bits : Nat) : String :=
  if bits % signBit = 0 then "0.0"
  else
    let d := digits bits
    let leading := d.exponent + ((toString d.digits).length - 1 : Nat)
    if -4 ≤ leading ∧ leading < 16 then positional d else scientific d

def text (x : Float32) : String :=
  let bits := x.toBits.toNat
  if x.isNaN then "NaN"
  else
    (if signBit ≤ bits then "-" else "") ++
      if bits / fractionSize % exponentSize = 255 then "inf" else magnitude bits

end Single

end SceneScript.Decimal
