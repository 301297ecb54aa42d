/-!
The fewest decimal digits that read back. A binary number `m * 2^q` stands for the interval of reals
that round to it, ends included if `m` is even; the coarsest decimal grid with a point in the interval
gives the digits, and of two points on it the nearer one wins.
-/

namespace SceneScript.Decimal

structure Ratio where
  num : Nat
  den : Nat
deriving DecidableEq, Inhabited, Repr

namespace Ratio

/-- `n * base ^ e` -/
def scaled (n base : Nat) (e : Int) : Ratio :=
  if 0 ≤ e then ⟨n * base.pow e.toNat, 1⟩ else ⟨n, base.pow (-e).toNat⟩

def ltb (a b : Ratio) : Bool := a.num * b.den < b.num * a.den

def leb (a b : Ratio) : Bool := a.num * b.den ≤ b.num * a.den

def floorDiv (a b : Ratio) : Nat := a.num * b.den / (a.den * b.num)

end Ratio

/-- A positive binary number. The gap below it is half as wide where the exponent steps down. -/
structure Binary where
  mantissa : Nat
  exponent : Int
  narrowBelow : Bool
deriving DecidableEq, Inhabited, Repr

namespace Binary

def value (b : Binary) : Ratio := .scaled b.mantissa 2 b.exponent

def low (b : Binary) : Ratio :=
  .scaled (4 * b.mantissa - if b.narrowBelow then 1 else 2) 2 (b.exponent - 2)

def high (b : Binary) : Ratio := .scaled (4 * b.mantissa + 2) 2 (b.exponent - 2)

def covers (b : Binary) (r : Ratio) : Bool :=
  if b.mantissa % 2 = 0 then b.low.leb r && r.leb b.high else b.low.ltb r && r.ltb b.high

/-- Raises `e` while ten to the next power still fits. -/
def magnitudeFrom (b : Binary) : Nat → Int → Int
  | 0, e => e
  | n + 1, e => if (Ratio.scaled 1 10 (e + 1)).leb b.value then magnitudeFrom b n (e + 1) else e

end Binary

structure Digits where
  digits : Nat
  exponent : Int
deriving DecidableEq, Inhabited, Repr

namespace Digits

def value (d : Digits) : Ratio := .scaled d.digits 10 d.exponent

def trimmed : Nat → Digits → Digits
  | 0, d => d
  | n + 1, d =>
    if d.digits ≠ 0 ∧ d.digits % 10 = 0 then trimmed n ⟨d.digits / 10, d.exponent + 1⟩ else d

end Digits

namespace Binary

def onGrid (b : Binary) (k : Int) : Option Digits :=
  let below := b.value.floorDiv (.scaled 1 10 k)
  let lower : Digits := ⟨below, k⟩
  let upper : Digits := ⟨below + 1, k⟩
  match b.covers lower.value, b.covers upper.value with
  | false, false => none
  | true, false => some lower
  | false, true => some upper
  | true, true =>
    -- twice the number against the sum of its neighbours
    let middle := Ratio.scaled (2 * below + 1) 10 k
    let twice := Ratio.scaled (2 * b.mantissa) 2 b.exponent
    if twice.ltb middle then some lower else some upper

def search (b : Binary) : Nat → Int → Digits
  | 0, k => ⟨b.value.floorDiv (.scaled 1 10 k), k⟩
  | n + 1, k => (b.onGrid k).getD (search b n (k - 1))

/-- Nine digits tell all single-precision numbers apart, seventeen all double-precision ones. -/
def shortest (b : Binary) (least : Int) (span digits : Nat) : Digits :=
  Digits.trimmed digits (b.search digits (b.magnitudeFrom span least))

end Binary

end SceneScript.Decimal
