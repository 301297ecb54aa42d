/-!
Countdowns in hundredths of a second. Times too long for 32 bits stay at the longest one.
-/

namespace SceneScript

structure Countdown where
  remaining : Nat
deriving DecidableEq, Inhabited, Repr

namespace Countdown

def perSecond : Nat := 100

def perMinute : Nat := 60 * perSecond

def limit : Nat := Nat.pow 2 32 - 1

def clip (n : Nat) : Nat := min n limit

/-- Seconds and hundredths out of range carry over; every product and sum stops at `limit`. -/
def ofParts (minutes seconds centis : Nat) : Countdown :=
  ⟨clip (clip (clip (minutes * perMinute) + clip (seconds * perSecond)) + centis)⟩

def minutes (c : Countdown) : Nat := c.remaining / perMinute

def seconds (c : Countdown) : Nat := c.remaining % perMinute / perSecond

def centis (c : Countdown) : Nat := c.remaining % perSecond

def isExpired (c : Countdown) : Bool := c.remaining == 0

def tick (c : Countdown) : Countdown × Bool :=
  match c.remaining with
  | 0 => (c, false)
  | n + 1 => (⟨n⟩, n == 0)

/-- Ticks `n` times; `count` grows with every tick that reached zero. -/
def tickMany : Nat → Countdown → Nat → Countdown × Nat
  | 0, c, count => (c, count)
  | n + 1, c, count => tickMany n c.tick.1 (if c.tick.2 then count + 1 else count)

def twoDigits (n : Nat) : String := if n < 10 then "0" ++ toString n else toString n

def text (c : Countdown) : String :=
  twoDigits c.minutes ++ ":" ++ twoDigits c.seconds ++ ":" ++ twoDigits c.centis

end Countdown

end SceneScript
