/-!
Lengths of time. A span is a whole number of nanoseconds; sums stay below 2^64 seconds and halves
drop the odd nanosecond.
-/

namespace SceneScript

structure Span where
  nanos : Nat
deriving DecidableEq, Inhabited, Repr

namespace Span

def perSecond : Nat := 1000000000

def perMilli : Nat := 1000000

/-- The first length too long to be the sum of two others. -/
def limit : Nat := Nat.pow 2 64 * perSecond

def zero : Span := ⟨0⟩

def ofMillis (n : Nat) : Span := ⟨n * perMilli⟩

def ofParts (seconds nanos : Nat) : Span := ⟨seconds * perSecond + nanos⟩

def wholeSeconds (s : Span) : Nat := s.nanos / perSecond

def spareNanos (s : Span) : Nat := s.nanos % perSecond

instance : LT Span := ⟨fun a b => a.nanos < b.nanos⟩

instance : LE Span := ⟨fun a b => a.nanos ≤ b.nanos⟩

instance (a b : Span) : Decidable (a < b) := inferInstanceAs (Decidable (a.nanos < b.nanos))

instance (a b : Span) : Decidable (a ≤ b) := inferInstanceAs (Decidable (a.nanos ≤ b.nanos))

instance : Add Span := ⟨fun a b => ⟨a.nanos + b.nanos⟩⟩

/-- The sum, unless it reaches `limit`. -/
def add? (a b : Span) : Option Span :=
  if a.nanos + b.nanos < limit then some (a + b) else none

def half (s : Span) : Span := ⟨s.nanos / 2⟩

def without (s part : Span) : Span := ⟨s.nanos - part.nanos⟩

/-- Seconds in single precision: the whole part and the quotient of the rest are rounded apart. -/
def seconds (s : Span) : Float32 :=
  s.wholeSeconds.toUInt64.toFloat32 + s.spareNanos.toUInt64.toFloat32 / perSecond.toUInt64.toFloat32

def share (elapsed total : Span) : Float32 := elapsed.seconds / total.seconds

/-- Rounded up to whole milliseconds, the grain at which timers fire. -/
def ceilMillis (s : Span) : Span := ofMillis ((s.nanos + (perMilli - 1)) / perMilli)

theorem lt_def (a b : Span) : a < b ↔ a.nanos < b.nanos := Iff.rfl

theorem le_def (a b : Span) : a ≤ b ↔ a.nanos ≤ b.nanos := Iff.rfl

@[simp] theorem nanos_add (a b : Span) : (a + b).nanos = a.nanos + b.nanos := rfl

theorem add?_eq_some {a b c : Span} : a.add? b = some c ↔ (a + b).nanos < limit ∧ a + b = c := by
  rw [add?, Option.ite_none_right_eq_some, Option.some_inj, nanos_add]

theorem add?_eq_none {a b : Span} : a.add? b = none ↔ limit ≤ (a + b).nanos := by
  rw [add?, ite_eq_right_iff, nanos_add]
  simp

theorem half_add_without_half (s : Span) : s.half + s.without s.half = s := by
  cases s with
  | mk n =>
    show Span.mk (n / 2 + (n - n / 2)) = Span.mk n
    congr 1
    omega

end Span

end SceneScript
