import Mathlib.Algebra.Order.Group.Nat
import Mathlib.Logic.Function.Iterate
import SceneScript.Countdown
/-!
The arithmetic of countdowns (`countdowns_count_exactly`): what they start with, what is left after a
number of ticks, how a tick looks on the fields that are shown, and that the text tells the time that
is left.
-/

namespace SceneScript

namespace Countdown

variable {c d : Countdown}

theorem ext_remaining (h : c.remaining = d.remaining) : c = d := by
  cases c; cases d; cases h; rfl

/-! ### The start -/

theorem clip_add_clip (m n : Nat) : clip (clip m + n) = clip (m + n) := by
  unfold clip
  omega

/-- Wherever a product or a sum is cut off on the way, the total is too long as well. -/
theorem remaining_ofParts (minutes seconds centis : Nat) :
    (ofParts minutes seconds centis).remaining =
      min (2 ^ 32 - 1) (6000 * minutes + 100 * seconds + centis) := by
  calc (ofParts minutes seconds centis).remaining
    _ = clip (clip (minutes * perMinute) + clip (seconds * perSecond) + centis) := clip_add_clip _ _
    _ = clip (clip (clip (seconds * perSecond) + minutes * perMinute) + centis) := by
      rw [clip_add_clip, Nat.add_comm _ (minutes * perMinute), Nat.add_assoc, clip_add_clip,
        Nat.add_assoc]
    _ = clip (seconds * perSecond + minutes * perMinute + centis) := by
      rw [clip_add_clip, Nat.add_assoc, clip_add_clip, Nat.add_assoc]
    _ = min (2 ^ 32 - 1) (6000 * minutes + 100 * seconds + centis) := by
      simp only [clip, limit, perMinute, perSecond, Nat.pow_eq]
      omega

/-! ### Fields -/

/-- The fields on show: minutes, seconds and hundredths. -/
structure Face where
  minutes : Nat
  seconds : Nat
  centis : Nat
deriving DecidableEq

def face (c : Countdown) : Face := ⟨c.minutes, c.seconds, c.centis⟩

namespace Face

/-- One hundredth less. Where there is none, a second is borrowed, or a minute for a second. -/
def borrow : Face → Face
  | ⟨m, s, n + 1⟩ => ⟨m, s, n⟩
  | ⟨m, s + 1, 0⟩ => ⟨m, s, 99⟩
  | ⟨m + 1, 0, 0⟩ => ⟨m, 59, 99⟩
  | ⟨0, 0, 0⟩ => ⟨0, 0, 0⟩

def total (f : Face) : Nat := 6000 * f.minutes + 100 * f.seconds + f.centis

/-- No field overflows into the next one. -/
def InRange (f : Face) : Prop := f.seconds < 60 ∧ f.centis < 100

theorem inRange_borrow {f : Face} (h : f.InRange) : f.borrow.InRange := by
  obtain ⟨seconds, centis⟩ := h
  unfold borrow
  split <;> constructor <;> simp_all <;> omega

theorem total_borrow (f : Face) : f.borrow.total = f.total - 1 := by
  unfold borrow total
  split <;> dsimp only <;> omega

/-- In range, a time has one face only. -/
theorem eq_of_total {f g : Face} (hf : f.InRange) (hg : g.InRange) (same : f.total = g.total) :
    f = g := by
  obtain ⟨m, s, n⟩ := f
  obtain ⟨m', s', n'⟩ := g
  simp only [InRange, total, mk.injEq] at hf hg same ⊢
  omega

end Face

theorem inRange_face (c : Countdown) : c.face.InRange := by
  simp only [Face.InRange, face, seconds, centis, perMinute, perSecond]
  omega

theorem total_face (c : Countdown) : c.face.total = c.remaining := by
  simp only [Face.total, face, minutes, seconds, centis, perMinute, perSecond]
  omega

/-! ### Ticks -/

theorem remaining_tick (c : Countdown) : c.tick.1.remaining = c.remaining - 1 := by
  unfold tick
  split
  · rename_i none
    rw [none]
  · rename_i n some
    rw [some]
    rfl

theorem rings_tick (c : Countdown) : c.tick.2 = true ↔ c.remaining = 1 := by
  unfold tick
  split
  · rename_i none
    simp [none]
  · rename_i n some
    simp [some]

theorem face_tick (c : Countdown) : c.tick.1.face = c.face.borrow := by
  refine Face.eq_of_total (inRange_face _) (Face.inRange_borrow (inRange_face c)) ?_
  rw [total_face, remaining_tick, Face.total_borrow, total_face]

/-- The countdown after `k` ticks. -/
def ticked (c : Countdown) (k : Nat) : Countdown := (fun c => c.tick.1)^[k] c

theorem ticked_succ (c : Countdown) (k : Nat) : c.ticked (k + 1) = (c.ticked k).tick.1 :=
  Function.iterate_succ_apply' _ k c

theorem remaining_ticked (c : Countdown) (k : Nat) : (c.ticked k).remaining = c.remaining - k := by
  induction k with
  | zero => rfl
  | succ k ih =>
    rw [ticked_succ, remaining_tick, ih]
    omega

/-- The tick that reaches zero is the only one that rings. -/
theorem rings_ticked (c : Countdown) (k : Nat) :
    (c.ticked k).tick.2 = true ↔ k + 1 = c.remaining := by
  rw [rings_tick, remaining_ticked]
  omega

theorem tickMany_eq (k : Nat) (c : Countdown) (count : Nat) :
    tickMany k c count =
      (c.ticked k, count + if 0 < c.remaining ∧ c.remaining ≤ k then 1 else 0) := by
  induction k generalizing c count with
  | zero =>
    rw [if_neg (by omega)]
    rfl
  | succ k ih =>
    have left := remaining_tick c
    rw [tickMany, ih, show c.tick.1.ticked k = c.ticked (k + 1) from rfl]
    by_cases last : c.remaining = 1
    · rw [if_pos ((rings_tick c).mpr last), if_neg (by omega), if_pos (by omega)]
    · rw [if_neg (mt (rings_tick c).mp last)]
      by_cases rings : 0 < c.remaining ∧ c.remaining ≤ k + 1
      · rw [if_pos (by omega), if_pos rings]
      · rw [if_neg (by omega), if_neg rings]

/-! ### Texts -/

theorem toList_twoDigits (n : Nat) : (twoDigits n).toList =
    if n < 10 then '0' :: Nat.toDigits 10 n else Nat.toDigits 10 n := by
  unfold twoDigits
  split <;> simp

/-- The digits tell the number, with a zero before them or not. -/
theorem ofDigitChars_twoDigits (n : Nat) : Nat.ofDigitChars 10 (twoDigits n).toList 0 = n := by
  have digits : Nat.ofDigitChars 10 (Nat.toDigits 10 n) 0 = n :=
    Nat.ofDigitChars_toDigits (by decide) (by decide)
  rw [toList_twoDigits]
  split
  · rw [Nat.ofDigitChars_cons]
    exact digits
  · exact digits

theorem colon_notMem_twoDigits (n : Nat) : ':' ∉ (twoDigits n).toList := by
  have digits : ':' ∉ Nat.toDigits 10 n := fun among => by
    have digit : ':'.isDigit = true := Nat.isDigit_of_mem_toDigits (by decide) (by decide) among
    cases digit
  rw [toList_twoDigits]
  split
  · simpa using digits
  · exact digits

/-- The text taken apart at its colons. -/
theorem splitOn_text (c : Countdown) : c.text.toList.splitOn ':' =
    [(twoDigits c.minutes).toList, (twoDigits c.seconds).toList, (twoDigits c.centis).toList] := by
  have joined : c.text.toList = [':'].intercalate
      [(twoDigits c.minutes).toList, (twoDigits c.seconds).toList, (twoDigits c.centis).toList] := by
    simp [text, List.intercalate, List.intersperse]
  rw [joined]
  refine List.splitOn_intercalate ':' (fun l among => ?_) (List.cons_ne_nil _ _)
  simp only [List.mem_cons, List.not_mem_nil, or_false] at among
  rcases among with rfl | rfl | rfl <;> exact colon_notMem_twoDigits _

theorem face_of_text (same : c.text = d.text) : c.face = d.face := by
  have parts := congrArg (fun s : String => s.toList.splitOn ':') same
  simp only [splitOn_text, List.cons.injEq, and_true] at parts
  obtain ⟨minutes, seconds, centis⟩ := parts
  have number {m n : Nat} (digits : (twoDigits m).toList = (twoDigits n).toList) : m = n := by
    rw [← ofDigitChars_twoDigits m, digits, ofDigitChars_twoDigits]
  simp only [face, Face.mk.injEq]
  exact ⟨number minutes, number seconds, number centis⟩

theorem text_injective : Function.Injective text := fun c d same => by
  refine ext_remaining ?_
  rw [← total_face, face_of_text same, total_face]

/-! ### Countdowns -/

/-- How a countdown that is started with these fields goes on, tick by tick. -/
structure CountsExactly (minutes seconds centis : Nat) (c : Countdown) : Prop where
  starts : c.remaining = min (2 ^ 32 - 1) (6000 * minutes + 100 * seconds + centis)
  left : ∀ k, ((c.ticked k).remaining : Int) = max 0 (c.remaining - k)
  shows : ∀ k, (c.ticked k).face.seconds < 60 ∧ (c.ticked k).face.centis < 100 ∧
    6000 * (c.ticked k).face.minutes + 100 * (c.ticked k).face.seconds + (c.ticked k).face.centis =
      (c.ticked k).remaining
  /-- The tick after `k` others rings if it is the last that there is time for. -/
  rings : ∀ k, (c.ticked k).tick.2 = true ↔ k + 1 = c.remaining
  borrows : ∀ k, (c.ticked (k + 1)).face = (c.ticked k).face.borrow
  tells : ∀ (k : Nat) (d : Countdown), (c.ticked k).text = d.text → c.ticked k = d

/-- Whatever the fields a countdown is started with, in range or not, it counts exactly. -/
theorem countdowns_count_exactly (minutes seconds centis : Nat) :
    CountsExactly minutes seconds centis (ofParts minutes seconds centis) where
  starts := remaining_ofParts minutes seconds centis
  left k := by
    rw [remaining_ticked]
    omega
  shows k := ⟨(inRange_face _).1, (inRange_face _).2, total_face _⟩
  rings := rings_ticked _
  borrows k := by rw [ticked_succ, face_tick]
  tells _ _ same := text_injective same

/-- A minute borrows for the first hundredth. -/
example : ((ofParts 1 0 0).ticked 1).face = ⟨0, 59, 99⟩ := by decide

end Countdown

end SceneScript
