import Mathlib.Logic.Relation
import Mathlib.Tactic.Common
import SceneScript.World.Host
/-!
What effects in the background live by: flags, the scope that tweens are started in, and countdowns.
`Backdrop.Stir` lists everything that can become of them.
-/

namespace SceneScript

namespace Flags

def size (f : Flags) : Nat := f.raised.size

/-- `g` comes from `f` by handing out and raising flags. -/
def Grows (f g : Flags) : Prop := f.size ≤ g.size ∧ ∀ i, f.isRaised i = true → g.isRaised i = true

theorem Grows.refl (f : Flags) : f.Grows f := ⟨Nat.le_refl _, fun _ h => h⟩

theorem Grows.trans {f g h : Flags} (first : f.Grows g) (second : g.Grows h) : f.Grows h :=
  ⟨Nat.le_trans first.1 second.1, fun i hi => second.2 i (first.2 i hi)⟩

@[simp] theorem size_raise (f : Flags) (i : Nat) : (f.raise i).size = f.size := by
  simp [size, raise]

@[simp] theorem size_fresh (f : Flags) : f.fresh.1.size = f.size + 1 := by
  simp [size, fresh]

theorem lt_of_isRaised {f : Flags} {i : Nat} (h : f.isRaised i = true) : i < f.size := by
  by_contra hn
  simp [isRaised, Array.getD, show ¬ i < f.raised.size from hn] at h

theorem isRaised_raise_self {f : Flags} {i : Nat} (h : i < f.size) :
    (f.raise i).isRaised i = true := by
  simp [isRaised_raise, show i < f.raised.size from h]

theorem isRaised_raise_ne {f : Flags} {i j : Nat} (h : i ≠ j) :
    (f.raise i).isRaised j = f.isRaised j := by
  simp [isRaised_raise, h]

theorem grows_raise (f : Flags) (i : Nat) : f.Grows (f.raise i) := by
  refine ⟨by simp, fun j h => ?_⟩
  rw [isRaised_raise, h, Bool.or_true]

theorem grows_fresh (f : Flags) : f.Grows f.fresh.1 := by
  refine ⟨by simp, fun j h => ?_⟩
  rw [isRaised_fresh, h]

end Flags

structure Backdrop where
  strict : Bool
  flags : Flags
  scope : Nat
  timers : Array Timer

namespace Backdrop

inductive Stir (b : Backdrop) : Backdrop → Prop where
  | raises (flag : Nat) : Stir b { b with flags := b.flags.raise flag }
  | renews : Stir b { b with flags := b.flags.fresh.1.raise b.scope, scope := b.flags.size }
  /-- A scope takes the place of another one, which is left as it is. -/
  | slips : b.strict = false → Stir b { b with flags := b.flags.fresh.1, scope := b.flags.size }
  | ticks (i : Nat) (c : Countdown) :
      Stir b { b with timers := b.timers.modify i fun t => { t with left := c } }
  | adds (c : Countdown) :
      (∀ t, b.timers.back? = some t → t.stop < b.flags.size → b.flags.isRaised t.stop = true) →
      Stir b { b with flags := b.flags.fresh.1, timers := b.timers.push ⟨c, b.flags.size⟩ }

abbrev Stirs : Backdrop → Backdrop → Prop := Relation.ReflTransGen Stir

/-- What a fiber in the background watches when it joins, between `b` and `b'`. -/
def Hires (b b' : Backdrop) : Role → Prop
  | .tween _ scope => scope = b.scope
  | .countdown i stop =>
    i = b.timers.size ∧ stop = b.flags.size ∧ ∃ t, b'.timers[i]? = some t ∧ t.stop = stop
  | _ => True

variable {b b' : Backdrop}

/-! ### What stirring keeps -/

theorem Stirs.preserves {P : Backdrop → Prop} (h : Stirs b b') (start : P b)
    (step : ∀ {c c' : Backdrop}, Stir c c' → P c → P c') : P b' := by
  induction h with
  | refl => exact start
  | tail _ stir ih => exact step stir ih

theorem Stir.timer (h : Stir b b') {i : Nat} {t : Timer} (found : b.timers[i]? = some t) :
    ∃ t', b'.timers[i]? = some t' ∧ t'.stop = t.stop := by
  cases h with
  | raises | renews | slips => exact ⟨t, found, rfl⟩
  | ticks j c =>
    rw [Array.getElem?_modify, found]
    by_cases same : j = i
    · exact ⟨{ t with left := c }, by simp [same], rfl⟩
    · exact ⟨t, by simp [same], rfl⟩
  | adds c =>
    have bound : i < b.timers.size := (Array.getElem?_eq_some_iff.mp found).1
    refine ⟨t, ?_, rfl⟩
    rw [Array.getElem?_push, if_neg (by omega)]
    exact found

theorem Stir.timer' (h : Stir b b') {i : Nat} {t' : Timer} (found : b'.timers[i]? = some t') :
    (∃ t, b.timers[i]? = some t ∧ t.stop = t'.stop) ∨ b'.scope = b.scope ∧
      b.flags.size < b'.flags.size ∧ t'.stop = b.flags.size := by
  cases h with
  | raises | renews | slips => exact .inl ⟨t', found, rfl⟩
  | ticks j c =>
    rw [Array.getElem?_modify] at found
    by_cases same : j = i
    · rw [if_pos same] at found
      obtain ⟨t, found', rfl⟩ := Option.map_eq_some_iff.mp found
      exact .inl ⟨t, found', rfl⟩
    · rw [if_neg same] at found
      exact .inl ⟨t', found, rfl⟩
  | adds c =>
    rw [Array.getElem?_push] at found
    by_cases last : i = b.timers.size
    · rw [if_pos last] at found
      cases found
      exact .inr ⟨rfl, by simp, rfl⟩
    · rw [if_neg last] at found
      exact .inl ⟨t', found, rfl⟩

theorem Stir.grows (h : Stir b b') : b.flags.Grows b'.flags := by
  cases h with
  | raises flag => exact Flags.grows_raise _ _
  | renews => exact (Flags.grows_fresh _).trans (Flags.grows_raise _ _)
  | slips | adds => exact Flags.grows_fresh _
  | ticks => exact .refl _

theorem Stirs.grows (h : Stirs b b') : b.flags.Grows b'.flags :=
  h.preserves (P := fun c => b.flags.Grows c.flags) (.refl _) fun stir grown =>
    grown.trans stir.grows

/-! ### What holds of every backdrop -/

/-- Scopes and timers have flags of their own, and every timer but the last was stopped. -/
structure Sound (b : Backdrop) : Prop where
  scope : b.scope < b.flags.size
  stops : ∀ (i : Nat) (t : Timer), b.timers[i]? = some t → t.stop < b.flags.size ∧ t.stop ≠ b.scope
  stopped : ∀ (i : Nat) (t : Timer), b.timers[i]? = some t → i + 1 < b.timers.size →
    b.flags.isRaised t.stop = true

/-- What holds of a fiber in the background: a tween watches a flag that no timer watches, and where
runs cancel the effects of the run before, the scope is that of the run or it was cancelled. -/
def Tends (b : Backdrop) : Role → Prop
  | .tween _ scope => scope < b.flags.size ∧
    (∀ (i : Nat) (t : Timer), b.timers[i]? = some t → t.stop ≠ scope) ∧
    (b.strict = true → scope = b.scope ∨ b.flags.isRaised scope = true)
  | .countdown i stop => ∃ t, b.timers[i]? = some t ∧ t.stop = stop
  | _ => True

theorem Stir.strict (h : Stir b b') : b'.strict = b.strict := by
  cases h <;> rfl

theorem Stir.scope (h : Stir b b') : b'.scope = b.scope ∨ b'.scope = b.flags.size ∧
    b.flags.size < b'.flags.size ∧
      (b.strict = true → b.scope < b.flags.size → b'.flags.isRaised b.scope = true) := by
  cases h with
  | raises | ticks | adds => exact .inl rfl
  | renews =>
    refine .inr ⟨rfl, by simp, fun _ bound => Flags.isRaised_raise_self ?_⟩
    rw [Flags.size_fresh]
    omega
  | slips lax =>
    refine .inr ⟨rfl, by simp, fun strict => ?_⟩
    rw [lax] at strict
    cases strict

theorem Stir.sound (h : Stir b b') (sound : b.Sound) : b'.Sound := by
  have grows := h.grows
  have size := grows.1
  have bound := sound.scope
  refine ⟨?_, fun i t' found => ?_, fun i t' found inner => ?_⟩
  · rcases h.scope with same | ⟨scope, more, -⟩ <;> omega
  · rcases h.timer' found with ⟨t, found', stop⟩ | ⟨same, more, stop⟩
    · have old := sound.stops i t found'
      rcases h.scope with same | ⟨scope, -⟩ <;> omega
    · omega
  · cases h with
    | raises | renews | slips => exact grows.2 _ (sound.stopped i t' found inner)
    | ticks j c =>
      rcases (Stir.ticks j c).timer' found with ⟨t, found', stop⟩ | ⟨-, more, -⟩
      · rw [← stop]
        exact sound.stopped i t found' (by simpa using inner)
      · exact absurd more (Nat.lt_irrefl _)
    | adds c stopped =>
      -- The timer that was the last one is stopped before another one joins.
      rw [Array.getElem?_push] at found
      rw [Array.size_push] at inner
      rw [if_neg (by omega)] at found
      by_cases last : i + 1 = b.timers.size
      · have back : b.timers.back? = some t' := by
          rw [Array.back?_eq_getElem?, ← last]
          exact found
        exact grows.2 _ (stopped t' back (sound.stops i t' found).1)
      · exact grows.2 _ (sound.stopped i t' found (by omega))

theorem Stirs.sound (h : Stirs b b') (sound : b.Sound) : b'.Sound :=
  h.preserves sound fun stir => stir.sound

theorem Stir.tends (h : Stir b b') {role : Role} (tends : b.Tends role) : b'.Tends role := by
  have grows := h.grows
  cases role with
  | run | fade | load => trivial
  | countdown i stop =>
    obtain ⟨t, found, rfl⟩ := tends
    exact h.timer found
  | tween target scope =>
    obtain ⟨bound, apart, cancelled⟩ := tends
    refine ⟨Nat.lt_of_lt_of_le bound grows.1, fun i t' found => ?_, fun strict => ?_⟩
    · rcases h.timer' found with ⟨t, found', stop⟩ | ⟨-, -, stop⟩
      · have other := apart i t found'
        omega
      · omega
    · rw [h.strict] at strict
      rcases cancelled strict with same | raised
      · rcases h.scope with still | ⟨-, -, raises⟩
        · exact .inl (same.trans still.symm)
        · rw [same] at bound ⊢
          exact .inr (raises strict bound)
      · exact .inr (grows.2 _ raised)

theorem Stirs.tends (h : Stirs b b') {role : Role} (tends : b.Tends role) : b'.Tends role :=
  h.preserves tends fun stir => stir.tends

theorem Hires.tends {role : Role} (h : b.Hires b' role) (sound : b.Sound) (stirs : Stirs b b') :
    b'.Tends role := by
  cases role with
  | run | fade | load => trivial
  | countdown i stop => exact h.2.2
  | tween target scope =>
    have here : b.Tends (.tween target scope) := by
      obtain rfl : scope = b.scope := h
      exact ⟨sound.scope, fun i t found => (sound.stops i t found).2, fun _ => .inl rfl⟩
    exact stirs.tends here

/-- The flags that fibers may come to watch later are younger than `n`. -/
structure Since (n : Nat) (b : Backdrop) : Prop where
  flags : n ≤ b.flags.size
  scope : n ≤ b.scope

theorem Stir.since {n : Nat} (h : Stir b b') (since : b.Since n) : b'.Since n := by
  have size := h.grows.1
  have flags := since.flags
  have scope := since.scope
  refine ⟨by omega, ?_⟩
  rcases h.scope with same | ⟨same, -⟩ <;> omega

theorem Stirs.since {n : Nat} (h : Stirs b b') (since : b.Since n) : b'.Since n :=
  h.preserves since fun stir => stir.since

end Backdrop

/-- What effects in the background see of a world. -/
def World.backdrop (w : World) : Backdrop :=
  ⟨w.settings.cancelStaleEffects, w.flags, w.scope, w.timers⟩

end SceneScript
