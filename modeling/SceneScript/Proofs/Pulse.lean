import Mathlib.Data.List.Induction
import SceneScript.Proofs.Screen
/-!
Performances pulse by pulse: one turn of a fiber, one frame, some time, or one thing that the host
does at once, in any order.
-/

namespace SceneScript

inductive Pulse where
  | turn
  | publish (delta : Span) (keys : Keys)
  /-- Time passes. Whatever was due by then is woken. -/
  | pass (span : Span)
  | host (s : HostStep) : s.isBrief = true → Pulse

namespace World

def pulse (w : World) : Pulse → World
  | .turn => w.turn
  | .publish delta keys => w.publish delta keys
  | .pass span => w.reach (w.now + span)
  | .host s _ => (w.apply s).1

def pulses (w : World) (ps : List Pulse) : World := ps.foldl pulse w

variable {w : World} {p : Pulse}

theorem pulses_append (w : World) (ps qs : List Pulse) :
    w.pulses (ps ++ qs) = (w.pulses ps).pulses qs :=
  List.foldl_append

theorem pulses_concat (w : World) (ps : List Pulse) (p : Pulse) :
    w.pulses (ps ++ [p]) = (w.pulses ps).pulse p :=
  pulses_append w ps [p]

/-! ### Turns in a row -/

theorem turns_of_rest (rest : w.ready = []) (m : Nat) : w.turns m = w := by
  cases m with
  | zero => rfl
  | succ m => rw [turns, rest, List.isEmpty_nil, if_pos rfl]

theorem settle_of_rest (rest : w.ready = []) : w.settle = w := turns_of_rest rest patience

theorem turns_succ (w : World) (m : Nat) : w.turns (m + 1) = w.turn.turns m := by
  cases ready : w.ready with
  | nil =>
    have same : w.turn = w := by rw [World.turn, ready]
    rw [turns_of_rest ready, same, turns_of_rest ready]
  | cons f rest => rw [turns, if_neg (by simp [ready])]

theorem turns_add (w : World) (m k : Nat) : w.turns (m + k) = (w.turns m).turns k := by
  induction m generalizing w with
  | zero => rw [Nat.zero_add, turns]
  | succ m ih => rw [Nat.succ_add, turns_succ, ih, turns_succ]

theorem pulses_turns (w : World) (m : Nat) : w.pulses (List.replicate m .turn) = w.turns m := by
  induction m generalizing w with
  | zero => rfl
  | succ m ih =>
    rw [turns_succ, ← ih]
    rfl

/-! ### What holds at every pulse -/

theorem beat_pulse (w : World) (p : Pulse) : Beat w (w.pulse p) := by
  cases p with
  | turn => exact .lull (.turn w)
  | publish delta keys => exact .lull (.publish w delta keys)
  | pass span => exact .lull (.reach w _)
  | host s brief => exact .brief w brief

/-- What holds of a world at every pulse. -/
structure InPlay (w : World) : Prop where
  order : w.InOrder
  tended : w.Tended
  screened : w.Screened

theorem inPlay_opening (o : Opening) : o.world.InPlay :=
  ⟨inOrder_after o [], tended_after o [], screened_after o []⟩

theorem InPlay.beat {w' : World} (h : w.InPlay) (beat : Beat w w') : w'.InPlay where
  order := h.order.beat beat
  tended := h.tended.later (beat.later h.order h.tended)
  screened := h.screened.beat h.order h.tended beat

theorem InPlay.beats {w' : World} (h : w.InPlay) (beats : Beats w w') : w'.InPlay := by
  induction beats with
  | refl => exact h
  | tail _ beat ih => exact ih.beat beat

theorem InPlay.pulse (h : w.InPlay) (p : Pulse) : (w.pulse p).InPlay := h.beat (beat_pulse w p)

theorem InPlay.pulses (h : w.InPlay) (ps : List Pulse) : (w.pulses ps).InPlay := by
  induction ps generalizing w with
  | nil => exact h
  | cons p ps ih => exact ih (h.pulse p)

theorem InPlay.turns (play : w.InPlay) (m : Nat) : (w.turns m).InPlay := by
  rw [← pulses_turns]
  exact play.pulses _

theorem inPlay_pulses (o : Opening) (ps : List Pulse) : (o.world.pulses ps).InPlay :=
  (inPlay_opening o).pulses ps

/-- A property of worlds and of how they came about, pulse by pulse. -/
theorem InPlay.induction {P : List Pulse → World → Prop} (h : w.InPlay) (start : P [] w)
    (step : ∀ ps p, (w.pulses ps).InPlay → P ps (w.pulses ps) →
      P (ps ++ [p]) ((w.pulses ps).pulse p)) (ps : List Pulse) : P ps (w.pulses ps) := by
  induction ps using List.reverseRecOn with
  | nil => exact start
  | append_singleton ps p ih =>
    rw [pulses_concat]
    exact step ps p (h.pulses ps) ih

end World

end SceneScript
