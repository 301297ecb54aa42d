import SceneScript.Proofs.Fades
import SceneScript.Proofs.Reckoning
import SceneScript.Proofs.Waiting
/-!
The fibers of countdowns. What the turn of one does is listed once (`advance_count`). All that others
do to it is to raise its flag: when it is stopped, or when the next one starts (`sole_pulse`).
-/

namespace SceneScript

/-! ### Texts -/

/-- What a countdown shows and tells of itself. -/
inductive Tick where
  | text (s : String)
  | exit
  | timeout
deriving DecidableEq

def Deed.tick? : Deed → Option Tick
  | .stage (.setTimerText s) => some (.text s)
  | .stage (.playAnimation .timerTextExit) => some .exit
  | .event .countdownTimedOut => some .timeout
  | _ => none

/-! ### Flags of countdowns -/

namespace Backdrop

variable {b b' : Backdrop} {i stop : Nat}

/-- The flag stops this countdown and no other one. -/
structure Owns (b : Backdrop) (i stop : Nat) : Prop where
  listed : i < b.timers.size
  bound : stop < b.flags.size
  only : ∀ (j : Nat) (t : Timer), b.timers[j]? = some t → (t.stop = stop ↔ j = i)

theorem Owns.stir (h : b.Owns i stop) (stir : Stir b b') : b'.Owns i stop := by
  obtain ⟨listed, bound, only⟩ := h
  have bound' := Nat.lt_of_lt_of_le bound stir.grows.1
  cases stir with
  | raises | renews | slips => exact ⟨listed, bound', only⟩
  | ticks k c =>
    refine ⟨by simpa using listed, bound', fun j t found => ?_⟩
    rw [Array.getElem?_modify] at found
    split at found
    · obtain ⟨t', found', rfl⟩ := Option.map_eq_some_iff.mp found
      exact only j t' found'
    · exact only j t found
  | adds c =>
    refine ⟨by simpa using Nat.lt_succ_of_lt listed, bound', fun j t found => ?_⟩
    rw [Array.getElem?_push] at found
    split at found
    · cases found
      exact ⟨fun same => absurd same (Nat.ne_of_gt bound), fun same => by omega⟩
    · exact only j t found

theorem Owns.stirs (h : b.Owns i stop) (stirs : Stirs b b') : b'.Owns i stop :=
  stirs.preserves (P := fun c => c.Owns i stop) h fun stir owns => owns.stir stir

theorem Stirs.timers (h : Stirs b b') : b.timers.size ≤ b'.timers.size := by
  refine h.preserves (P := fun c => b.timers.size ≤ c.timers.size) (Nat.le_refl _) fun stir grown => ?_
  cases stir with
  | raises | renews | slips => exact grown
  | ticks => simpa using grown
  | adds => simpa using Nat.le_succ_of_le grown

/-- To stop the last countdown is to stop each of them: those before it were stopped. -/
theorem Owns.stopped (h : b.Owns i stop) (sound : b.Sound) {flags : Flags}
    (grown : b.flags.Grows flags) : (flags.stopLast b.timers).isRaised stop = true := by
  obtain ⟨t, found⟩ : ∃ t, b.timers[i]? = some t := ⟨_, Array.getElem?_eq_getElem h.listed⟩
  have own : t.stop = stop := (h.only i t found).mpr rfl
  have listed := h.listed
  unfold Flags.stopLast
  by_cases last : i + 1 = b.timers.size
  · have back : b.timers.back? = some t := by
      rw [Array.back?_eq_getElem?, ← last]
      exact found
    rw [back]
    dsimp only
    rw [own]
    exact Flags.isRaised_raise_self (Nat.lt_of_lt_of_le h.bound grown.1)
  · have up : flags.isRaised stop = true :=
      grown.2 _ (own ▸ sound.stopped i t found (by omega))
    split
    · exact (Flags.grows_raise _ _).2 _ up
    · exact up

end Backdrop

namespace World

/-- What the fiber told of a countdown. -/
def ticks (w : World) (id : Nat) : List Tick := tale Deed.tick? id w.entries

variable {w x : World} {f : Fiber} {p : Pulse} {id i stop : Nat}

/-! ### The turn of a countdown -/

/-- What the turn of a countdown makes of it, with `w` as it was without the fiber. -/
inductive CountTurn (w : World) (f : Fiber) (i : Nat) (t : Timer) (x : World) : Prop where
  | ends : f.todo = [] → x.backstage = w.backstage → Rests w x → x.ticks f.id = w.ticks f.id →
      CountTurn w f i t x
  | stops {due : Option Span} : f.todo = [.count i due] → w.flags.isRaised t.stop = true →
      x.backstage = w.backstage.join { f with todo := [] } → Rests w x →
      x.ticks f.id = w.ticks f.id → CountTurn w f i t x
  | rings {due : Option Span} : f.todo = [.count i due] → w.flags.isRaised t.stop = false →
      t.left.remaining = 0 →
      x.backstage =
        { w.backstage with flags := w.flags.raise t.stop }.join { f with todo := [] } →
      Rests w x → x.ticks f.id = w.ticks f.id ++ [.exit, .timeout] → CountTurn w f i t x
  | ticks {due : Option Span} : f.todo = [.count i due] → w.flags.isRaised t.stop = false →
      t.left.remaining ≠ 0 → due.getD (w.now + w.settings.tickPeriod) ≤ w.now →
      x.backstage = (w.modifyTimer i t.left.tick.1).backstage.join { f with
        todo := [.count i (due.getD (w.now + w.settings.tickPeriod) + w.settings.tickPeriod)] } →
      Rests w x → x.ticks f.id = w.ticks f.id ++ [.text t.left.tick.1.text] → CountTurn w f i t x
  | waits {due : Option Span} {due' : Span} : f.todo = [.count i due] →
      w.flags.isRaised t.stop = false → t.left.remaining ≠ 0 →
      due.getD (w.now + w.settings.tickPeriod) = due' → w.now < due' →
      x.backstage = w.backstage.join { f with todo := [.count i (some due')] } →
      x.blocked = w.blocked ++ [⟨.time due', { f with todo := [.count i (some due')] }⟩] →
      x.ticks f.id = w.ticks f.id → CountTurn w f i t x

theorem ticks_record (w : World) (d : Deed) (actor : w.actor = some id) :
    (w.record d).ticks id = w.ticks id ++ d.tick?.toList := by
  rw [ticks, entries_record, tale_append, actor, tale_own]
  rfl

theorem conclude_countdown (w : World) (o : Outcome) (role : f.role = .countdown i stop) :
    w.conclude f o = w.yieldScene f := by
  unfold conclude
  rw [role]

theorem timeOut_rings (w : World) {flag : Nat} (down : w.flags.isRaised flag = false)
    (actor : w.actor = some id) :
    (w.timeOut flag).backstage = { w.backstage with flags := w.flags.raise flag } ∧
      (w.timeOut flag).ticks id = w.ticks id ++ [.exit, .timeout] := by
  have same : (w.raise flag).ticks id = w.ticks id := rfl
  have actor' : (w.raise flag).actor = some id := actor
  rw [timeOut, if_neg (by simp [down])]
  constructor
  · rw [backstage_emit, backstage_stage, backstage_remark, backstage_raise]
  · refine (ticks_record (((w.raise flag).remark _).stage _) _ actor).trans ?_
    rw [stage, ticks_record ((w.raise flag).remark _) _ actor', remark,
      ticks_record (w.raise flag) _ actor', same]
    simp [Deed.tick?]

theorem performCount_turn (todo : f.todo = []) (actor : w.actor = some f.id) {t : Timer}
    (found : w.timers[i]? = some t) (due : Option Span) :
    CountTurn w { f with todo := [.count i due] } i t (w.performCount f i due) := by
  have alike (acts : List Act) : f.first acts = { f with todo := acts } := by
    rw [Fiber.first, todo, List.append_nil]
  have same : f = { f with todo := [] } := by rw [← todo]
  unfold performCount
  rw [found]
  dsimp only
  split
  · rename_i expired
    have zero : t.left.remaining = 0 := by simpa [Countdown.isExpired] using expired
    cases raised : w.flags.isRaised t.stop with
    | true =>
      rw [timeOut, if_pos raised]
      refine .stops rfl raised ?_ (rests_of_eq rfl) rfl
      rw [backstage_resume]
      exact congrArg _ same
    | false =>
      obtain ⟨rung, told⟩ := timeOut_rings w raised actor
      have kept : Keeps False w (w.timeOut t.stop) := keeps_timeOut w _
      refine .rings rfl raised zero ?_ kept.blocked told
      rw [backstage_resume, rung]
      exact congrArg _ same
  rename_i going
  have left : t.left.remaining ≠ 0 := by simpa [Countdown.isExpired] using going
  split
  · rename_i raised
    refine .stops rfl raised ?_ (rests_of_eq rfl) ?_
    · rw [backstage_resume, backstage_remark]
      exact congrArg _ same
    · exact (ticks_record w _ actor).trans (List.append_nil _)
  rename_i down
  have down : w.flags.isRaised t.stop = false := by simpa using down
  split
  · rename_i rings
    refine .ticks rfl down left rings ?_ (rests_of_eq rfl) ?_
    · rw [backstage_resume, backstage_stage]
      exact congrArg _ (alike _)
    · exact ticks_record (w.modifyTimer i t.left.tick.1) _ actor
  · rename_i early
    refine .waits rfl down left rfl (Nat.lt_of_not_le early) ?_ ?_ rfl
    · rw [backstage_park, alike]
    · rw [alike]
      rfl

/-- Every turn of a countdown that nothing went wrong with. -/
theorem turn_count {rest : List Fiber} (ready : w.ready = f :: rest)
    (role : f.role = .countdown i stop) (spared : f.doomed = false) (fault : f.fault = none)
    (todo : f.todo = [] ∨ ∃ due, f.todo = [.count i due]) {t : Timer}
    (found : w.timers[i]? = some t) : CountTurn (w.taken f rest) f i t w.turn := by
  have going : (w.taken f rest).isCancelled f = false := by rw [isCancelled, role]
  suffices turned : CountTurn (w.taken f rest) f i t ((w.taken f rest).advance f) by
    rw [turn_cons ready]
    generalize (w.taken f rest).advance f = x at turned
    cases turned with
    | ends todo same rests told => exact .ends todo same rests told
    | stops todo raised same rests told => exact .stops todo raised same rests told
    | rings todo down zero same rests told => exact .rings todo down zero same rests told
    | ticks todo down left due same rests told => exact .ticks todo down left due same rests told
    | waits todo down left due early same blocked told =>
      exact .waits todo down left due early same blocked told
  rcases todo with spent | ⟨due, todo⟩
  · have concluded : (w.taken f rest).advance f = (w.taken f rest).yieldScene f := by
      unfold advance
      rw [if_neg (by simp [spared]), if_neg (by simp [going]), spent, fault]
      dsimp only
      rw [fetch, role]
      exact conclude_countdown _ _ role
    have unmoved : (w.taken f rest).yieldScene f = w.taken f rest := by
      rw [yieldScene, if_neg (by simp [Fiber.holdsScene, spent])]
    rw [concluded, unmoved]
    exact .ends spent rfl (rests_of_eq rfl) rfl
  · rw [advance_perform spared going todo fault]
    have counted := performCount_turn (w := w.taken f rest) (f := { f with todo := [] }) (i := i)
      rfl rfl found due
    have same : f = { f with todo := [.count i due] } := by rw [← todo]
    rw [← same] at counted
    exact counted

/-! ### Other pulses -/

/-- What stops the countdown on show: a command, the next countdown, the end of the side effects, and a
program where programs cancel the effects of the one before. -/
def stops (w : World) : Pulse → Bool
  | .turn =>
    match w.act? with
    | some .stopTimer | some (.timer _) => true
    | _ => false
  | .host .cancelSideEffects _ => true
  | .host (.execute n) _ => w.settings.cancelStaleEffects && (w.executeNumber n).2.isOk
  | _ => false

/-- The countdown's flag, and its fiber if it is still there. -/
structure Sole (w : World) (id i stop : Nat) : Prop where
  owns : w.backdrop.Owns i stop
  fiber : ∀ f ∈ w.hands, ∀ s, f.role = .countdown i s → f.id = id

theorem Sole.pulse (h : w.Sole id i stop) (play : w.InPlay) (p : Pulse) :
    (w.pulse p).Sole id i stop := by
  have later := (beat_pulse w p).later play.order play.tended
  refine ⟨h.owns.stirs later.stirs, fun f among s role => ?_⟩
  rcases later.crew f.calm (List.mem_map_of_mem (mem_hands.mp among)) with ⟨g, listed, same⟩ | hired
  · obtain ⟨g', among', rfl⟩ := List.mem_map.mp listed
    have role' : g'.role = .countdown i s := by
      rcases same.role_or_run with still | ⟨r, run⟩
      · exact still.symm.trans role
      · rw [Fiber.calm_role, role] at run
        cases run
    exact same.id.symm.trans (h.fiber g' (mem_hands.mpr among') s role')
  · -- A countdown that is new has a later place.
    obtain ⟨-, b, b', before, -, -, hires⟩ := hired
    rw [Fiber.calm_role, role] at hires
    have listed := h.owns.listed
    have grown := before.timers
    have place : i = b.timers.size := hires.1
    omega

/-- Only the fiber of a countdown counts it. -/
theorem counts_own (order : w.InOrder) (manned : w.backstage.Manned) (among : f ∈ w.hands)
    {due : Option Span} (member : .count i due ∈ f.todo) : ∃ s, f.role = .countdown i s := by
  cases run : f.isRun with
  | true =>
    have free := manned.hired f among run _ member
    cases free
  | false =>
    have allowed := dutiful_hands order among run _ member
    cases role : f.role with
    | countdown j s =>
      rw [role] at allowed
      obtain rfl : i = j := by simpa [Role.allows] using allowed
      exact ⟨s, rfl⟩
    | _ =>
      rw [role] at allowed
      cases allowed

/-- The count of another countdown. -/
theorem countDown_other (w : World) (owns : w.backdrop.Owns i stop) {j : Nat} (other : j ≠ i)
    (due : Option Span) : (w.countDown j due).timers[i]? = w.timers[i]? ∧
      (w.countDown j due).flags.isRaised stop = w.flags.isRaised stop := by
  rcases countDown_cases w j due with same | ⟨t, found, ⟨-, out⟩ | ⟨-, -, ticked⟩⟩
  · rw [same]
    exact ⟨rfl, rfl⟩
  · have apart : t.stop ≠ stop := fun same => other ((owns.only j t found).mp same)
    rw [out, timers_timeOut]
    refine ⟨rfl, ?_⟩
    unfold timeOut
    split
    · rfl
    · exact Flags.isRaised_raise_ne apart
  · rw [ticked, timers_modifyTimer, Array.getElem?_modify, if_neg other]
    exact ⟨rfl, rfl⟩

/-- The act of another fiber leaves the countdown as it is, but its flag may go up. -/
theorem sole_turn (sole : w.Sole id i stop) (play : w.InPlay) (manned : w.backstage.Manned)
    (other : ¬ w.OwnTurn .turn id) : w.turn.timers[i]? = w.timers[i]? ∧
      w.turn.flags.isRaised stop = (w.flags.isRaised stop || w.stops .turn) := by
  by_cases idle : ∀ a, w.act? = some a → a.dials = false
  · have still := dials_turn play.order idle
    have quiet : w.stops .turn = false := by
      unfold stops
      dsimp only
      split
      · exact idle _ ‹_›
      · exact idle _ ‹_›
      · rfl
    rw [quiet, Bool.or_false]
    exact ⟨congrArg (·.2.1[i]?) still, congrArg (·.1.isRaised stop) still⟩
  push Not at idle
  obtain ⟨a, act, dials⟩ := idle
  obtain ⟨f, rest, ready, member, same⟩ := dials_turn_act play.order act (by simpa using dials)
  have timers : w.turn.timers = ((w.taken f rest).work a).backstage.timers :=
    congrArg (·.2.1) same
  have flags : w.turn.flags = ((w.taken f rest).work a).backstage.flags := congrArg (·.1) same
  have listed := sole.owns.listed
  have sound : w.backdrop.Sound := play.tended.sound
  rw [timers, flags]
  cases a with
  | timer c =>
    have quiet : w.stops .turn = true := by rw [stops, act]
    have work : ((w.taken f rest).work (.timer c)).backstage = _ :=
      backstage_startCountdown (w.taken f rest) c
    rw [work, quiet, Bool.or_true]
    refine ⟨(Array.getElem?_push).trans (if_neg (Nat.ne_of_lt listed)), ?_⟩
    exact (Flags.isRaised_fresh _ _).trans (sole.owns.stopped sound (.refl _))
  | stopTimer =>
    have quiet : w.stops .turn = true := by rw [stops, act]
    have work : ((w.taken f rest).work .stopTimer).backstage = _ :=
      backstage_stopCountdown (w.taken f rest)
    rw [work, quiet, Bool.or_true]
    exact ⟨rfl, sole.owns.stopped sound (.refl _)⟩
  | count j due =>
    have among : f ∈ w.hands := mem_hands_of_ready ready
    have apart : j ≠ i := by
      rintro rfl
      obtain ⟨s, role⟩ := counts_own play.order manned among member
      refine other ⟨rfl, f, ?_, sole.fiber f among s role⟩
      rw [ready]
      rfl
    have quiet : w.stops .turn = false := by rw [stops, act]
    rw [quiet, Bool.or_false]
    exact countDown_other (w.taken f rest) sole.owns apart due
  | _ => simp [Act.dials] at dials

theorem sole_pulse (sole : w.Sole id i stop) (play : w.InPlay) (manned : w.backstage.Manned)
    (other : ¬ w.OwnTurn p id) : (w.pulse p).timers[i]? = w.timers[i]? ∧
      (w.pulse p).flags.isRaised stop = (w.flags.isRaised stop || w.stops p) := by
  have sound : w.backdrop.Sound := play.tended.sound
  cases p with
  | turn => exact sole_turn sole play manned other
  | publish | pass => exact ⟨rfl, (Bool.or_false _).symm⟩
  | host s brief =>
    by_cases running : ∃ n, s = .execute n
    · obtain ⟨n, rfl⟩ := running
      have begins : w.stops (.host (.execute n) brief) =
          (w.settings.cancelStaleEffects && (w.executeNumber n).2.isOk) := rfl
      rw [begins]
      rcases backstage_executeNumber w n with ⟨e, refused, same⟩ | ⟨q, -, accepted, same⟩
      · rw [refused, show (Except.error e : Except Failure Nat).isOk = false from rfl,
          Bool.and_false, Bool.or_false]
        exact ⟨congrArg (·.timers[i]?) same, congrArg (·.flags.isRaised stop) same⟩
      · rw [backstage_renewScope] at same
        rw [accepted, show (Except.ok w.runs : Except Failure Nat).isOk = true from rfl,
          Bool.and_true]
        refine ⟨congrArg (·.timers[i]?) same, (congrArg (·.flags.isRaised stop) same).trans ?_⟩
        show (if w.settings.cancelStaleEffects = true then _ else _ : Flags).isRaised stop = _
        cases w.settings.cancelStaleEffects with
        | true =>
          rw [if_pos rfl, Bool.or_true]
          exact sole.owns.stopped sound ((Flags.grows_fresh _).trans (Flags.grows_raise _ _))
        | false =>
          rw [if_neg (by simp), Bool.or_false]
          exact Flags.isRaised_fresh _ _
    by_cases sparing : s = .cancelSideEffects
    · subst sparing
      have same : (w.pulse (.host .cancelSideEffects brief)).backstage = _ :=
        backstage_cancelSideEffects w
      have ends : w.stops (.host .cancelSideEffects brief) = true := rfl
      rw [ends, Bool.or_true]
      refine ⟨congrArg (·.timers[i]?) same, (congrArg (·.flags.isRaised stop) same).trans ?_⟩
      exact sole.owns.stopped sound ((Flags.grows_fresh _).trans (Flags.grows_raise _ _))
    · have still := dials_host w brief (fun n same => running ⟨n, same⟩) sparing
      have quiet : w.stops (.host s brief) = false := by
        unfold stops
        split
        · exact absurd ‹_› (by simp)
        · rename_i same
          cases same
          exact absurd rfl sparing
        · rename_i n _ same
          cases same
          exact absurd ⟨n, rfl⟩ running
        · rfl
      rw [quiet, Bool.or_false]
      exact ⟨congrArg (·.2.1[i]?) still, congrArg (·.1.isRaised stop) still⟩

end World

end SceneScript
