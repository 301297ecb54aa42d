import Mathlib.Data.Multiset.MapFold
import SceneScript.Proofs.Cancel
/-!
Behind the stage: the mixer, the countdowns and what stops them, the clock, the feed, every fiber as
it stands, and what the chronicle tells of sounds and of frames taken. Each operation has one
equation that says what it does to them; most do nothing.
-/

namespace SceneScript

/-- Deeds that tell of sounds or of frames taken. -/
def Deed.isLogged : Deed → Bool
  | .sound _ | .took _ => true
  | _ => false

structure Backstage where
  mixer : Mixer
  flags : Flags
  timers : Array Timer
  now : Span
  feed : Feed
  hands : Multiset Fiber
  log : List Entry

namespace Backstage

def join (b : Backstage) (f : Fiber) : Backstage := { b with hands := f ::ₘ b.hands }

def write (b : Backstage) (e : Entry) : Backstage := { b with log := b.log ++ [e] }

def doom (b : Backstage) (id : Nat) : Backstage := { b with hands := b.hands.map (World.doom id) }

def modifyStrip (b : Backstage) (channel : Channel) (f : Strip → Strip) : Backstage :=
  { b with mixer := b.mixer.modifyStrip channel f }

def setFade (b : Backstage) (channel : Channel) (task : Option Nat) : Backstage :=
  { b with mixer := b.mixer.setFade channel task }

/-- What is left when the fade of a channel, if any, was cancelled. -/
def cancel (b : Backstage) (channel : Channel) : Backstage :=
  match b.mixer.fades.get channel with
  | some task => (b.setFade channel none).doom task
  | none => b

/-- A fade that ends leaves the slot of its channel, unless another one has it. -/
def yield (b : Backstage) (f : Fiber) : Backstage :=
  match f.role with
  | .fade channel =>
    if b.mixer.fades.get channel = some f.id then b.setFade channel none else b
  | _ => b

theorem fresh_of_nodup {b : Backstage} {f : Fiber} (ids : ((b.join f).hands.map (·.id)).Nodup) :
    ∀ g ∈ b.hands, g.id ≠ f.id := by
  rw [show (b.join f).hands = f ::ₘ b.hands from rfl, Multiset.map_cons, Multiset.nodup_cons] at ids
  exact fun g member same => ids.1 (Multiset.mem_map.mpr ⟨g, member, same⟩)

theorem log_cancel (b : Backstage) (c : Channel) : (b.cancel c).log = b.log := by
  unfold cancel
  split <;> rfl

end Backstage

namespace World

def log (w : World) : List Entry := w.entries.filter (·.deed.isLogged)

def hands (w : World) : Multiset Fiber := (w.fibers : List Fiber)

def backstage (w : World) : Backstage :=
  ⟨w.mixer, w.flags, w.timers, w.now, w.feed, w.hands, w.log⟩

variable {w : World} {f : Fiber}

theorem mem_hands : f ∈ w.hands ↔ f ∈ w.fibers := Multiset.mem_coe

theorem mem_hands_of_ready {rest : List Fiber} (ready : w.ready = f :: rest) : f ∈ w.hands :=
  mem_hands.mpr (by simp [fibers, ready])

theorem mem_hands_of_blocked {b : Parked} (parked : b ∈ w.blocked) : b.fiber ∈ w.hands :=
  mem_hands.mpr (List.mem_append_right _ (List.mem_map_of_mem parked))

/-! ### The chronicle -/

theorem backstage_record (w : World) {d : Deed} (silent : d.isLogged = false) :
    (w.record d).backstage = w.backstage := by
  have log : (w.record d).log = w.log := by simp [World.log, entries, record, silent]
  rw [backstage, log]
  rfl

theorem backstage_record_logged (w : World) {d : Deed} (logged : d.isLogged = true) :
    (w.record d).backstage = w.backstage.write ⟨w.actor, d⟩ := by
  have log : (w.record d).log = w.log ++ [⟨w.actor, d⟩] := by
    simp [World.log, entries, record, logged]
  rw [backstage, log]
  rfl

@[simp] theorem backstage_remark (w : World) (r : Remark) : (w.remark r).backstage = w.backstage :=
  backstage_record w rfl

@[simp] theorem backstage_emit (w : World) (e : Event) : (w.emit e).backstage = w.backstage :=
  backstage_record w rfl

@[simp] theorem backstage_stage (w : World) (c : StageCall) :
    (w.stage c).backstage = w.backstage :=
  backstage_record w rfl

theorem nextFiber_record (w : World) (d : Deed) : (w.record d).nextFiber = w.nextFiber := rfl

/-! ### Fibers -/

theorem backstage_resume (w : World) (f : Fiber) :
    (w.resume f).backstage = w.backstage.join f := rfl

theorem backstage_park (w : World) (wait : Wait) (f : Fiber) :
    (w.park wait f).backstage = w.backstage.join f := by
  have hands : (w.park wait f).hands = f ::ₘ w.hands := by
    refine Multiset.coe_eq_coe.mpr ?_
    simp only [fibers, park, List.map_append, List.map_cons, List.map_nil, ← List.append_assoc]
    exact List.perm_append_singleton _ _
  rw [backstage, hands]
  rfl

theorem backstage_spawn (w : World) (role : Role) (cursor : Option Cursor) (todo : List Act) :
    (w.spawn role cursor todo).backstage =
      w.backstage.join (.start w.nextFiber role cursor todo) := by
  have hands : (w.spawn role cursor todo).hands =
      .start w.nextFiber role cursor todo ::ₘ w.hands := by
    refine Multiset.coe_eq_coe.mpr ?_
    simp only [fibers, spawn, List.append_assoc, List.singleton_append]
    exact List.perm_middle
  rw [backstage, hands]
  rfl

@[simp] theorem backstage_wake (w : World) (p : Parked → Bool) :
    (w.wake p).backstage = w.backstage := by
  have hands : (w.wake p).hands = w.hands := by
    refine Multiset.coe_eq_coe.mpr ?_
    simp only [fibers, wake, List.append_assoc, ← List.map_append]
    exact ((List.filter_append_perm p w.blocked).map _).append_left _
  rw [backstage, hands]
  rfl

theorem backstage_abort (w : World) (id : Nat) :
    (w.abort id).backstage = w.backstage.doom id := by
  unfold abort
  rw [backstage_wake]
  have hands : (w.ready.map (World.doom id) ++
      (w.blocked.map fun (b : Parked) => (⟨b.wait, World.doom id b.fiber⟩ : Parked)).map (·.fiber) :
        Multiset Fiber) = w.hands.map (World.doom id) := by
    simp [World.hands, fibers, List.map_map, Function.comp_def]
  exact congrArg (fun hands => Backstage.mk w.mixer w.flags w.timers w.now w.feed hands w.log) hands

theorem backstage_raise (w : World) (flag : Nat) :
    (w.raise flag).backstage = { w.backstage with flags := w.flags.raise flag } :=
  backstage_wake _ _

/-! ### Effects in the background -/

end World

/-- The flags when the last countdown was stopped. -/
def Flags.stopLast (flags : Flags) (timers : Array Timer) : Flags :=
  match timers.back? with
  | some t => flags.raise t.stop
  | none => flags

namespace World

variable {w : World} {f : Fiber}

theorem backstage_stopCountdown (w : World) :
    w.stopCountdown.backstage = { w.backstage with flags := w.flags.stopLast w.timers } := by
  unfold stopCountdown Flags.stopLast
  cases w.timers.back? with
  | some t => exact backstage_raise _ _
  | none => rfl

theorem backstage_renewScope (w : World) :
    w.renewScope.backstage = { w.backstage with
      flags := if w.settings.cancelStaleEffects then
        (w.flags.fresh.1.raise w.scope).stopLast w.timers else w.flags.fresh.1 } := by
  unfold renewScope
  dsimp only
  split
  · rename_i strict
    rw [backstage_stopCountdown, backstage_raise, if_pos (by exact strict)]
    rfl
  · rename_i lax
    rw [if_neg (by exact lax)]
    rfl

theorem backstage_cancelSideEffects (w : World) :
    w.cancelSideEffects.backstage =
      { w.backstage with flags := (w.flags.fresh.1.raise w.scope).stopLast w.timers } := by
  unfold cancelSideEffects
  dsimp only
  rw [backstage_remark, backstage_stopCountdown, backstage_raise]
  rfl

theorem nextFiber_stopCountdown (w : World) : w.stopCountdown.nextFiber = w.nextFiber := by
  unfold stopCountdown
  split <;> rfl

/-- What starting a countdown leaves when the one before was stopped. -/
theorem backstage_addCountdown (w : World) (c : Countdown) :
    ({ w with
        flags := w.flags.fresh.1, timers := w.timers.push ⟨c, w.flags.fresh.2⟩ }.spawn
      (.countdown w.timers.size w.flags.fresh.2) none [.count w.timers.size none]).backstage =
      { w.backstage with
          flags := w.flags.fresh.1, timers := w.timers.push ⟨c, w.flags.fresh.2⟩ }.join
        (.start w.nextFiber (.countdown w.timers.size w.flags.fresh.2) none
          [.count w.timers.size none]) :=
  backstage_spawn _ _ _ _

theorem backstage_startCountdown (w : World) (c : Countdown) :
    let flags := w.flags.stopLast w.timers
    (w.startCountdown c).backstage =
      { w.backstage with
          flags := flags.fresh.1, timers := w.timers.push ⟨c, flags.fresh.2⟩ }.join
        (.start w.nextFiber (.countdown w.timers.size flags.fresh.2) none
          [.count w.timers.size none]) := by
  intro flags
  have told : (((w.stopCountdown.stage (.playAnimation .timerTextEnter)).stage
      (.setTimerText c.text)).remark (.countdownStarted c)).backstage =
        { w.backstage with flags } := by
    rw [backstage_remark, backstage_stage, backstage_stage, backstage_stopCountdown]
  have fibers : (((w.stopCountdown.stage (.playAnimation .timerTextEnter)).stage
      (.setTimerText c.text)).remark (.countdownStarted c)).nextFiber = w.nextFiber := by
    rw [remark, nextFiber_record, stage, nextFiber_record, stage, nextFiber_record,
      nextFiber_stopCountdown]
  refine (backstage_addCountdown _ c).trans ?_
  generalize ((w.stopCountdown.stage (.playAnimation .timerTextEnter)).stage
    (.setTimerText c.text)).remark (.countdownStarted c) = w₁ at told fibers
  have same : w₁.flags = flags := congrArg Backstage.flags told
  have timers : w₁.timers = w.timers := congrArg Backstage.timers told
  rw [told, same, timers, fibers]

/-! ### Sound -/

theorem backstage_modifyStrip (w : World) (channel : Channel) (f : Strip → Strip) :
    (w.modifyStrip channel f).backstage = w.backstage.modifyStrip channel f := rfl

theorem backstage_setFade (w : World) (channel : Channel) (task : Option Nat) :
    (w.setFade channel task).backstage = w.backstage.setFade channel task := rfl

theorem backstage_cancelFade (w : World) (channel : Channel) :
    (w.cancelFade channel).backstage = w.backstage.cancel channel := by
  have same : w.backstage.mixer = w.mixer := rfl
  unfold cancelFade Backstage.cancel
  rw [same]
  cases w.mixer.fades.get channel with
  | some task => exact backstage_abort _ _
  | none => rfl

theorem actor_cancelFade (w : World) (channel : Channel) :
    (w.cancelFade channel).actor = w.actor := by
  unfold cancelFade
  split <;> rfl

theorem backstage_silence (w : World) (channel : Channel) :
    (w.silence channel).backstage =
      (w.backstage.modifyStrip channel Strip.stop).write ⟨w.actor, .sound (.fadedOut channel)⟩ := by
  unfold silence
  rw [backstage_record_logged _ rfl, backstage_remark]
  rfl

theorem backstage_stopChannel (w : World) (channel : Channel) :
    (w.stopChannel channel).backstage =
      (w.backstage.cancel channel).modifyStrip channel Strip.stop := by
  unfold stopChannel
  rw [backstage_remark, backstage_modifyStrip, backstage_cancelFade]

theorem backstage_play (w : World) (channel : Channel) (clip : Clip) (pitch : Float32) :
    (w.play channel clip pitch).backstage =
      if w.rig.mixed then
        ((if channel.isLooping then w.backstage.cancel channel else w.backstage).modifyStrip channel
          fun s => s.play clip pitch).write ⟨w.actor, .sound (.played channel clip)⟩
      else w.backstage := by
  have played (w : World) : (((w.modifyStrip channel fun s => s.play clip pitch).remark
      (.clipPlayed channel clip pitch)).record (.sound (.played channel clip))).backstage =
        (w.backstage.modifyStrip channel fun s => s.play clip pitch).write
          ⟨w.actor, .sound (.played channel clip)⟩ := by
    rw [backstage_record_logged _ rfl, backstage_remark]
    rfl
  unfold play
  dsimp only
  split
  · rw [played]
    split
    · rw [backstage_cancelFade, actor_cancelFade]
    · rfl
  · exact backstage_record _ rfl

/-- A fade of a mixed channel cancels the one before, and brings its own fiber. -/
theorem backstage_fadeOut (w : World) (channel : Channel) (span : Span) :
    (w.fadeOut channel span).1.backstage =
      if w.rig.mixed && channel.isLooping then
        if w.rig.tasks then
          ((w.backstage.cancel channel).setFade channel (some w.nextFiber)).join
            (.start w.nextFiber (.fade channel) (some w.feed.subscribe)
              [.sweep (.start .own (.volume channel) span), .silence channel])
        else ((w.backstage.cancel channel).modifyStrip channel Strip.stop).write
          ⟨w.actor, .sound (.fadedOut channel)⟩
      else w.backstage := by
  have cancelled : (w.cancelFade channel).nextFiber = w.nextFiber ∧
      (w.cancelFade channel).feed = w.feed ∧ (w.cancelFade channel).rig = w.rig := by
    unfold cancelFade
    split <;> exact ⟨rfl, rfl, rfl⟩
  unfold fadeOut
  cases mixed : w.rig.mixed with
  | false =>
    rw [if_neg (by simp)]
    split
    · rfl
    · exact backstage_record w rfl
  | true =>
    cases looping : channel.isLooping with
    | false => exact backstage_remark w _
    | true =>
      simp only [if_true, Bool.and_self, Bool.not_true, Bool.false_eq_true, if_false, cancelled.2.2]
      split
      · rw [backstage_setFade, backstage_spawn, backstage_cancelFade, cancelled.1, cancelled.2.1]
        rfl
      · rw [backstage_silence, backstage_remark, backstage_cancelFade]
        exact congrArg _ (congrArg (Entry.mk · _) (actor_cancelFade w channel))

/-! ### Scenes -/

@[simp] theorem backstage_setBoard (w : World) (color : Color) :
    (w.setBoard color).backstage = w.backstage :=
  backstage_record _ rfl

@[simp] theorem backstage_maskBoard (w : World) (blocked : Bool) :
    (w.maskBoard blocked).backstage = w.backstage := by
  rw [maskBoard, backstage_remark, backstage_record _ rfl]

@[simp] theorem backstage_enterScene (w : World) (scene : String) :
    (w.enterScene scene).1.backstage = w.backstage := by
  unfold enterScene
  split
  · rfl
  · split <;> simp

@[simp] theorem backstage_spendRelease (w : World) : w.spendRelease.backstage = w.backstage := by
  unfold spendRelease
  split <;> rfl

@[simp] theorem backstage_lagged (w : World) (missed : Nat) :
    (w.lagged missed).backstage = w.backstage := by
  unfold lagged
  split <;> simp

@[simp] theorem backstage_yieldScene (w : World) (f : Fiber) :
    (w.yieldScene f).backstage = w.backstage := by
  unfold yieldScene
  split <;> rfl

/-! ### Choices and runs -/

@[simp] theorem backstage_closeSlot (w : World) : w.closeSlot.backstage = w.backstage := by
  have closed : backstage { w with slot := w.slot.close } = w.backstage := rfl
  unfold closeSlot
  dsimp only
  split
  · rw [backstage_wake, closed]
  · exact closed

@[simp] theorem backstage_select (w : World) (index : Nat) :
    (w.select index).1.backstage = w.backstage := by
  unfold select
  split
  · exact backstage_wake _ _
  · exact backstage_remark _ _

@[simp] theorem backstage_settleIdle (w : World) : w.settleIdle.backstage = w.backstage := by
  have reset : backstage { w with state := w.state.reset } = w.backstage := rfl
  rw [settleIdle, backstage_stage, backstage_stage, backstage_closeSlot, reset]

theorem backstage_concludeRun (w : World) (o : Outcome) :
    (w.concludeRun o).backstage = w.backstage := by
  cases o <;> simp [concludeRun]

theorem backstage_conclude (w : World) (f : Fiber) (o : Outcome) :
    (w.conclude f o).backstage = w.backstage.yield f := by
  unfold conclude Backstage.yield
  dsimp only
  cases f.role with
  | run r => rw [backstage_record _ rfl, backstage_concludeRun, backstage_yieldScene]
  | tween | countdown => cases o <;> simp
  | load number =>
    cases o with
    | completed | failed | panicked => rw [backstage_record _ rfl, backstage_yieldScene]
    | cancelled => exact backstage_yieldScene w f
  | fade channel =>
    have mixer : (w.yieldScene f).mixer = w.backstage.mixer :=
      congrArg Backstage.mixer (backstage_yieldScene w f)
    dsimp only
    rw [mixer]
    split
    · rw [backstage_setFade, backstage_yieldScene]
    · exact backstage_yieldScene w f

/-- A refused program changes nothing; an accepted one may stop the countdown, and brings its fiber. -/
theorem backstage_executeNumber (w : World) (n : Nat) :
    (∃ e, (w.executeNumber n).2 = .error e ∧ (w.executeNumber n).1.backstage = w.backstage) ∨
    ∃ q, w.state.executing = false ∧ (w.executeNumber n).2 = .ok w.runs ∧
      (w.executeNumber n).1.backstage =
        w.renewScope.backstage.join
          (.start w.nextFiber (.run ⟨w.runs, q, 0, .empty⟩) (some w.feed.subscribe) []) := by
  rcases execute_cases w (w.programs.getD n (.ofCommands [])) with
    ⟨e, rm, q, heq, -⟩ | ⟨q, idle, -, -, heq⟩
  · refine .inl ⟨e, by rw [executeNumber, heq], ?_⟩
    rw [executeNumber, heq]
    exact backstage_remark w rm
  · refine .inr ⟨q, idle, by rw [executeNumber, heq], ?_⟩
    have begun : w.begun.renewScope.backstage = w.renewScope.backstage := by
      rw [backstage_renewScope, backstage_renewScope]
      rfl
    have fibers : w.begun.renewScope.nextFiber = w.nextFiber := by
      unfold renewScope
      dsimp only
      split
      · exact nextFiber_stopCountdown _
      · rfl
    have announced (w : World) (number : Nat) :
        (w.announce number).backstage = w.backstage ∧ (w.announce number).nextFiber = w.nextFiber := by
      constructor
      · rw [announce, backstage_emit, backstage_stage, backstage_stage]
      · rfl
    rw [executeNumber, heq]
    show (w.launch q).backstage = _
    have feed : w.begun.renewScope.feed = w.feed := by
      have same := congrArg Backstage.feed (begun.trans (backstage_renewScope w))
      exact same
    rw [launch, backstage_spawn, (announced _ _).1, (announced _ _).2, begun, fibers, feed]

end World

end SceneScript
