import SceneScript.Proofs.Crew
/-!
What the operations of a performance keep: effects in the background, sound and scenes leave the
script alone, choices and runs leave the background alone.
-/

namespace SceneScript

namespace World

variable {run : Prop}

/-! ### Effects in the background -/

theorem keeps_stopCountdown (w : World) : Keeps run w w.stopCountdown := by
  unfold stopCountdown
  split
  · exact keeps_raise _ _
  · exact .refl _

theorem keeps_freshScope_raise (w : World) : Keeps run w (w.freshScope.raise w.scope) := by
  have renewed : Keeps run w { w with
      flags := w.flags.fresh.1.raise w.scope, scope := w.flags.fresh.2 } :=
    .of_fields rfl rfl rfl rfl rfl rfl rfl rfl (.single .renews) fun _ => ⟨rfl, rfl, rfl, rfl⟩
  exact renewed.trans (keeps_wake _ _)

theorem keeps_renewScope (w : World) : Keeps run w w.renewScope := by
  unfold renewScope
  dsimp only
  split
  · exact (keeps_freshScope_raise w).trans (keeps_stopCountdown _)
  · rename_i lax
    have slips : Backdrop.Stirs w.backdrop w.freshScope.backdrop := by
      exact .single (.slips (Bool.eq_false_iff.mpr lax))
    exact .of_fields rfl rfl rfl rfl rfl rfl rfl rfl slips fun _ => ⟨rfl, rfl, rfl, rfl⟩

theorem keeps_cancelSideEffects (w : World) : Keeps run w w.cancelSideEffects :=
  ((keeps_freshScope_raise w).trans (keeps_stopCountdown _)).trans (keeps_remark _ _)

theorem isRaised_stopCountdown (w : World) (t : Timer) (last : w.timers.back? = some t)
    (bound : t.stop < w.flags.size) : w.stopCountdown.flags.isRaised t.stop = true := by
  rw [stopCountdown, last]
  exact Flags.isRaised_raise_self bound

theorem size_stopCountdown (w : World) : w.stopCountdown.flags.size = w.flags.size := by
  unfold stopCountdown
  split
  · exact Flags.size_raise _ _
  · rfl

theorem timers_stopCountdown (w : World) : w.stopCountdown.timers = w.timers := by
  unfold stopCountdown
  split <;> rfl

theorem keeps_addCountdown (w : World) (c : Countdown)
    (stopped : ∀ t, w.timers.back? = some t → t.stop < w.flags.size →
      w.flags.isRaised t.stop = true) :
    Keeps run w ({ w with
        flags := w.flags.fresh.1, timers := w.timers.push ⟨c, w.flags.fresh.2⟩ }.spawn
      (.countdown w.timers.size w.flags.fresh.2) none [.count w.timers.size none]) := by
  have adds := Backdrop.Stir.adds (b := w.backdrop) c stopped
  refine keeps_hire _ _ _ _ _ _ (.single adds) ?_
  exact
    { id_ge := Nat.le_refl _
      id_lt := Nat.lt_succ_self _
      calm := rfl
      dutiful := by simp [Fiber.Dutiful, Fiber.start, Role.allows]
      background := fun _ => rfl
      hired := ⟨_, _, .refl, .single adds, .refl, rfl, rfl, _, Array.getElem?_push_size, rfl⟩ }

theorem keeps_startCountdown (w : World) (c : Countdown) : Keeps run w (w.startCountdown c) := by
  unfold startCountdown
  dsimp only
  refine (keeps_stopCountdown w).trans ?_
  have stopped : ∀ t, w.stopCountdown.timers.back? = some t →
      t.stop < w.stopCountdown.flags.size → w.stopCountdown.flags.isRaised t.stop = true := by
    intro t last bound
    rw [timers_stopCountdown] at last
    rw [size_stopCountdown] at bound
    exact isRaised_stopCountdown w t last bound
  generalize w.stopCountdown = w₁ at stopped ⊢
  refine (keeps_stage _ (.playAnimation .timerTextEnter) fun _ => rfl).trans ?_
  refine (keeps_stage _ (.setTimerText c.text) fun _ => rfl).trans ?_
  refine (keeps_remark _ (.countdownStarted c)).trans ?_
  exact keeps_addCountdown _ c stopped

/-! ### Sound -/

theorem keeps_modifyStrip (w : World) (channel : Channel) (f : Strip → Strip) :
    Keeps run w (w.modifyStrip channel f) := keeps_untracked ..

theorem keeps_setFade (w : World) (channel : Channel) (task : Option Nat) :
    Keeps run w (w.setFade channel task) := keeps_untracked ..

theorem keeps_cancelFade (w : World) (channel : Channel) :
    Keeps run w (w.cancelFade channel) := by
  unfold cancelFade
  split
  · exact (keeps_setFade _ _ _).trans (keeps_abort _ _)
  · exact .refl _

theorem keeps_silence (w : World) (channel : Channel) : Keeps run w (w.silence channel) :=
  ((keeps_modifyStrip _ _ _).trans (keeps_remark _ _)).trans (keeps_record _ _ fun _ => rfl)

theorem keeps_play (w : World) (channel : Channel) (clip : Clip) (pitch : Float32) :
    Keeps run w (w.play channel clip pitch) := by
  unfold play
  have sounded (w : World) : Keeps run w
      (((w.modifyStrip channel fun s => s.play clip pitch).remark
        (.clipPlayed channel clip pitch)).record (.sound (.played channel clip))) :=
    ((keeps_modifyStrip _ _ _).trans (keeps_remark _ _)).trans (keeps_record _ _ fun _ => rfl)
  split
  · by_cases looping : channel.isLooping
    · simp only [looping, if_true]
      exact (keeps_cancelFade w channel).trans (sounded _)
    · simp only [looping]
      exact sounded w
  · exact keeps_record _ _ fun _ => rfl

theorem keeps_fadeOut (w : World) (channel : Channel) (span : Span) :
    Keeps run w (w.fadeOut channel span).1 := by
  unfold fadeOut
  split
  · split
    · exact keeps_remark _ _
    · refine (keeps_cancelFade w channel).trans ?_
      dsimp only
      split
      · refine Keeps.trans (keeps_spawn _ _ _ _ ?_) (keeps_setFade _ _ _)
        exact
          { id_ge := Nat.le_refl _
            id_lt := Nat.lt_succ_self _
            calm := rfl
            dutiful := by simp [Fiber.Dutiful, Fiber.start, Role.allows, Sweep.start]
            background := fun _ => rfl
            hired := ⟨_, _, .refl, .refl, .refl, trivial⟩ }
      · exact (keeps_remark _ _).trans (keeps_silence _ _)
  · split
    · exact .refl _
    · exact keeps_record _ _ fun _ => rfl

theorem keeps_stopChannel (w : World) (channel : Channel) :
    Keeps run w (w.stopChannel channel) :=
  ((keeps_cancelFade _ _).trans (keeps_modifyStrip _ _ _)).trans (keeps_remark _ _)

/-! ### Scenes -/

theorem keeps_setBoard (w : World) (color : Color) : Keeps run w (w.setBoard color) := by
  have painted : Keeps run w { w with boardColor := color } := keeps_untracked ..
  exact painted.trans (keeps_record _ _ fun _ => rfl)

theorem keeps_maskBoard (w : World) (blocked : Bool) : Keeps run w (w.maskBoard blocked) :=
  (keeps_record _ _ fun _ => rfl).trans (keeps_remark _ _)

theorem keeps_enterScene (w : World) (scene : String) : Keeps run w (w.enterScene scene).1 := by
  unfold enterScene
  split
  · exact .refl _
  · split
    · exact .refl _
    · exact keeps_remark _ _

theorem keeps_spawnLoad (w : World) (acts : List Act) (scenic : ∀ a ∈ acts, a.isScenic = true) :
    Keeps run w (w.spawnLoad acts).1 := by
  have counted : Keeps run w { w with loads := w.loads + 1 } := keeps_untracked ..
  unfold spawnLoad
  refine counted.trans (keeps_spawn _ _ _ _ ?_)
  exact
    { id_ge := Nat.le_refl _
      id_lt := Nat.lt_succ_self _
      calm := rfl
      dutiful := fun _ => scenic
      background := fun _ => rfl
      hired := ⟨_, _, .refl, .refl, .refl, trivial⟩ }

/-! ### Choices and runs -/

theorem keeps_closeSlot (w : World) : Keeps False w w.closeSlot := by
  have closed : Keeps False w { w with slot := w.slot.close } :=
    .of_fields rfl rfl rfl rfl rfl rfl rfl rfl .refl False.elim
  unfold closeSlot
  dsimp only
  split
  · exact closed.trans (keeps_wake _ _)
  · exact closed

theorem keeps_select (w : World) (index : Nat) : Keeps False w (w.select index).1 := by
  have picked (slot : ChoiceSlot) (state : Execution) :
      Keeps False w { w with slot, state } :=
    .of_fields rfl rfl rfl rfl rfl rfl rfl rfl .refl False.elim
  unfold select
  split
  · exact (picked _ _).trans (keeps_wake _ _)
  · exact (picked _ w.state).trans (keeps_remark _ _)

theorem keeps_setChosen (w : World) (index : Option Nat) : Keeps False w (w.setChosen index) :=
  .of_fields rfl rfl rfl rfl rfl rfl rfl rfl .refl False.elim

theorem keeps_settleIdle (w : World) : Keeps False w w.settleIdle := by
  have reset : Keeps False w { w with state := w.state.reset } :=
    .of_fields rfl rfl rfl rfl rfl rfl rfl rfl .refl False.elim
  exact ((reset.trans (keeps_closeSlot _)).trans (keeps_stage _ _ False.elim)).trans
    (keeps_stage _ _ False.elim)

end World

end SceneScript
