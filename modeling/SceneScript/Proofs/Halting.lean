import SceneScript.Proofs.Waiting
/-!
What holds a fiber up. An act before which a fiber may wait is either done at once or leaves the
fiber parked with the act still to do (`perform_meets`). Whoever is parked stands before such an act,
and has taken every frame if it waits for one (`halted_pulses`).
-/

namespace SceneScript

/-- What a fiber waits for before an act. -/
def Act.halts : Act → Wait → Bool
  | .finish _, .permit | .stride _, .frame | .confirm, .frame => true
  | .answer .., .answer _ | .enterScene _, .scene | .count .., .time _ => true
  | _, _ => false

/-- The fiber stands before an act that it waits for. If that takes a frame, none is left. -/
structure Parked.Halted (b : Parked) (feed : Feed) : Prop where
  stands : ∃ a after, b.fiber.todo = a :: after ∧ a.halts b.wait = true
  read : b.wait = .frame → ∀ lane, b.fiber.todo.head?.bind Act.lane? = some lane →
    ∀ c, b.fiber.cursorOn lane = some c → feed.count ≤ c.taken

namespace World

/-- A fiber that comes to the act has to wait for this. -/
def Stuck (w : World) (f : Fiber) : Act → Wait → Prop
  | .finish _, .permit => w.rig.gatedStage = true ∧ w.permits = 0
  | .stride s, .frame => w.feed.pull (f.place w.feed s.lane) = .waiting
  | .confirm, .frame => w.feed.pull (f.place w.feed .own) = .waiting
  | .answer receiver _, .answer other => other = receiver ∧ w.slot.receipt receiver = .waiting
  | .enterScene _, .scene => w.waitsForRelease = true
  | .count _ due, .time t => due = some t ∧ w.now < t
  | _, _ => False

/-- How a fiber comes out of an act before which it may wait. -/
inductive Meets (w : World) (f : Fiber) (a : Act) (x : World) : Prop where
  | waits {b : Act} (wait : Wait) : a.Puts [b] → w.Stuck f b wait →
      x = w.park wait (f.first [b]) → Meets w f a x
  | passes (f' : Fiber) : f' = f ∨ (∃ e, f' = f.fail e) →
      x.backstage = (w.work a).backstage.join f' → x.blocked.length ≤ w.blocked.length →
      Meets w f a x
  | hears {receiver : Nat} {options : List String} (index : Nat) : a = .answer receiver options →
      x.backstage = w.backstage.join (f.first [.resync, .chosen index options]) →
      x.blocked.length ≤ w.blocked.length → Meets w f a x
  | takes {lane : Lane} {fr : Frame} {c : Cursor} {missed : Nat} (new : List Act) :
      a.lane? = some lane → w.feed.pull (f.place w.feed lane) = .frame fr c missed →
      (a = .confirm ∧ (new = if fr.keys.confirm then [] else [.confirm]) ∨
        ∃ s s', a = .stride s ∧ s.take? fr = some s' ∧ new = [.sweep s']) →
      x.backstage = (w.backstage.write ⟨w.actor, .took fr⟩).join ((f.setCursor lane c).first new) →
      x.blocked.length ≤ w.blocked.length → Meets w f a x
  | bursts {e : Entry} : x.backstage = (w.backstage.write e).yield f →
      x.blocked.length ≤ w.blocked.length → Meets w f a x
  | ticks {i : Nat} {due : Option Span} {t : Timer} (next : Span) : a = .count i due →
      w.timers[i]? = some t → t.left.isExpired = false →
      x.backstage = (w.modifyTimer i t.left.tick.1).backstage.join (f.first [.count i (some next)]) →
      x.blocked.length ≤ w.blocked.length → Meets w f a x

variable {w x : World} {f : Fiber} {a : Act} {b : Parked} {p : Pulse}

/-! ### Acts before which a fiber may wait -/

theorem blocked_lagged (w : World) (missed : Nat) : (w.lagged missed).blocked = w.blocked := by
  unfold lagged
  split <;> rfl

theorem length_blocked_settleIdle (w : World) : w.settleIdle.blocked.length ≤ w.blocked.length := by
  show (closeSlot { w with state := w.state.reset }).blocked.length ≤ _
  unfold closeSlot
  dsimp only
  split
  · exact List.length_filter_le _ _
  · exact Nat.le_refl _

theorem length_blocked_concludeRun (w : World) (o : Outcome) :
    (w.concludeRun o).blocked.length ≤ w.blocked.length := by
  have same : (w.concludeRun o).blocked = w.settleIdle.blocked := by
    unfold concludeRun
    generalize w.settleIdle = settled
    cases o <;> rfl
  rw [same]
  exact length_blocked_settleIdle w

theorem length_blocked_conclude (w : World) (f : Fiber) (o : Outcome) :
    (w.conclude f o).blocked.length ≤ w.blocked.length := by
  have same : (w.yieldScene f).blocked = w.blocked := by
    unfold yieldScene
    split <;> rfl
  rw [← same]
  unfold conclude
  dsimp only
  generalize w.yieldScene f = w₁
  split
  · exact length_blocked_concludeRun w₁ _
  · exact Nat.le_refl _
  · split <;> exact Nat.le_refl _
  all_goals exact Nat.le_refl _

theorem meets_takeFrame {lane : Lane} {next : World → Fiber → Frame → World}
    (takes : a.lane? = some lane) (stuck : w.feed.pull (f.place w.feed lane) = .waiting →
      w.Stuck f a .frame) (again : a.Puts [a])
    (goes : ∀ fr c missed, w.feed.pull (f.place w.feed lane) = .frame fr c missed →
      Meets w f a (next ((w.lagged missed).record (.took fr)) (f.setCursor lane c) fr)) :
    Meets w f a (w.takeFrame f lane a next) := by
  have idle : w.work a = w := by cases a <;> first | rfl | cases takes
  unfold takeFrame
  split
  · rename_i waiting
    exact .waits .frame again (stuck waiting) rfl
  · exact .passes (f.fail .frameSourceClosed) (.inr ⟨_, rfl⟩) (by rw [idle, backstage_resume])
      (Nat.le_refl _)
  · rename_i fr c missed pulled
    exact goes fr c missed pulled

theorem meets_stride (w : World) (f : Fiber) (s : Sweep) :
    Meets w f (.stride s) (w.performStride f s) := by
  refine meets_takeFrame rfl id (.inl rfl) fun fr c missed pulled => ?_
  have blocked : ((w.lagged missed).record (.took fr)).blocked = w.blocked := blocked_lagged w missed
  split
  · rename_i s' taken
    refine .takes [.sweep s'] rfl pulled (.inr ⟨s, s', rfl, taken, rfl⟩) ?_ (Nat.le_of_eq ?_)
    · rw [backstage_resume, backstage_took]
    · exact congrArg List.length blocked
  · refine .bursts (e := ⟨w.actor, .took fr⟩) ?_ ?_
    · rw [backstage_conclude, backstage_took]
      unfold Backstage.yield
      rw [(setCursor_fields f s.lane c).1, (setCursor_fields f s.lane c).2.1]
    · exact blocked ▸ length_blocked_conclude _ _ _

theorem meets_confirm (w : World) (f : Fiber) : Meets w f .confirm (w.performConfirm f) := by
  refine meets_takeFrame rfl id (.inr rfl) fun fr c missed pulled => ?_
  have blocked : ((w.lagged missed).record (.took fr)).blocked = w.blocked := blocked_lagged w missed
  refine .takes (if fr.keys.confirm then [] else [.confirm]) rfl pulled (.inl ⟨rfl, rfl⟩) ?_
    (Nat.le_of_eq (congrArg List.length blocked))
  rw [backstage_resume, backstage_took]
  split <;> rfl

theorem meets_finish (w : World) (f : Fiber) (an : Animation) :
    Meets w f (.finish an) (w.performFinish f an) := by
  unfold performFinish
  split
  · rename_i held
    refine .waits .permit (.inr rfl) ?_ rfl
    simpa [Stuck] using held
  · refine .passes f (.inl rfl) ?_ (Nat.le_of_eq ?_)
    · rw [backstage_resume, backstage_stage]
      split <;> rfl
    · dsimp only
      split <;> rfl

theorem meets_answer (w : World) (f : Fiber) (receiver : Nat) (options : List String) :
    Meets w f (.answer receiver options) (w.performAnswer f receiver options) := by
  unfold performAnswer
  split
  · rename_i waiting
    exact .waits (.answer receiver) (.inl rfl) ⟨rfl, waiting⟩ rfl
  · rename_i index _
    exact .hears index rfl rfl (Nat.le_refl _)
  · exact .passes _ (.inr ⟨_, rfl⟩) rfl (Nat.le_refl _)

theorem meets_enterScene (w : World) (f : Fiber) (scene : String) :
    Meets w f (.enterScene scene) (w.performEnterScene f scene) := by
  have entered := (backstage_enterScene w.spendRelease scene).trans (backstage_spendRelease w)
  have blocked : (w.spendRelease.enterScene scene).1.blocked = w.blocked := by
    have spent : w.spendRelease.blocked = w.blocked := by
      unfold spendRelease
      split <;> rfl
    rw [← spent]
    unfold enterScene
    split
    · rfl
    · split <;> rfl
  unfold performEnterScene
  split
  · rename_i waits
    exact .waits .scene (.inr rfl) waits rfl
  split
  · rename_i h
    rw [h] at entered blocked
    exact .passes f (.inl rfl) (by rw [backstage_resume, entered]; rfl)
      (Nat.le_of_eq (congrArg List.length blocked))
  · rename_i h
    rw [h] at entered blocked
    exact .passes _ (.inr ⟨_, rfl⟩) (by rw [backstage_resume, entered]; rfl)
      (Nat.le_of_eq (congrArg List.length blocked))

theorem length_blocked_timeOut (w : World) (stop : Nat) :
    (w.timeOut stop).blocked.length ≤ w.blocked.length := by
  unfold timeOut
  split
  · exact Nat.le_refl _
  · exact List.length_filter_le _ _

theorem meets_count (w : World) (f : Fiber) (timer : Nat) (due : Option Span) :
    Meets w f (.count timer due) (w.performCount f timer due) := by
  have dropped {w₁ : World} (same : w₁.backstage = (w.countDown timer due).backstage)
      (rests : w₁.blocked.length ≤ w.blocked.length) : Meets w f (.count timer due) (w₁.resume f) :=
    .passes f (.inl rfl) (by rw [backstage_resume, same]; rfl) rests
  cases found : w.timers[timer]? with
  | none =>
    rw [performCount, found]
    exact dropped (by rw [countDown, found]) (Nat.le_refl _)
  | some t =>
    rw [countDown, found] at dropped
    rw [performCount, found]
    dsimp only at dropped ⊢
    split
    · rename_i expired
      rw [if_pos expired] at dropped
      exact dropped rfl (length_blocked_timeOut w _)
    rename_i running
    rw [if_neg running] at dropped
    split
    · rename_i raised
      rw [if_pos raised] at dropped
      exact dropped (backstage_remark w _) (Nat.le_refl _)
    split
    · exact .ticks _ rfl found (by simpa using running)
        (by rw [backstage_resume, backstage_stage]) (Nat.le_refl _)
    · rename_i early
      exact .waits (.time _) (.inr ⟨_, rfl⟩) ⟨rfl, Nat.lt_of_not_le early⟩ rfl

/-- Acts before which a fiber may wait are done, or the fiber is parked with the act still to do. -/
theorem perform_meets (w : World) (f : Fiber) (a : Act) (suspends : a.suspends = true) :
    Meets w f a (w.perform f a) := by
  cases a with
  | finish an => exact meets_finish w f an
  | stride s => exact meets_stride w f s
  | confirm => exact meets_confirm w f
  | answer receiver options => exact meets_answer w f receiver options
  | enterScene scene => exact meets_enterScene w f scene
  | count timer due => exact meets_count w f timer due
  | _ => cases suspends

theorem Stuck.halts {wait : Wait} (stuck : w.Stuck f a wait) : a.halts wait = true := by
  cases a <;> cases wait <;> first | rfl | exact stuck.elim

theorem suspends_of_awaits {wait : Wait} (awaits : w.Awaits a wait) : a.suspends = true := by
  cases a <;> first | rfl | exact awaits.elim

/-! ### Parked fibers -/

/-- Whoever is parked in a turn stands before the act that it cannot do. -/
theorem turn_halts (w : World) :
    Rests w w.turn ∨ ∃ f rest a after b wait, w.ready = f :: rest ∧ f.todo = a :: after ∧
      (w.taken f rest).Stuck { f with todo := after } b wait ∧
      w.turn.blocked = w.blocked ++ [⟨wait, { f with todo := b :: after }⟩] := by
  rcases turn_parks w with rests | ⟨a, wait, g, act, awaits, blocked⟩
  · exact .inl rests
  obtain ⟨f, rest, after, ready, -, -, todo, turned⟩ := turn_doing act
  refine .inr ⟨f, rest, a, after, ?_⟩
  have meets := perform_meets (w.taken f rest) { f with todo := after } a (suspends_of_awaits awaits)
  have same : w.turn.blocked = ((w.taken f rest).perform { f with todo := after } a).blocked := by
    rw [turned]
  generalize (w.taken f rest).perform { f with todo := after } a = x at meets same
  have longer : ¬ x.blocked.length ≤ w.blocked.length := by
    rw [← same, blocked, List.length_append]
    simp
  cases meets with
  | @waits b wait _ stuck parked =>
    exact ⟨b, wait, ready, todo, stuck, by rw [same, parked]; rfl⟩
  | passes _ _ _ rests | hears _ _ _ rests | takes _ _ _ _ _ rests | bursts _ rests
  | ticks _ _ _ _ _ rests => exact absurd rests longer

end World

theorem Parked.Halted.of_calm {b b' : Parked} {feed feed' : Feed} (h : b'.Halted feed)
    (wait : b'.wait = b.wait) (calm : b'.fiber.calm = b.fiber.calm)
    (still : b.wait = .frame → feed'.count = feed.count) : b.Halted feed' := by
  obtain ⟨-, -, todo, -, -⟩ := Fiber.fields_of_calm calm
  have cursorOn (lane : Lane) : b'.fiber.cursorOn lane = b.fiber.cursorOn lane := by
    have same : b'.fiber.calm.cursorOn lane = b.fiber.calm.cursorOn lane := by rw [calm]
    exact same
  refine ⟨?_, fun frame lane takes c stands => ?_⟩
  · rw [← todo, ← wait]
    exact h.stands
  · rw [still frame]
    exact h.read (wait.trans frame) lane (todo ▸ takes) c (cursorOn lane ▸ stands)

namespace World

variable {w : World} {p : Pulse}

/-- Every parked fiber is halted. -/
def Halted (w : World) : Prop := ∀ b ∈ w.blocked, b.Halted w.feed

theorem Halted.turn (h : w.Halted) (play : w.InPlay) (deep : 0 < w.feed.depth) : w.turn.Halted := by
  have feed : w.turn.feed = w.feed := play.screened.feed_turn play.order
  intro b among
  rw [feed]
  rcases turn_halts w with rests | ⟨f, rest, a, after, d, wait, ready, todo, stuck, blocked⟩
  · obtain ⟨b', among', wait, calm⟩ := rests b among
    exact (h b' among').of_calm wait calm fun _ => rfl
  rw [blocked] at among
  rcases List.mem_append.mp among with among | here
  · exact h b among
  obtain rfl := List.mem_singleton.mp here
  refine ⟨⟨d, after, rfl, stuck.halts⟩, fun frame lane takes c stands => ?_⟩
  obtain rfl : wait = .frame := frame
  have takes : d.lane? = some lane := takes
  have waiting : w.feed.pull (f.place w.feed lane) = .waiting := by
    cases d with
    | stride s =>
      obtain rfl := Option.some.inj takes
      exact stuck
    | confirm =>
      obtain rfl := Option.some.inj takes
      exact stuck
    | _ => cases takes
  have place : f.place w.feed lane = c := by
    rw [Fiber.place, show f.cursorOn lane = some c from stands]
    rfl
  exact Feed.count_le_of_waiting deep (place ▸ waiting)

theorem halted_pulses (o : Opening) (ps : List Pulse) : (o.world.pulses ps).Halted := by
  refine (inPlay_opening o).induction (P := fun ps w => w.Halted) (fun _ among => nomatch among)
    (fun ps p play halted => ?_) ps
  by_cases taken : p = .turn
  · subst taken
    exact halted.turn play (depth_pulses o ps)
  intro b among
  obtain ⟨b', among', wait, calm⟩ := (hosted_pulse _ taken).keeps.blocked b among
  refine (halted b' among').of_calm wait calm fun frame => ?_
  by_cases still : ∀ delta keys, p ≠ .publish delta keys
  · rw [Feed.count, play.frames still]
    rfl
  · push Not at still
    obtain ⟨delta, keys, rfl⟩ := still
    exact absurd frame (blocked_publish among)

end World

end SceneScript
