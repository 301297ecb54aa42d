import SceneScript.Proofs.Waiting
/-!
Whoever waits watches a flag that is down (`Alert`): to raise a flag is to wake those who watch it,
and a fiber whose flag is up goes on to its end.
-/

namespace SceneScript

namespace World

/-- Who waits in `x` waited in `w` already, and the flag it watches is as it was. -/
def Slumbers (w x : World) : Prop :=
  ∀ b ∈ x.blocked, ∃ b' ∈ w.blocked, b'.fiber.watches = b.fiber.watches ∧
    ∀ flag, b.fiber.watches = some flag → x.flags.isRaised flag = true →
      w.flags.isRaised flag = true

def Alert (w : World) : Prop :=
  ∀ b ∈ w.blocked, ∀ flag, b.fiber.watches = some flag → w.flags.isRaised flag = false

variable {w w' x : World} {f : Fiber} {p : Pulse}

theorem Slumbers.refl (w : World) : Slumbers w w := fun b among => ⟨b, among, rfl, fun _ _ up => up⟩

theorem Slumbers.trans (first : Slumbers w w') (second : Slumbers w' x) : Slumbers w x := by
  intro b among
  obtain ⟨b', among', watches', down'⟩ := second b among
  obtain ⟨b'', among'', watches'', down''⟩ := first b' among'
  refine ⟨b'', among'', watches''.trans watches', fun flag watches up => ?_⟩
  exact down'' flag (watches'.trans watches) (down' flag watches up)

theorem Rests.slumbers (rests : Rests w x) (flags : x.flags = w.flags) : Slumbers w x := by
  intro b among
  obtain ⟨b', among', -, calm⟩ := rests b among
  have watches : b'.fiber.calm.watches = b.fiber.calm.watches := congrArg Fiber.watches calm
  exact ⟨b', among', watches, fun flag _ up => flags ▸ up⟩

theorem slumbers_of_eq (blocked : x.blocked = w.blocked) (flags : x.flags = w.flags) :
    Slumbers w x :=
  (rests_of_eq blocked).slumbers flags

theorem Alert.slumbers (h : w.Alert) (slumbers : Slumbers w x) : x.Alert := by
  intro b among flag watches
  obtain ⟨b', among', watches', down⟩ := slumbers b among
  have low := h b' among' flag (watches'.trans watches)
  by_contra up
  rw [down flag watches (by simpa using up)] at low
  cases low

/-! ### Flags that go up -/

theorem slumbers_raise (w : World) (flag : Nat) : Slumbers w (w.raise flag) := by
  intro b among
  obtain ⟨among, other⟩ := List.mem_filter.mp among
  refine ⟨b, among, rfl, fun flag' watches up => ?_⟩
  have apart : flag ≠ flag' := by
    rintro rfl
    simp [watches] at other
  rwa [show (w.raise flag).flags = w.flags.raise flag from rfl, Flags.isRaised_raise_ne apart] at up

theorem slumbers_stopCountdown (w : World) : Slumbers w w.stopCountdown := by
  unfold stopCountdown
  split
  · exact slumbers_raise w _
  · exact .refl w

theorem slumbers_freshScope (w : World) : Slumbers w w.freshScope := by
  intro b among
  refine ⟨b, among, rfl, fun flag _ up => ?_⟩
  rwa [show w.freshScope.flags = w.flags.fresh.1 from rfl, Flags.isRaised_fresh] at up

theorem slumbers_renewScope (w : World) : Slumbers w w.renewScope := by
  unfold renewScope
  dsimp only
  split
  · exact ((slumbers_freshScope w).trans (slumbers_raise _ _)).trans (slumbers_stopCountdown _)
  · exact slumbers_freshScope w

theorem slumbers_cancelSideEffects (w : World) : Slumbers w w.cancelSideEffects := by
  have raised := (slumbers_freshScope w).trans (slumbers_raise _ w.scope)
  have stopped := raised.trans (slumbers_stopCountdown _)
  unfold cancelSideEffects
  dsimp only
  generalize (w.freshScope.raise w.scope).stopCountdown = v at stopped ⊢
  exact stopped.trans (slumbers_of_eq rfl rfl)

theorem slumbers_addCountdown (w : World) (c : Countdown) : Slumbers w
    ({ w with flags := w.flags.fresh.1, timers := w.timers.push ⟨c, w.flags.fresh.2⟩ }.spawn
      (.countdown w.timers.size w.flags.fresh.2) none [.count w.timers.size none]) := by
  intro b among
  refine ⟨b, among, rfl, fun flag _ up => ?_⟩
  have up : w.flags.fresh.1.isRaised flag = true := up
  rwa [Flags.isRaised_fresh] at up

theorem slumbers_startCountdown (w : World) (c : Countdown) : Slumbers w (w.startCountdown c) := by
  have staged (v : World) : Slumbers v (((v.stage (.playAnimation .timerTextEnter)).stage
      (.setTimerText c.text)).remark (.countdownStarted c)) := slumbers_of_eq rfl rfl
  exact ((slumbers_stopCountdown w).trans (staged _)).trans (slumbers_addCountdown _ c)

theorem slumbers_timeOut (w : World) (stop : Nat) : Slumbers w (w.timeOut stop) := by
  unfold timeOut
  split
  · exact .refl w
  · exact (slumbers_raise w stop).trans (slumbers_of_eq rfl rfl)

theorem slumbers_executeNumber (w : World) (n : Nat) : Slumbers w (w.executeNumber n).1 := by
  unfold executeNumber
  rcases execute_cases w (w.programs.getD n (.ofCommands [])) with
    ⟨e, rm, q, heq, -⟩ | ⟨q, -, -, -, heq⟩
  · rw [heq]
    exact slumbers_of_eq rfl rfl
  · rw [heq]
    have begun : Slumbers w w.begun := slumbers_of_eq rfl rfl
    have renewed := begun.trans (slumbers_renewScope _)
    show Slumbers w { w.launch q with programs := _ }
    unfold launch
    generalize w.begun.renewScope = v at renewed ⊢
    have announced : Slumbers v (v.announce w.runs) := slumbers_of_eq rfl rfl
    have announced := renewed.trans announced
    generalize v.announce w.runs = u at announced ⊢
    exact announced.trans (slumbers_of_eq rfl rfl)

/-! ### Turns -/

/-- The turn of a countdown: it waits on only if its flag is down. -/
theorem alert_performCount (alert : w.Alert) {i : Nat} (due : Option Span) {t : Timer}
    (found : w.timers[i]? = some t) (watches : ∀ flag, f.watches = some flag → t.stop = flag) :
    (w.performCount f i due).Alert := by
  unfold performCount
  rw [found]
  dsimp only
  split
  · exact alert.slumbers ((slumbers_timeOut w _).trans (slumbers_of_eq rfl rfl))
  split
  · exact alert.slumbers (slumbers_of_eq rfl rfl)
  rename_i down
  split
  · exact alert.slumbers (slumbers_of_eq rfl rfl)
  · intro b among flag watches'
    rcases List.mem_append.mp among with among | here
    · exact alert b among flag watches'
    · obtain rfl := List.mem_singleton.mp here
      rw [← watches flag watches']
      exact Bool.eq_false_iff.mpr down

/-- The turn of a fiber that stirs the countdowns. -/
theorem alert_turn_dials {a : Act} (alert : w.Alert) (order : w.InOrder) (tended : w.Tended)
    (act : w.act? = some a) (dials : a.dials = true) : w.turn.Alert := by
  obtain ⟨f, rest, after, ready, spared, fault, todo, turned⟩ := turn_doing act
  have alert : (w.taken f rest).Alert := alert
  suffices performed : ((w.taken f rest).perform { f with todo := after } a).Alert by
    rw [turned]
    exact performed
  cases a with
  | timer c =>
    exact alert.slumbers ((slumbers_startCountdown _ c).trans (slumbers_of_eq rfl rfl))
  | stopTimer =>
    have remarked : Slumbers (w.taken f rest) ((w.taken f rest).remark .countdownStopRequested) :=
      slumbers_of_eq rfl rfl
    exact alert.slumbers ((remarked.trans (slumbers_stopCountdown _)).trans
      (slumbers_of_eq rfl rfl))
  | count i due =>
    show ((w.taken f rest).performCount { f with todo := after } i due).Alert
    cases found : (w.taken f rest).timers[i]? with
    | none =>
      unfold performCount
      rw [found]
      exact alert.slumbers (slumbers_of_eq rfl rfl)
    | some t =>
      refine alert_performCount alert due found fun flag watches => ?_
      have watches : f.watches = some flag := watches
      have allowed := order.crewed.dutiful f.calm (calm_mem_crew ready)
        (Fiber.isRun_of_watches watches) (.count i due) (by simp [todo])
      have tends := tended.tends f.calm (calm_mem_crew ready)
      rw [Fiber.calm_role] at allowed tends
      cases role : f.role with
      | countdown j stop =>
        rw [role] at allowed tends
        rw [Fiber.watches, role] at watches
        obtain rfl := Option.some.inj watches
        obtain rfl : i = j := by simpa [Role.allows] using allowed
        obtain ⟨t', found', rfl⟩ := tends
        have found : w.timers[i]? = some t := found
        rw [show w.backdrop.timers[i]? = w.timers[i]? from rfl, found] at found'
        rw [Option.some.inj found']
      | _ =>
        rw [role] at allowed
        cases allowed
  | _ => cases dials

/-- A tween waits for nothing but a frame. -/
theorem rests_fed {rest : List Fiber} {a : Act} {target : Target} {scope : Nat} (order : w.InOrder)
    (ready : w.ready = f :: rest) (act : w.act? = some a) (role : f.role = .tween target scope)
    (fed : w.starves f = false) : Rests w w.turn := by
  obtain ⟨f', rest', after, ready', -, -, todo, turned⟩ := turn_doing act
  obtain ⟨rfl, rfl⟩ := List.cons.inj (ready.symm.trans ready')
  have watches : f.watches = some scope := by rw [Fiber.watches, role]
  have allowed := order.crewed.dutiful f.calm (calm_mem_crew ready)
    (Fiber.isRun_of_watches watches) a (by simp [todo])
  rw [Fiber.calm_role, role] at allowed
  suffices performed : Rests w ((w.taken f rest).perform { f with todo := after } a) by
    rw [turned]
    exact performed
  cases a with
  | sweep s => exact rests_performSweep (w.taken f rest) _ s
  | stride s => exact rests_performStride (w := w.taken f rest) todo fed
  | _ => cases allowed

/-- The turn of any other fiber. A tween that waits for a frame was not cancelled, however hasty. -/
theorem alert_turn_other (alert : w.Alert) (order : w.InOrder)
    (idle : ∀ a, w.act? = some a → a.dials = false) : w.turn.Alert := by
  have flags : w.turn.flags = w.flags := congrArg (·.1) (dials_turn order idle)
  rcases turn_parks w with rests | ⟨a, wait, g, act, -, left⟩
  · exact alert.slumbers (rests.slumbers flags)
  intro b among flag watches
  rw [flags]
  have among' := among
  rw [left] at among'
  rcases List.mem_append.mp among' with old | here
  · exact alert b old flag watches
  obtain rfl := List.mem_singleton.mp here
  obtain ⟨-, same | ⟨f, rest, w₁, x, ready, kept, stood, turned⟩⟩ :=
    turn_cases w order.crewed order.staged.attended
  · rw [same] at among
    exact alert _ among flag watches
  have blocked : w.turn.blocked = x.blocked := by rw [turned]
  have before {b : Parked} (among : b ∈ w₁.blocked) (watches : b.fiber.watches = some flag) :
      w.flags.isRaised flag = false := by
    obtain ⟨b', among', -, calm⟩ := kept.blocked b among
    have same : b'.fiber.calm.watches = b.fiber.calm.watches := congrArg Fiber.watches calm
    exact alert b' among' flag (same.trans watches)
  cases stood with
  | gone => exact before (blocked ▸ among) watches
  | goes => exact before (blocked ▸ among) watches
  | @waits wait' f' follows =>
    have parked : w.blocked ++ [⟨wait, g⟩] = w₁.blocked ++ [⟨wait', f'⟩] :=
      left.symm.trans blocked
    have last := congrArg List.getLast? parked
    simp only [List.getLast?_append, List.getLast?_singleton, Option.some_or,
      Option.some.injEq, Parked.mk.injEq] at last
    obtain ⟨-, rfl⟩ := last
    have watches : g.watches = some flag := watches
    have background : f.isRun = false := follows.isRun.symm.trans (Fiber.isRun_of_watches watches)
    have flagged : f.watches = some flag := by
      rw [← watches, Fiber.watches, Fiber.watches, follows.role background]
    have acts := act
    rw [act?_cons ready, actOf?] at act
    split at act
    · cases act
    rename_i free
    cases role : f.role with
    | tween target scope =>
      rw [Fiber.watches, role] at flagged
      obtain rfl := Option.some.inj flagged
      simp only [Bool.not_eq_true, Bool.or_eq_false_iff] at free
      refine Bool.eq_false_iff.mpr fun raised => ?_
      have fed := (hasty_of_going role raised free.1.2).2
      have slumbers := (rests_fed order ready acts role fed).slumbers flags
      have down := alert.slumbers slumbers _ among _ watches
      rw [flags, raised] at down
      cases down
    | countdown i stop =>
      obtain ⟨after, todo⟩ := List.head?_eq_some_iff.mp act
      have allowed := order.crewed.dutiful f.calm (calm_mem_crew ready) background a
        (by simp [todo])
      rw [Fiber.calm_role, role] at allowed
      have quiet := idle a (by rw [act?_cons ready, actOf?, if_neg free, act])
      cases a with
      | count => cases quiet
      | _ => cases allowed
    | run | fade | load =>
      rw [Fiber.watches, role] at flagged
      cases flagged

theorem alert_turn (alert : w.Alert) (order : w.InOrder) (tended : w.Tended) : w.turn.Alert := by
  by_cases idle : ∀ a, w.act? = some a → a.dials = false
  · exact alert_turn_other alert order idle
  push Not at idle
  obtain ⟨a, act, dials⟩ := idle
  exact alert_turn_dials alert order tended act (by simpa using dials)

/-! ### Performances -/

theorem Alert.pulse (h : w.Alert) (play : w.InPlay) (p : Pulse) : (w.pulse p).Alert := by
  by_cases turn : p = .turn
  · subst turn
    exact alert_turn h play.order play.tended
  refine h.slumbers ?_
  have rests : Rests w (w.pulse p) := (hosted_pulse w turn).keeps.blocked
  cases p with
  | turn => exact absurd rfl turn
  | publish | pass => exact rests.slumbers rfl
  | host s brief =>
    by_cases running : ∃ n, s = .execute n
    · obtain ⟨n, rfl⟩ := running
      exact slumbers_executeNumber w n
    by_cases sparing : s = .cancelSideEffects
    · subst sparing
      exact slumbers_cancelSideEffects w
    · exact rests.slumbers
        (congrArg (·.1) (dials_host w brief (fun n same => running ⟨n, same⟩) sparing))

theorem Alert.pulses (h : w.Alert) (play : w.InPlay) (ps : List Pulse) : (w.pulses ps).Alert :=
  play.induction (P := fun _ x => x.Alert) h (fun _ p play h => h.pulse play p) ps

theorem alert_after (o : Opening) (ms : List Move) : (o.world.after ms).Alert := by
  have fresh : o.world.Alert := fun _ among => nomatch among
  obtain ⟨ps, same⟩ := pulses_after o ms
  exact same ▸ fresh.pulses (inPlay_opening o) ps

end World

end SceneScript
