import SceneScript.Proofs.Plot
/-!
What the start and the end of a run, callbacks and selections make of the plot.
-/

namespace SceneScript

namespace World

variable {w w' : World} {f : Fiber} {r : Run}

/-! ### The end of a run -/

theorem isPending_close (s : ChoiceSlot) : s.close.isPending = false := by
  unfold ChoiceSlot.close ChoiceSlot.isPending
  split
  · rename_i h
    rw [h]
    rfl
  · rfl

theorem plot_closeSlot (w : World) (alone : w.leads = []) :
    w.closeSlot.plot = { w.plot with pending := false } := by
  have closed : plot { w with slot := w.slot.close } = { w.plot with pending := false } := by
    simp only [plot, isPending_close]
    rfl
  unfold closeSlot
  dsimp only
  split
  · rename_i offer _
    have woken : Keeps True { w with slot := w.slot.close }
        (wake { w with slot := w.slot.close } fun b => b.wait == Wait.answer offer.receiver) :=
      keeps_wake _ _
    have leads : leads { w with slot := w.slot.close } = [] := alone
    rw [woken.plot (by simp [leads]), closed]
    rfl
  · exact closed

theorem plot_settleIdle (w : World) (alone : w.leads = []) :
    w.settleIdle.plot = w.plot.quiet.add [⟨w.actor, .stage (.setInputBlocked false)⟩,
      ⟨w.actor, .stage (.setCursorVisible true)⟩] := by
  have closed : Keeps False { w with state := w.state.reset }
      ({ w with state := w.state.reset } : World).closeSlot := keeps_closeSlot _
  have plot : ({ w with state := w.state.reset } : World).closeSlot.plot = w.plot.quiet := by
    have leads : w.plot.leads = [] := alone
    rw [plot_closeSlot { w with state := w.state.reset } alone, Plot.quiet, ← leads]
    rfl
  unfold settleIdle stage
  dsimp only
  rw [plot_record _ rfl, plot_record _ rfl, plot, Plot.add_add, record, closed.actor]
  rfl

theorem keeps_concludeRun (w : World) (o : Outcome) : Keeps False w (w.concludeRun o) := by
  have settled : Keeps False w w.settleIdle := keeps_settleIdle w
  cases o <;> exact (settled.trans (keeps_remark _ _)).trans (keeps_record _ _ False.elim)

theorem plot_concludeRun (w : World) (o : Outcome) (alone : w.leads = []) :
    (w.concludeRun o).plot = w.plot.quiet.add [⟨w.actor, .stage (.setInputBlocked false)⟩,
      ⟨w.actor, .stage (.setCursorVisible true)⟩, ⟨w.actor, .event o.event⟩] := by
  have settled : Keeps False w w.settleIdle := keeps_settleIdle w
  have emitted (rm : Remark) (e : Event) (told : (Deed.event e).isIdle = false) :
      ((w.settleIdle.remark rm).emit e).plot =
        w.plot.quiet.add [⟨w.actor, .stage (.setInputBlocked false)⟩,
          ⟨w.actor, .stage (.setCursorVisible true)⟩, ⟨w.actor, .event e⟩] := by
    rw [emit, plot_record _ told, plot_remark, plot_settleIdle w alone, Plot.add_add, remark, record,
      settled.actor]
    rfl
  cases o <;> exact emitted _ _ rfl

theorem keeps_conclude (w : World) {f : Fiber} (o : Outcome) (role : f.role = .run r) :
    Keeps False w (w.conclude f o) := by
  unfold conclude
  rw [role]
  exact ((keeps_yieldScene w f).trans (keeps_concludeRun _ o)).trans (keeps_record _ _ False.elim)

theorem plot_yieldScene (w : World) (f : Fiber) : (w.yieldScene f).plot = w.plot := by
  unfold yieldScene
  split <;> rfl

theorem plot_conclude (o : Outcome) (role : f.role = .run r) (alone : w.leads = [])
    (actor : w.actor = some f.id) :
    (w.conclude f o).plot = w.plot.ends ⟨f.id, r, f.todo, f.fault⟩ o := by
  have yielded : Keeps True w (w.yieldScene f) := keeps_yieldScene w f
  have leads : (w.yieldScene f).leads = [] :=
    (congrArg Plot.leads (plot_yieldScene w f)).trans alone
  unfold conclude
  rw [role]
  dsimp only
  rw [plot_record _ rfl, plot_concludeRun _ o leads, (keeps_concludeRun _ o).actor, yielded.actor,
    actor, plot_yieldScene, Plot.add_add]
  rfl

/-! ### What the host and callbacks do beside a run -/

theorem isPending_select {s : ChoiceSlot} (index : Nat) (h : s.isPending = false) :
    (s.select index).1.isPending = false := by
  have none : s.pending = none := by simpa [ChoiceSlot.isPending] using h
  unfold ChoiceSlot.select
  rw [none]
  exact h

theorem touches_select (w : World) (index : Nat) (alone : w.leads.length ≤ 1) :
    Plot.Touches w.plot (w.select index).1.plot := by
  have picked (state : Execution) (h : ∃ chosen, state = { w.state with chosen }) :
      Plot.Touches w.plot (plot { w with slot := (w.slot.select index).1, state }) :=
    { Plot.Touches.refl w.plot with state := h, pending := isPending_select index }
  unfold select
  split
  · rename_i slot heq
    have touched := picked { w.state with chosen := some index } ⟨_, rfl⟩
    rw [heq] at touched
    have woken := (keeps_wake { w with slot, state := { w.state with chosen := some index } }
      fun b => b.wait == Wait.answer ((w.slot.pending.map (·.receiver)).getD 0)
      : Keeps True _ _)
    exact touched.trans (woken.touches alone)
  · rename_i slot e heq
    have touched := picked w.state ⟨_, rfl⟩
    rw [heq] at touched
    rw [plot_remark]
    exact touched

theorem touches_setChosen (w : World) (index : Option Nat) :
    Plot.Touches w.plot (w.setChosen index).plot :=
  { Plot.Touches.refl w.plot with state := ⟨index, rfl⟩ }

theorem touches_note (w : World) (n : Note) : Plot.Touches w.plot (w.note n).plot := by
  rw [note, plot_record w rfl]
  exact { Plot.Touches.refl w.plot with
    story := ⟨[⟨w.actor, .note n⟩], rfl, fun e he => ⟨n, by rw [List.mem_singleton.mp he]⟩⟩ }

/-! ### The start of a run -/

def begun (w : World) : World := { w with state := w.state.begin w.runs, runs := w.runs + 1 }

def announce (w : World) (number : Nat) : World :=
  ((w.stage (.setInputBlocked true)).stage (.setCursorVisible false)).emit (.started number)

def launch (w : World) (q : Program) : World :=
  (w.begun.renewScope.announce w.runs).spawn (.run ⟨w.runs, q, 0, .empty⟩)
    (some w.begun.renewScope.feed.subscribe) []

/-- A program that is not accepted leaves everything as it is but for its labels. -/
theorem execute_cases (w : World) (p : Program) :
    (∃ e rm q, w.execute p = (w.remark rm, q, .error e) ∧ (q = p ∨ p.preprocess = .ok q)) ∨
    (∃ q, w.state.executing = false ∧ p.preprocess = .ok q ∧ q.commands ≠ [] ∧
      w.execute p = (w.launch q, q, .ok w.runs)) := by
  unfold execute
  split
  · exact .inl ⟨_, _, _, rfl, .inl rfl⟩
  split
  · exact .inl ⟨_, _, _, rfl, .inl rfl⟩
  rename_i idle
  split
  · exact .inl ⟨_, _, _, rfl, .inl rfl⟩
  rename_i q found
  split
  · exact .inl ⟨_, _, _, rfl, .inr found⟩
  · rename_i nonempty
    refine .inr ⟨q, by simpa using idle, found, ?_, rfl⟩
    simpa [Program.isEmpty] using nonempty

theorem keeps_launch (w : World) (q : Program) : Keeps False w (w.launch q) := by
  have begun : Keeps False w w.begun :=
    .of_fields rfl rfl rfl rfl rfl rfl rfl rfl .refl False.elim
  have announced (w : World) : Keeps False w (w.announce w.runs) :=
    ((keeps_stage _ _ False.elim).trans (keeps_stage _ _ False.elim)).trans
      (keeps_record _ _ False.elim)
  refine begun.trans ((keeps_renewScope _).trans (.trans ?_ (keeps_spawn _ _ _ _ ?_)))
  · exact ((keeps_stage _ _ False.elim).trans (keeps_stage _ _ False.elim)).trans
      (keeps_record _ _ False.elim)
  · exact
      { id_ge := Nat.le_refl _
        id_lt := Nat.lt_succ_self _
        calm := rfl
        dutiful := Fiber.dutiful_of_isRun rfl
        background := False.elim
        hired := ⟨_, _, .refl, .refl, .refl, trivial⟩ }

theorem plot_renewScope (w : World) (alone : w.leads = []) : w.renewScope.plot = w.plot := by
  have kept : Keeps True w w.renewScope := keeps_renewScope w
  have fibers : w.renewScope.nextFiber = w.nextFiber := by
    unfold renewScope stopCountdown
    dsimp only
    split
    · split <;> rfl
    · rfl
  rw [kept.plot (by simp [alone]), fibers]
  rfl

theorem plot_spawn (w : World) (r : Run) (cursor : Option Cursor) (alone : w.leads = []) :
    (w.spawn (.run r) cursor []).plot =
      { w.plot.lead ⟨w.nextFiber, r, [], none⟩ with fibers := w.nextFiber + 1 } := by
  have ready : w.ready.filterMap Fiber.lead? = [] ∧
      (w.blocked.map (·.fiber)).filterMap Fiber.lead? = [] := by
    simpa [leads, fibers] using alone
  have leads : (w.spawn (.run r) cursor []).leads = [⟨w.nextFiber, r, [], none⟩] := by
    simp only [World.leads, fibers, spawn, List.filterMap_append, ready.1, ready.2]
    rfl
  simp only [plot, leads]
  rfl

theorem plot_announce (w : World) (number : Nat) :
    (w.announce number).plot = w.plot.add [⟨w.actor, .stage (.setInputBlocked true)⟩,
      ⟨w.actor, .stage (.setCursorVisible false)⟩, ⟨w.actor, .event (.started number)⟩] := by
  unfold announce emit stage
  rw [plot_record _ rfl, plot_record _ rfl, plot_record _ rfl, Plot.add_add, Plot.add_add]
  rfl

theorem plot_launch (w : World) (q : Program) (alone : w.leads = []) (actor : w.actor = none) :
    (w.launch q).plot = { w.plot.starts 0 q with programs := w.programs } := by
  have kept : Keeps True w.begun w.begun.renewScope := keeps_renewScope _
  have told := plot_announce w.begun.renewScope w.runs
  rw [plot_renewScope w.begun alone, kept.actor, show w.begun.actor = none from actor] at told
  have fibers : (w.begun.renewScope.announce w.runs).nextFiber = w.nextFiber :=
    congrArg Plot.fibers told
  unfold launch
  rw [plot_spawn _ _ _ ((congrArg Plot.leads told).trans alone), told, fibers]
  rfl

theorem touches_rejected {n : Nat} {e : Failure} {rm : Remark} {q : Program}
    (heq : w.execute (w.programs.getD n (.ofCommands [])) = (w.remark rm, q, .error e))
    (revised : q = w.programs.getD n (.ofCommands []) ∨
      (w.programs.getD n (.ofCommands [])).preprocess = .ok q) :
    Plot.Touches w.plot (w.executeNumber n).1.plot := by
  unfold executeNumber
  rw [heq]
  show Plot.Touches w.plot { (w.remark rm).plot with programs := w.programs.setIfInBounds n q }
  rw [plot_remark]
  refine { Plot.Touches.refl w.plot with programs := revised_setIfInBounds fun q' hq' => ?_ }
  have same : w.programs.getD n (.ofCommands []) = q' := by
    simp [Array.getD_eq_getD_getElem?, show w.programs[n]? = some q' from hq']
  exact same ▸ revised

theorem plot_executeNumber (w : World) (n : Nat)
    (idle : w.state.executing = false → w.leads = [] ∧ w.actor = none) :
    (∃ e, (w.executeNumber n).2 = .error e ∧ Plot.Touches w.plot (w.executeNumber n).1.plot) ∨
    (∃ q q', w.state.executing = false ∧ w.programs[n]? = some q ∧ q.preprocess = .ok q' ∧
      q'.commands ≠ [] ∧ (w.executeNumber n).2 = .ok w.runs ∧
      (w.executeNumber n).1.plot = w.plot.starts n q') := by
  rcases execute_cases w (w.programs.getD n (.ofCommands [])) with
    ⟨e, rm, q, heq, revised⟩ | ⟨q, still, found, nonempty, heq⟩
  · exact .inl ⟨e, by rw [executeNumber, heq], touches_rejected heq revised⟩
  · have some : w.programs[n]? = some (w.programs.getD n (.ofCommands [])) := by
      by_contra none
      have missing : w.programs.getD n (.ofCommands []) = .ofCommands [] := by
        cases h : w.programs[n]? with
        | none => simp [Array.getD_eq_getD_getElem?, h]
        | some q' => simp [Array.getD_eq_getD_getElem?, h] at none
      rw [missing] at found
      cases found
      exact nonempty rfl
    have launched := plot_launch w q (idle still).1 (idle still).2
    refine .inr ⟨_, q, still, some, found, nonempty, by rw [executeNumber, heq], ?_⟩
    rw [executeNumber, heq]
    show { (w.launch q).plot with programs := (w.launch q).plot.programs.setIfInBounds n q } = _
    rw [launched]
    rfl

theorem keeps_executeNumber (w : World) (n : Nat) : Keeps False w (w.executeNumber n).1 := by
  have filed (w : World) (programs : Array Program) : Keeps False w { w with programs } :=
    .of_fields rfl rfl rfl rfl rfl rfl rfl rfl .refl False.elim
  rcases execute_cases w (w.programs.getD n (.ofCommands [])) with
    ⟨e, rm, q, heq, -⟩ | ⟨q, -, -, -, heq⟩
  · rw [executeNumber, heq]
    exact (keeps_remark _ _).trans (filed _ _)
  · rw [executeNumber, heq]
    exact (keeps_launch w q).trans (filed _ _)

/-! ### Callbacks -/

theorem keeps_runEffect (w : World) (e : Effect) : Keeps False w (w.runEffect e) := by
  cases e with
  | note => exact keeps_record _ _ False.elim
  | set | add => exact keeps_untracked ..
  | register kind => cases kind <;> exact (keeps_untracked ..).trans (keeps_record _ _ False.elim)
  | execute n => exact (keeps_executeNumber w n).trans (keeps_record _ _ False.elim)
  | select index => exact (keeps_select w index).trans (keeps_record _ _ False.elim)
  | setChosen index => exact keeps_setChosen w index
  | view => exact keeps_record _ _ False.elim
  | panic => exact .refl _

theorem touches_runEffect (w : World) (e : Effect) (busy : w.state.executing = true)
    (alone : w.leads.length ≤ 1) : Plot.Touches w.plot (w.runEffect e).plot := by
  cases e with
  | note => exact touches_note _ _
  | set | add => exact .refl _
  | register kind => cases kind <;> exact touches_note _ _
  | execute n =>
    rcases execute_cases w (w.programs.getD n (.ofCommands [])) with
      ⟨e, rm, q, heq, revised⟩ | ⟨q, still, -⟩
    · exact (touches_rejected heq revised).trans (touches_note _ _)
    · rw [busy] at still
      cases still
  | select index => exact (touches_select w index alone).trans (touches_note _ _)
  | setChosen index => exact touches_setChosen w index
  | view => exact touches_note _ _
  | panic => exact .refl _

theorem keeps_runEffects (w : World) (es : List Effect) :
    Keeps False w (w.runEffects es).1 := by
  fun_induction runEffects w es with
  | case1 | case2 => exact .refl _
  | case3 w e rest _ ih => exact (keeps_runEffect w e).trans ih

theorem runEffects_ne_unknown (w : World) (es : List Effect) :
    (w.runEffects es).2 ≠ .unknown := by
  fun_induction runEffects w es with
  | case1 | case2 => simp
  | case3 w e rest _ ih => exact ih

theorem touches_runEffects (w : World) (es : List Effect) (busy : w.state.executing = true)
    (alone : w.leads.length ≤ 1) : Plot.Touches w.plot (w.runEffects es).1.plot := by
  fun_induction runEffects w es with
  | case1 | case2 => exact .refl _
  | case3 w e rest _ ih =>
    have touched := touches_runEffect w e busy alone
    obtain ⟨chosen, state⟩ := touched.state
    have busy' : (w.runEffect e).state.executing = true :=
      (congrArg Execution.executing state).trans busy
    have alone' : (w.runEffect e).leads.length ≤ 1 := by
      rw [show (w.runEffect e).leads = w.leads from touched.leads]
      exact alone
    exact touched.trans (ih busy' alone')

end World

end SceneScript
