import SceneScript.Proofs.Blocks
/-!
What a host can see: between its steps, and from inside the callbacks that a script calls.
-/

namespace SceneScript

/-- Labels are unique, and there is something to run. -/
def Program.WellFormed (p : Program) : Prop :=
  (labelNames p.commands).Nodup ∧ ∃ c ∈ p.commands, c.isLabel = false

namespace World

/-- The host has control: every fiber has gone as far as it can since the last time it ran. -/
inductive Paused (o : Opening) : World → Prop where
  | opens : Paused o o.world
  | brief {w : World} {s : HostStep} : s.isBrief = true → Paused o w → Paused o (w.apply s).1
  | publishes {w : World} (delta : Span) (keys : Keys) : Paused o w → Paused o (w.publish delta keys)
  | reaches {w : World} (time : Span) : Paused o w → Paused o (w.reach time)
  | settles {w : World} (n : Nat) : Paused o w → (w.turns n).ready = [] → Paused o (w.turns n)

/-- `w.Calls w' f`: in its turn, the fiber `f` calls back, and the callback can see `w'`. An action
sees what its own steps have done so far. -/
inductive Calls (w : World) : World → Fiber → Prop where
  | asks {f : Fiber} {rest : List Fiber} {a : Act} {todo : List Act} {kind : CallbackKind}
      {index : Nat} : w.ready = f :: rest → f.doomed = false → f.fault = none → f.todo = a :: todo →
      a.asks? = some (kind, index) → Calls w (w.taken f rest) f
  | acts {f : Fiber} {rest : List Fiber} {action : Nat} {todo : List Act} {effects : List Effect}
      (n : Nat) : w.ready = f :: rest → f.doomed = false → f.fault = none →
      f.todo = .action action :: todo → w.registry.actions[action]? = some effects →
      Calls w ((w.taken f rest).runEffects (effects.take n)).1 f

/-- A world that the host or one of its callbacks can see, with the fibers that have not ended. -/
inductive Sight (o : Opening) : World → List Fiber → Prop where
  | between {w : World} : Paused o w → Sight o w w.fibers
  | inside {w w' : World} {f : Fiber} (n : Nat) : Paused o w → (w.turns n).Calls w' f →
      Sight o w' (f :: w'.fibers)

structure Clear (w : World) (live : List Fiber) : Prop where
  one : (live.filter Fiber.isRun).length ≤ 1
  executing : w.state.executing = true ↔ ∃ f ∈ live, f.isRun = true
  accepts : ∀ p : Program, p.WellFormed →
    ((∃ run, (w.execute p).2.2 = .ok run) ↔ ∀ f ∈ live, f.isRun = false)
  /-- Once the run has come to a command, that is the one the view shows. -/
  current : ∀ f ∈ live, ∀ r, f.role = .run r →
    w.events.getLast? = some (.started r.number) ∧ w.state.command = none ∨
    ∃ i c, w.state.view.pointer = some i ∧ w.state.command = some c ∧
      r.program.commands[i]? = some c ∧ c.isLabel = false
  idle : w.state.executing = false → w.state.view.run = none ∧ w.state.view.pointer = none ∧
    w.state.command = none ∧ w.slot.isPending = false

def InChoice (w : World) : Prop :=
  ∃ f ∈ w.fibers, f.isRun = true ∧ f.Stands ∧ ∃ options, w.state.command = some (.choice options)

/-- The host's input is blocked while a run is under way, and its cursor is hidden but in choices. -/
structure Switched (w : World) : Prop where
  input : latest Entry.input? w.entries = some w.state.executing
  cursor : ∃ shown, latest Entry.cursor? w.entries = some shown ∧
    (shown = true ↔ w.state.executing = false ∨ w.InChoice)

/-! ### Between the host's steps -/

end World

namespace Plot

def AtRest (p : Plot) : Prop :=
  ∀ l ∈ p.leads, p.state.command = none ∨
    l.fault = none ∧ ∃ a rest, l.todo = a :: rest ∧ a.suspends = true

theorem AtRest.touches {p p' : Plot} (h : p.AtRest) (touched : Touches p p') : p'.AtRest := by
  obtain ⟨chosen, state⟩ := touched.state
  unfold AtRest
  rw [touched.leads, state]
  exact h

end Plot

namespace World

variable {o : Opening} {w w' : World} {live : List Fiber}

theorem Paused.beats (h : Paused o w) : Beats o.world w := by
  induction h with
  | opens => exact .refl
  | brief brief _ ih => exact ih.tail (.brief _ brief)
  | publishes delta keys _ ih => exact ih.tail (.lull (.publish _ delta keys))
  | reaches time _ ih => exact ih.tail (.lull (.reach _ time))
  | settles n _ _ ih => exact ih.trans (beats_of_lulls (lulls_turns n _))

theorem Paused.inOrder (h : Paused o w) : w.InOrder := (inOrder_opening o).beats h.beats

theorem Paused.atRest (h : Paused o w) : w.plot.AtRest := by
  induction h with
  | opens => simp [Plot.AtRest, plot, leads, fibers, Opening.world, new]
  | @brief w s brief paused ih =>
    have order := paused.inOrder
    by_cases execute : ∃ n, s = .execute n
    · obtain ⟨n, rfl⟩ := execute
      rcases execute_cases_plot w n order.actor order.staged.attended with
        ⟨-, -, touched⟩ | ⟨q, q', -, -, -, -, -, plot⟩
      · exact ih.touches touched
      · rw [plot]
        exact fun l _ => .inl rfl
    · have other (n : Nat) : s ≠ .execute n := fun same => execute ⟨n, same⟩
      exact ih.touches
        (brief_turns w brief other order.crewed order.actor order.staged.attended).1
  | @publishes w delta keys paused ih =>
    have kept : Keeps True w (w.publish delta keys) := keeps_publish w delta keys
    exact ih.touches (kept.touches paused.inOrder.staged.attended.1)
  | @reaches w time paused ih =>
    have kept : Keeps True w (w.reach time) := keeps_reach w time
    exact ih.touches (kept.touches paused.inOrder.staged.attended.1)
  | @settles w n paused idle ih =>
    have order := paused.inOrder.beats (beats_of_lulls (lulls_turns n w))
    intro l member
    -- Nobody is ready, so the run's fiber is one of those that wait.
    obtain ⟨f, live, -, lead⟩ := exists_of_mem_leads member
    rw [fibers, idle, List.nil_append] at live
    obtain ⟨b, parked, rfl⟩ := List.mem_map.mp live
    rw [lead]
    exact .inr (order.crewed.rests b parked)

theorem latest_entries {α : Type} (g : Entry → Option α)
    (silent : ∀ e, e.deed.isIdle = true → g e = none) (w : World) :
    latest g w.entries = latest g w.story := by
  rw [latest, latest, filterMap_story g silent]

theorem input?_of_isIdle {e : Entry} (h : e.deed.isIdle = true) : e.input? = none := by
  obtain ⟨author, deed⟩ := e
  cases deed with
  | stage call =>
    cases call with
    | setInputBlocked => cases h
    | _ => rfl
  | _ => rfl

theorem cursor?_of_isIdle {e : Entry} (h : e.deed.isIdle = true) : e.cursor? = none := by
  obtain ⟨author, deed⟩ := e
  cases deed with
  | stage call =>
    cases call with
    | setCursorVisible => cases h
    | _ => rfl
  | _ => rfl

theorem Paused.switched (h : Paused o w) (runs : w.runs ≠ 0) : w.Switched := by
  have input : latest Entry.input? w.entries = latest Entry.input? w.plot.story :=
    latest_entries _ (fun _ => input?_of_isIdle) w
  have cursor : latest Entry.cursor? w.entries = latest Entry.cursor? w.plot.story :=
    latest_entries _ (fun _ => cursor?_of_isIdle) w
  cases h.inOrder.staged with
  | idle idle =>
    have executing : w.state.executing = false := idle.executing
    exact ⟨by rw [input, idle.input runs, executing], true, by rw [cursor, idle.cursor runs],
      by simp [executing]⟩
  | playing l playing =>
    have executing : w.state.executing = true := playing.executing
    refine ⟨by rw [input, playing.input, executing], ?_⟩
    have member : l ∈ w.leads := by
      rw [show w.leads = [l] from playing.leads]
      exact List.mem_cons_self
    rcases playing.course with fresh | ⟨c, shown, picks, under⟩
    · have command : w.state.command = none := fresh.command
      exact ⟨false, by rw [cursor, fresh.cursor], by simp [executing, InChoice, command]⟩
    · have command : w.state.command = some c := under.command
      refine ⟨shown, by rw [cursor, under.cursor], ?_⟩
      rcases h.atRest l member with unbegun | ⟨fault, a, rest, todo, suspends⟩
      · rw [show w.state.command = none from unbegun] at command
        cases command
      rw [(under.phase fault).suspended todo suspends, executing]
      constructor
      · intro choice
        obtain ⟨f, live, role, lead⟩ := exists_of_mem_leads member
        have stands : f.Stands := by
          rw [lead] at fault todo
          exact ⟨fault, a, rest, todo, suspends⟩
        refine .inr ⟨f, live, f.isRun_iff.mpr ⟨_, role⟩, stands, ?_⟩
        rw [command]
        cases c with
        | choice options => exact ⟨options, rfl⟩
        | _ => cases choice
      · rintro (never | ⟨f, -, -, -, options, choice⟩)
        · cases never
        · rw [command] at choice
          cases choice
          rfl

/-! ### Every sight -/

theorem isSome_lead? (f : Fiber) : f.lead?.isSome = f.isRun := by
  unfold Fiber.lead? Fiber.isRun Fiber.run?
  cases f.role <;> rfl

theorem execute_ok_iff (w : World) {p : Program} (h : p.WellFormed) :
    (∃ run, (w.execute p).2.2 = .ok run) ↔ w.state.executing = false := by
  obtain ⟨unique, c, member, runs⟩ := h
  have nonempty : p.isEmpty = false := by
    cases commands : p.commands with
    | nil =>
      rw [commands] at member
      cases member
    | cons => simp [Program.isEmpty, commands]
  obtain ⟨q, resolved, nonempty'⟩ : ∃ q, p.preprocess = .ok q ∧ q.isEmpty = false := by
    cases done : p.resolved with
    | true => exact ⟨p, Program.preprocess_of_resolved done, nonempty⟩
    | false =>
      have found := Program.index_eq p.commands 0 [] unique (by simp)
      refine ⟨Program.resolvedOf p.commands, ?_, ?_⟩
      · simp only [Program.preprocess, done, Bool.false_eq_true, if_false, found, Except.map]
        rfl
      · have kept : c ∈ running p.commands := List.mem_filter.mpr ⟨member, by simp [runs]⟩
        simpa [Program.isEmpty, Program.resolvedOf] using List.ne_nil_of_mem kept
  unfold execute
  rw [nonempty]
  cases busy : w.state.executing with
  | true => simp
  | false =>
    simp only [Bool.false_eq_true, if_false, resolved, nonempty']
    simp

theorem clear_of_plot {p : Plot} (staged : p.Staged) (state : w.state = p.state)
    (pending : w.slot.isPending = p.pending) (story : w.story = p.story)
    (leads : live.filterMap Fiber.lead? = p.leads) : w.Clear live := by
  have count : (live.filter Fiber.isRun).length = p.leads.length := by
    rw [← leads, List.length_filterMap_eq_countP, List.countP_eq_length_filter]
    congr 2
    exact funext fun f => (isSome_lead? f).symm
  have runs (f : Fiber) (member : f ∈ live) (r : Run) (role : f.role = .run r) :
      ⟨f.id, r, f.todo, f.fault⟩ ∈ p.leads :=
    leads ▸ List.mem_filterMap.mpr ⟨f, member, lead?_of_role role⟩
  have executing : w.state.executing = true ↔ ∃ f ∈ live, f.isRun = true := by
    rw [state, staged.attended.2, ← leads]
    simp [← isSome_lead?, List.filterMap_eq_nil_iff, Option.isSome_iff_ne_none]
  refine ⟨count ▸ staged.attended.1, executing, fun p wf => ?_, ?_, ?_⟩
  · rw [execute_ok_iff w wf, ← Bool.not_eq_true, executing]
    simp
  · intro f member r role
    have lead := runs f member r role
    cases staged with
    | idle idle =>
      rw [idle.leads] at lead
      cases lead
    | playing l playing =>
      rw [playing.leads, List.mem_singleton] at lead
      subst lead
      rcases playing.course with fresh | ⟨c, shown, picks, under⟩
      · refine .inl ⟨?_, state ▸ fresh.command⟩
        rw [events_eq_story, story]
        exact fresh.event
      · refine .inr ⟨w.state.pointer, c, ?_, state ▸ under.command, by rw [state]; exact under.place,
          playing.labels _ (List.mem_of_getElem? under.place)⟩
        simp [Execution.view, state, playing.executing]
  · intro idle
    cases staged with
    | idle still =>
      rw [pending, state]
      exact ⟨still.run, by simp [Execution.view, still.executing], still.command, still.pending⟩
    | playing l playing =>
      rw [state, playing.executing] at idle
      cases idle

theorem Sight.clear (h : Sight o w live) : w.Clear live := by
  cases h with
  | between paused => exact clear_of_plot paused.inOrder.staged rfl rfl rfl rfl
  | @inside w₀ _ f n paused calls =>
    have order := paused.inOrder.beats (beats_of_lulls (lulls_turns n w₀))
    generalize w₀.turns n = w₁ at calls order
    cases calls with
    | @asks _ rest _ _ _ _ ready =>
      refine clear_of_plot order.staged rfl rfl rfl ?_
      show (f :: (w₁.taken f rest).fibers).filterMap Fiber.lead? = w₁.leads
      rw [show f :: (w₁.taken f rest).fibers = w₁.fibers by simp [fibers, taken, ready]]
      rfl
    | @acts _ rest action todo effects m ready doomed fault todo' =>
      obtain ⟨r, role⟩ := order.run_of_act (a := .action action) ready (by simp [todo']) rfl
      obtain ⟨alone, plot, busy⟩ := taken_run order.staged.attended ready role
      have touched := touches_runEffects (w₁.taken f rest) (effects.take m) busy (by simp [alone])
      have staged := (order.staged.turn order.sound (.rests (plot ▸ touched.lead (f.leading r)))).1
      refine clear_of_plot staged rfl rfl rfl ?_
      rw [List.filterMap_cons, lead?_of_role role]
      exact congrArg _ (touched.leads.trans alone)

theorem sights_are_clear (o : Opening) :
    (∀ w live, Sight o w live → w.Clear live) ∧
      ∀ w, Paused o w → w.runs ≠ 0 → w.Switched :=
  ⟨fun _ _ h => h.clear, fun _ h runs => h.switched runs⟩

end World

end SceneScript
