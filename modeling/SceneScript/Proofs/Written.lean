import SceneScript.Proofs.Account
/-!
A run does what its script says: the commands it steps to are the ones that the walk over the script
visits with the replies that the run heard, and the two end alike.
-/

namespace SceneScript

namespace World

def steps (w : World) (id : Nat) : List (Nat × Opcode) := tale Deed.stepped? id w.entries

def replies (w : World) (id : Nat) : List Reply := tale Deed.reply? id w.entries

def outcomes (w : World) (id : Nat) : List (Nat × Outcome) := tale Deed.outcome? id w.entries

/-- The fiber that plays `q` as this run agrees with a walk. A run that failed in a command it may
wait in has come to that command as the walk has. -/
structure AsWritten (w : World) (id run : Nat) (q : Program) (v : Walker) : Prop where
  steps : (w.steps id).map (fun s => (q.commands[s.1]?, s.2)) =
    v.visited.map fun c => (some c, c.opcode)
  completed : (run, .completed) ∈ w.outcomes id → v.stop = .completed
  failed : ∀ e, (run, .failed e) ∈ w.outcomes id → v.stop = .failed e ∨ InBlock v.visited
  founded : ∀ label predicate otherwise, (run, .failed (.unknownLabel label)) ∈ w.outcomes id →
    v.visited.getLast? = some (.branch predicate otherwise) →
      (w.replies id).getLast? = some (.holds false)
  /-- Out of the queue it waits in a command. -/
  idle : w.outcomes id = [] → (∀ f ∈ w.ready, f.id ≠ id) → InBlock v.visited
  /-- At the head of the queue it takes the next step or ends. -/
  goes : ∀ f rest, w.ready = f :: rest → f.id = id → InBlock v.visited ∨ ∃ n,
    (w.turns n).outcomes id ≠ [] ∨ (w.steps id).length < ((w.turns n).steps id).length

variable {w w' : World} {commands visited : List Command} {id run : Nat}

theorem tale_entries {α : Type} (g : Deed → Option α) (silent : ∀ d, d.isIdle = true → g d = none)
    (w : World) (id : Nat) : tale g id w.entries = tale g id w.plot.story := by
  refine (filterMap_story _ (fun e idle => ?_) w).symm
  simp [silent e.deed idle]

theorem steps_eq (w : World) (id : Nat) : w.steps id = tale Deed.stepped? id w.plot.story := by
  refine tale_entries _ (fun d idle => ?_) w id
  cases d with
  | event e => cases e <;> first | rfl | cases idle
  | _ => rfl

theorem replies_eq (w : World) (id : Nat) : w.replies id = tale Deed.reply? id w.plot.story := by
  refine tale_entries _ (fun d idle => ?_) w id
  cases d <;> first | rfl | cases idle

theorem outcomes_eq (w : World) (id : Nat) : w.outcomes id = tale Deed.outcome? id w.plot.story := by
  refine tale_entries _ (fun d idle => ?_) w id
  cases d <;> first | rfl | cases idle

theorem length_steps {l : Lead} (live : Live commands w.plot l visited) :
    (w.steps l.id).length = visited.length := by
  have steps := congrArg List.length live.steps
  rwa [← steps_eq, List.length_map, List.length_map] at steps

theorem not_inBlock_of_branch {predicate : Nat} {otherwise : String}
    (last : visited.getLast? = some (.branch predicate otherwise)) : ¬ InBlock visited := by
  rintro ⟨c, last', blocks⟩
  obtain rfl := Option.some.inj (last.symm.trans last')
  cases blocks

theorem inBlock_of_parked {l : Lead} {b : Parked} (order : w.InOrder)
    (live : Live commands w.plot l visited) (parked : b ∈ w.blocked)
    (lead : b.fiber.lead? = some l) : InBlock visited := by
  obtain ⟨fault, a, rest, todo, suspends⟩ := order.crewed.rests b parked
  have route : a.isRoute = false := by
    cases a <;> first | rfl | cases suspends
  have todo' : l.todo = a :: rest := (congrArg Lead.todo (lead?_eq_some lead).2).trans todo
  exact live.track.inBlock todo' (.inl ⟨route, Act.not_isInstant_of_suspends suspends⟩)

theorem inBlock_of_idle {l : Lead} (order : w.InOrder) (live : Live commands w.plot l visited)
    (away : ∀ f ∈ w.ready, f.id ≠ l.id) : InBlock visited := by
  have member : l ∈ w.leads := by
    rw [show w.leads = [l] from live.leads]
    exact List.mem_cons_self
  obtain ⟨f, among, lead⟩ := List.mem_filterMap.mp member
  rcases List.mem_append.mp among with ready | among
  · exact absurd (congrArg Lead.id (lead?_eq_some lead).2).symm (away f ready)
  · obtain ⟨b, parked, rfl⟩ := List.mem_map.mp among
    exact inBlock_of_parked order live parked lead

/-! ### A run at the head of the queue -/

theorem heads {l : Lead} {f : Fiber} {rest : List Fiber} (order : w.InOrder)
    (live : Live commands w.turn.plot l visited) (ready : w.ready = f :: rest) (head : f.id = l.id)
    (instant : ¬ InBlock visited) : ∃ f' rest', w.turn.ready = f' :: rest' ∧ f'.id = l.id := by
  have beat : Beat w w.turn := .lull (.turn w)
  have order' := order.beat beat
  have leads : l ∈ w.turn.leads := by
    rw [show w.turn.leads = [l] from live.leads]
    exact List.mem_cons_self
  obtain ⟨-, same | ⟨f', rest', w₁, x, ready', kept, left, heq⟩⟩ :=
    turn_cases w order.crewed order.staged.attended
  · rw [same]
    exact ⟨f, rest, ready, head⟩
  obtain ⟨rfl, rfl⟩ := List.cons.inj (ready.symm.trans ready')
  cases left with
  | gone =>
    -- A run is under way with the number of a fiber that is gone.
    obtain ⟨-, alone, below⟩ := order.crewed.taken ready
    have fresh : f.id ∉ w₁.crew.map (·.id) := fresh_of_keeps kept alone below
    rw [heq] at leads
    obtain ⟨g, member, lead⟩ := List.mem_filterMap.mp leads
    have id' : g.id = f.id := (congrArg Lead.id (lead?_eq_some lead).2).symm.trans head.symm
    exact absurd (List.mem_map.mpr ⟨g.calm, List.mem_map_of_mem member, id'⟩) fresh
  | @goes f' follows => exact ⟨f', _, by rw [heq]; rfl, follows.id.trans head⟩
  | @waits wait f' follows =>
    have parked : ⟨wait, f'⟩ ∈ w.turn.blocked := by
      rw [heq]
      simp [park]
    have member : f' ∈ w.turn.fibers :=
      List.mem_append_right _ (List.mem_map.mpr ⟨_, parked, rfl⟩)
    have lead := order'.crewed.lead leads member (follows.id.trans head)
    exact absurd (inBlock_of_parked order' live parked lead) instant

theorem goes_at_head {l : Lead} {f : Fiber} {rest : List Fiber} (order : w.InOrder)
    (numbered : w.plot.Numbered) (live : Live commands w.plot l visited)
    (ready : w.ready = f :: rest) (head : f.id = l.id) (instant : ¬ InBlock visited) :
    (∃ o, Over commands l.id l.run.number w.turn.plot visited o) ∨
      ∃ visited' l', Live.Goes commands visited l w.turn.plot visited' l' := by
  have leads : l ∈ w.leads := by
    rw [show w.leads = [l] from live.leads]
    exact List.mem_cons_self
  have member : f ∈ w.fibers := by simp [fibers, ready]
  have lead := order.crewed.lead leads member head
  obtain ⟨role, leading⟩ := lead?_eq_some lead
  obtain ⟨step, -⟩ := turned_turn order.staged.attended ready role
  rw [← show l = f.leading l.run from leading] at step
  rcases step with plays | ⟨-, receiver, options, rest, todo⟩
  · exact live.plays (numbered.leads l leads) plays
  · have todo' : l.todo = .answer receiver options :: rest :=
      (congrArg Lead.todo leading).trans todo
    exact absurd (live.track.inBlock todo' (.inl ⟨rfl, rfl⟩)) instant

/-- Out of commands that it may have to wait in, a run at the head of the queue never goes round in
circles. -/
theorem goes_on {l : Lead} {f : Fiber} {rest : List Fiber} (order : w.InOrder)
    (numbered : w.plot.Numbered) (live : Live commands w.plot l visited)
    (ready : w.ready = f :: rest) (head : f.id = l.id) (instant : ¬ InBlock visited) :
    ∃ n, (w.turns n).outcomes l.id ≠ [] ∨
      (w.steps l.id).length < ((w.turns n).steps l.id).length := by
  -- Every turn that is no step leaves the fiber with less to do.
  induction weight : l.weight using Nat.strongRecOn generalizing w l f rest with
  | ind weight ih =>
    have beat : Beat w w.turn := .lull (.turn w)
    have step := order.step beat
    have once (n : Nat) : w.turns (n + 1) = w.turn.turns n := by simp [turns, ready]
    rcases goes_at_head order numbered live ready head instant with ⟨o, ended⟩ | ⟨visited', l', goes⟩
    · refine ⟨1, .inl ?_⟩
      rw [once, turns, outcomes_eq, ended.outcomes]
      exact List.cons_ne_nil _ _
    have length := length_steps live
    have length' := length_steps goes.live
    rw [goes.id] at length'
    rcases goes with ⟨live', id, number, onward⟩
    cases onward with
    | visits c =>
      refine ⟨1, .inr ?_⟩
      rw [once, turns, length, length', List.length_append]
      exact Nat.lt_succ_self _
    | lasts _ block => exact absurd block instant
    | nears less =>
      obtain ⟨f', rest', ready', head'⟩ := heads order live' ready (head.trans id.symm) instant
      have order' := order.beat beat
      obtain ⟨n, done⟩ := ih _ (weight ▸ less) order' (numbered.step step) live' ready' head' rfl
      refine ⟨n + 1, ?_⟩
      rw [once, length, ← length', ← id]
      exact done

theorem asWritten_of_live {l : Lead} (order : w.InOrder) (numbered : w.plot.Numbered)
    (live : Live commands w.plot l visited) :
    ∃ k, w.AsWritten l.id run (Program.resolvedOf commands) (walk commands (w.replies l.id) k) := by
  obtain ⟨k, visits⟩ := live.track.visits
  have none : w.outcomes l.id = [] := (outcomes_eq w l.id).trans live.outcomes
  rw [← replies_eq] at visits
  refine ⟨k, ?_, by simp [none], by simp [none], by simp [none], fun _ away => ?_,
    fun f rest ready head => ?_⟩
  · rw [steps_eq, visits]
    exact live.steps
  · rw [visits]
    exact inBlock_of_idle order live away
  · rw [visits]
    by_cases block : InBlock visited
    · exact .inl block
    · exact .inr (goes_on order numbered live ready head block)

theorem asWritten_of_over {o : Outcome} (ended : Over commands id run w.plot visited o) :
    ∃ k, w.AsWritten id run (Program.resolvedOf commands) (walk commands (w.replies id) k) := by
  have outcomes : w.outcomes id = [(run, o)] := (outcomes_eq w id).trans ended.outcomes
  have steps := ended.steps
  rw [← steps_eq] at steps
  have agrees := ended.agrees
  rw [← replies_eq] at agrees
  have visits {k : Nat} (visits : (walk commands (w.replies id) k).visited = visited) :
      (w.steps id).map (fun s => ((Program.resolvedOf commands).commands[s.1]?, s.2)) =
        (walk commands (w.replies id) k).visited.map fun c => (some c, c.opcode) := by
    rw [visits]
    exact steps
  have told : (w.turns 0).outcomes id ≠ [] := by
    rw [turns, outcomes]
    exact List.cons_ne_nil _ _
  have goes (v : Walker) : ∀ f rest, w.ready = f :: rest → f.id = id → InBlock v.visited ∨ ∃ n,
      (w.turns n).outcomes id ≠ [] ∨ (w.steps id).length < ((w.turns n).steps id).length :=
    fun _ _ _ _ => .inr ⟨0, .inl told⟩
  cases o with
  | completed =>
    obtain ⟨k, walked, stop⟩ := agrees
    exact ⟨k, visits walked, fun _ => stop, by simp [outcomes], by simp [outcomes],
      by simp [outcomes], goes _⟩
  | failed e =>
    rcases agrees with ⟨⟨k, walked, stop⟩, founded⟩ | ⟨block, k, walked⟩
    · refine ⟨k, visits walked, by simp [outcomes], fun e' failed => ?_, ?_,
        by simp [outcomes], goes _⟩
      · obtain rfl : e' = e := by simpa [outcomes] using failed
        exact .inl stop
      · intro label predicate otherwise failed last
        obtain rfl : .unknownLabel label = e := by simpa [outcomes] using failed
        rw [walked] at last
        exact founded label predicate otherwise rfl last
    · refine ⟨k, visits walked, by simp [outcomes], fun _ _ => .inr ?_, ?_,
        by simp [outcomes], goes _⟩
      · rw [walked]
        exact block
      · intro label predicate otherwise _ last
        rw [walked] at last
        exact absurd block (not_inBlock_of_branch last)
  | cancelled | panicked =>
    obtain ⟨k, walked⟩ := agrees
    exact ⟨k, visits walked, by simp [outcomes], by simp [outcomes], by simp [outcomes],
      by simp [outcomes], goes _⟩

theorem script_of_revised {o : Opening} {n : Nat} {q q' : Program}
    (revised : Revised o.world.programs w.programs) (script : o.scripts[n]? = some commands)
    (found : w.programs[n]? = some q) (done : q.preprocess = .ok q') :
    (Program.ofCommands commands).preprocess = .ok q' := by
  obtain ⟨q₀, found₀, same⟩ := revised n q found
  have first : q₀ = Program.ofCommands commands := by
    simp only [Opening.world, List.getElem?_toArray, List.getElem?_map, script] at found₀
    exact (Option.some.inj found₀).symm
  subst first
  rcases same with rfl | done₀
  · exact done
  · rw [Program.preprocess_of_resolved (Program.resolved_of_preprocess done₀)] at done
    exact done ▸ done₀

theorem numbered_after (o : Opening) (ms : List Move) :
    (o.world.after ms).plot.Numbered ∧ Revised o.world.programs (o.world.after ms).programs := by
  have start : o.world.plot.Numbered := by
    constructor
    · simp [plot, leads, fibers, Opening.world, new]
    · simp [plot, story, entries, Opening.world, new]
  refine ((inOrder_opening o).along (beats_after o.world ms)
    (P := fun w => w.plot.Numbered ∧ Revised o.world.programs w.programs) ⟨start, .refl _⟩
    fun order beat kept => ?_).2
  obtain ⟨numbered, revised⟩ := kept
  have step := order.step beat
  exact ⟨numbered.step step, revised.trans step.revised⟩

theorem account_beats (order : w.InOrder) (numbered : w.plot.Numbered)
    (account : Account commands id run w.plot) (beats : Beats w w') :
    w'.InOrder ∧ w'.plot.Numbered ∧ Account commands id run w'.plot := by
  refine order.along beats
    (P := fun w => w.plot.Numbered ∧ Account commands id run w.plot) ⟨numbered, account⟩
    fun order beat kept => ?_
  obtain ⟨numbered, account⟩ := kept
  have step := order.step beat
  exact ⟨numbered.step step, account.step numbered order.staged.attended step⟩

/-- From the moment a script is accepted, the commands that its run steps to are the ones that a walk
over the script visits when it hears the same replies, and the run ends as the walk does. -/
theorem runs_as_written (o : Opening) (before after : List Move) {n run : Nat}
    {commands : List Command} (script : o.scripts[n]? = some commands)
    (accepted : ((o.world.after before).apply (.execute n)).2 = .number run) :
    let id := (o.world.after before).nextFiber
    let w := ((o.world.after before).apply (.execute n)).1.after after
    ∃ q k, (Program.ofCommands commands).preprocess = .ok q ∧
      w.AsWritten id run q (walk commands (w.replies id) k) := by
  obtain ⟨numbered, revised⟩ := numbered_after o before
  have order := inOrder_after o before
  generalize o.world.after before = w₀ at accepted numbered revised order ⊢
  intro id w
  rcases execute_cases_plot w₀ n order.actor order.staged.attended with
    ⟨e, result, -⟩ | ⟨q, q', -, found, done, -, result, plot⟩
  · rw [result] at accepted
    cases accepted
  obtain rfl : w₀.runs = run := by
    rw [result] at accepted
    cases accepted
    rfl
  have done' := script_of_revised revised script found done
  have resolved : q' = Program.resolvedOf commands := (Program.of_preprocess rfl done').2
  have began : Account commands id w₀.runs (w₀.apply (.execute n)).1.plot := by
    rw [plot]
    exact account_starts numbered resolved
  have beat : Beat w₀ (w₀.apply (.execute n)).1 := .brief w₀ rfl
  have step := order.step beat
  obtain ⟨order', numbered', account⟩ :=
    account_beats (order.beat beat) (numbered.step step) began (beats_after _ after)
  have written : ∃ k, w.AsWritten id w₀.runs (Program.resolvedOf commands)
      (walk commands (w.replies id) k) := by
    cases account with
    | live l visited live same number =>
      rw [← same]
      exact asWritten_of_live order' numbered' live
    | ended visited o ended => exact asWritten_of_over ended
  obtain ⟨k, written⟩ := written
  exact ⟨_, k, resolved ▸ done', written⟩

theorem runs_as_written_jump :
    let o : Opening := ⟨default, default, 8, default, default, [[.goto "end", .log "x", .label "end"]]⟩
    ∃ run, (o.world.apply (.execute 0)).2 = .number run ∧ ∃ q k,
      (Program.ofCommands [.goto "end", .log "x", .label "end"]).preprocess = .ok q ∧
      let w := (o.world.apply (.execute 0)).1.after (List.replicate 5 .turn)
      w.AsWritten 0 run q (walk [.goto "end", .log "x", .label "end"] (w.replies 0) k) := by
  intro o
  have accepted : (o.world.apply (.execute 0)).2 = .number 0 := rfl
  exact ⟨0, accepted, runs_as_written o [] (List.replicate 5 .turn) rfl accepted⟩

end World

end SceneScript
