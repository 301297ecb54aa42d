import SceneScript.Proofs.Aboard
import SceneScript.Proofs.Causes
/-!
The course of the cutscene. `Stage` lists where its run may stand, up to the choice, past it and past
the ferryman. A turn of its fiber leads from one stage to the next or to the end (`Chart.turn`), and
nothing that the host does leads astray.
-/

namespace SceneScript

/-! ### Runs that go on -/

theorem Act.mild_append {a : Act} {new after : List Act} (news : ∀ b ∈ new, b.isMild = true)
    (mild : ∀ b ∈ a :: after, b.isMild = true) : ∀ b ∈ new ++ after, b.isMild = true := by
  intro b among
  rcases List.mem_append.mp among with among | among
  · exact news b among
  · exact mild b (List.mem_cons_of_mem _ among)

namespace Plot

variable {l l' : Lead} {p p' : Plot} {a : Act} {after : List Act}

/-- How runs ended. -/
def verdicts (p : Plot) : List (Nat × Outcome) := p.story.filterMap (·.deed.outcome?)

theorem verdicts_append {es : List Entry} (story : p'.story = p.story ++ es)
    (silent : ∀ e ∈ es, e.deed.outcome? = none) : p'.verdicts = p.verdicts := by
  rw [verdicts, story, List.filterMap_append, List.filterMap_eq_nil_iff.mpr silent, List.append_nil]
  rfl

theorem Touches.verdicts (h : Touches p p') : p'.verdicts = p.verdicts := by
  obtain ⟨notes, story, told⟩ := h.story
  refine verdicts_append story fun e among => ?_
  obtain ⟨n, deed⟩ := told e among
  rw [deed]
  rfl

theorem verdicts_tell (p : Plot) (l : Lead) {d : Deed} (silent : d.outcome? = none) :
    (p.tell l d).verdicts = p.verdicts :=
  verdicts_append rfl (by simpa using silent)

theorem verdicts_ends (p : Plot) (l : Lead) (o : Outcome) :
    (p.ends l o).verdicts = p.verdicts ++ [(l.run.number, o)] := by
  show (p.story ++ _).filterMap _ = _
  rw [List.filterMap_append]
  rfl

/-- The run goes on, and nothing was picked. -/
structure Carries (l : Lead) (p p' : Plot) (l' : Lead) : Prop where
  leads : p'.leads = [l']
  number : l'.run.number = l.run.number
  program : l'.run.program = l.run.program
  verdicts : p'.verdicts = p.verdicts
  chosen : p'.state.chosen = p.state.chosen

/-! What a run makes of its next act, if it goes on. -/

section

variable (h : Plays l p p') (alive : p'.leads ≠ [])
include h alive

theorem Plays.of_aside (todo : l.todo = a :: after) (aside : a.isAside = true) :
    ∃ new fault, (∀ b ∈ new, a.Leaves b) ∧
      Carries l p p' { l with todo := new ++ after, fault } := by
  cases h with
  | @goes _ _ new fault _ todo' _ _ leaves =>
    cases todo'.symm.trans todo
    exact ⟨new, fault, leaves, rfl, rfl, rfl, rfl, rfl⟩
  | @skips _ _ _ fault _ todo' =>
    cases todo'.symm.trans todo
    exact ⟨[], fault, List.forall_mem_nil _, rfl, rfl, rfl, rfl, rfl⟩
  | stops | breaks => exact absurd rfl alive
  | completes none | fails none | fetches _ _ none => cases none.symm.trans todo
  | shows todo' _ told =>
    cases todo'.symm.trans todo
    cases told.symm.trans aside
  | unheard todo' _ asks =>
    cases todo'.symm.trans todo
    cases (Act.isAside_of_asks asks).symm.trans aside
  | offers _ todo' | refuses _ _ todo' | hears _ todo' | misses _ todo' | chooses todo' | holds todo'
  | turns todo' | switches _ todo' | jumps todo' | strays todo' | calls todo' =>
    cases todo'.symm.trans todo
    cases aside

variable (fault : l.fault = none)
include fault

theorem Plays.of_offer {options : List String} (todo : l.todo = .offer options :: after) :
    (∃ receiver, Carries l p p' { l with todo := Act.opening receiver options ++ after }) ∨
      ∃ e, Carries l p p' { l with todo := after, fault := some e } := by
  cases h with
  | offers receiver todo' =>
    cases todo'.symm.trans todo
    exact .inl ⟨receiver, rfl, rfl, rfl, rfl, rfl⟩
  | refuses requested limit todo' =>
    cases todo'.symm.trans todo
    exact .inr ⟨_, rfl, rfl, rfl, rfl, rfl⟩
  | stops | breaks => exact absurd rfl alive
  | _ => simp_all [Act.isAside, Act.asks?]

theorem Plays.of_goto {label : String} {place : Nat} (todo : l.todo = .goto label :: after)
    (found : l.run.program.resolve label = .ok place) :
    Carries l p p' { l with run := { l.run with pointer := place }, todo := after } := by
  cases h with
  | jumps todo' _ landed =>
    cases todo'.symm.trans todo
    obtain rfl := Except.ok.inj (found.symm.trans landed)
    exact ⟨rfl, rfl, rfl, rfl, rfl⟩
  | stops | breaks => exact absurd rfl alive
  | _ => simp_all [Act.isAside, Act.asks?]

variable (fine : ∀ l' ∈ p'.leads, l'.fault = none)
include fine

theorem Plays.of_branch {predicate : Nat} {otherwise : String}
    (todo : l.todo = .branch predicate otherwise :: after) :
    Carries l p p' { l with todo := after } ∨
      Carries l p p' { l with todo := .goto otherwise :: after } := by
  cases h with
  | holds todo' =>
    cases todo'.symm.trans todo
    exact .inl ⟨rfl, rfl, rfl, verdicts_tell _ _ rfl, rfl⟩
  | turns todo' =>
    cases todo'.symm.trans todo
    exact .inr ⟨rfl, rfl, rfl, verdicts_tell _ _ rfl, rfl⟩
  | stops | breaks => exact absurd rfl alive
  | _ => simp_all [Act.isAside, Act.asks?, Plot.lead]

theorem Plays.of_switch {selector : Nat} (todo : l.todo = .switch selector :: after) :
    ∃ label, Carries l p p' { l with todo := .goto label :: after } := by
  cases h with
  | switches label todo' =>
    cases todo'.symm.trans todo
    exact ⟨label, rfl, rfl, rfl, verdicts_tell _ _ rfl, rfl⟩
  | stops | breaks => exact absurd rfl alive
  | _ => simp_all [Act.isAside, Act.asks?, Plot.lead]

theorem Plays.of_action {action : Nat} (todo : l.todo = .action action :: after) :
    p'.leads = [{ l with todo := after }] ∧ p'.verdicts = p.verdicts := by
  cases h with
  | calls todo' _ touched =>
    cases todo'.symm.trans todo
    exact ⟨rfl, (verdicts_tell _ _ rfl).trans touched.verdicts⟩
  | stops | breaks => exact absurd rfl alive
  | _ => simp_all [Act.isAside, Act.asks?, Plot.lead]

/-- A mild act may ask for more that is mild, and nothing else. -/
theorem Plays.of_mild (todo : l.todo = a :: after) (mild : a.isMild = true) :
    ∃ new, (∀ b ∈ new, b.isMild = true) ∧ Carries l p p' { l with todo := new ++ after } ∧
      ∀ receiver options, a = .answer receiver options → ∃ i, .chosen i options ∈ new := by
  by_cases aside : a.isAside = true
  · obtain ⟨new, fault', leaves, carries⟩ := h.of_aside alive todo aside
    obtain rfl : fault' = none := fine _ (carries.leads ▸ List.mem_singleton_self _)
    refine ⟨new, fun b among => (leaves b among).isMild mild, fault ▸ carries, ?_⟩
    rintro receiver options rfl
    cases aside
  cases h with
  | shows todo' =>
    cases todo'.symm.trans todo
    exact ⟨[], List.forall_mem_nil _, ⟨rfl, rfl, rfl, verdicts_tell p l rfl, rfl⟩, by simp⟩
  | hears index todo' =>
    cases todo'.symm.trans todo
    refine ⟨[.resync, .chosen index _], by simp [Act.isMild], ⟨rfl, rfl, rfl, rfl, rfl⟩, ?_⟩
    rintro receiver options same
    cases same
    exact ⟨index, by simp⟩
  | chooses todo' =>
    cases todo'.symm.trans todo
    exact ⟨Act.closing, by simp [Act.closing, Command.animate, Act.isMild],
      ⟨rfl, rfl, rfl, verdicts_tell p l rfl, rfl⟩, by simp⟩
  | stops | breaks => exact absurd rfl alive
  | offers _ todo' | refuses _ _ todo' | holds todo' | turns todo' | switches _ todo'
  | jumps todo' | strays todo' | calls todo' =>
    cases todo'.symm.trans todo
    cases mild
  | _ => simp_all [Plot.lead]

end

end Plot

namespace Showcase

open Plot

/-! ### Past the ferryman -/

/-- What the run may have to do there. An error comes up in the change of scene only, and is caught
after it. -/
inductive Safe : List Act → Option Failure → Prop where
  | mild {todo : List Act} : (∀ a ∈ todo, a.isMild = true) → Safe todo none
  | loads {pre : List Act} (scene : String) (fault : Option Failure) :
      (∀ a ∈ pre, a.isDocile = true) → Safe (pre ++ [.loaded scene, .resync]) fault
  | jumps {label : String} : label = "epilogue" ∨ label = "end" → Safe [.goto label] none
  | asks : Safe [.branch 0 "end"] none

theorem Outbound.safe {c : Command} (h : Outbound c) (settings : Settings) (page : Page) :
    Safe (c.acts settings page) none := by
  cases h with
  | plain plain idle => exact .mild (Command.isMild_acts settings page plain idle)
  | loads scene color span fadeMusic =>
    have docile : ∀ a ∈ [Act.remark (.loadingScene scene), .load ⟨scene, color, span, fadeMusic⟩],
        a.isDocile = true := by
      simp [Act.isDocile, Act.isAside, Act.catches]
    exact .loads scene none docile
  | jumps after => exact .jumps after
  | asks => exact .asks

theorem Safe.not_action {todo after : List Act} {fault : Option Failure} {a : Act}
    (h : Safe todo fault) (head : todo = a :: after) (i : Nat) : a ≠ .action i := by
  rintro rfl
  cases h with
  | mild mild =>
    have acts := mild _ (head ▸ List.mem_cons_self)
    cases acts
  | @loads pre scene _ docile =>
    cases pre with
    | nil => cases head
    | cons b pre =>
      obtain ⟨rfl, -⟩ := List.cons.inj head
      have acts := docile _ List.mem_cons_self
      cases acts
  | jumps | asks => cases head

/-- `caught`: an error that is on its way does not get past an act that catches it. -/
theorem Safe.plays {l : Lead} {p p' : Plot} {a : Act} {after : List Act} (safe : Safe l.todo l.fault)
    (h : Plays l p p') (alive : p'.leads ≠ []) (todo : l.todo = a :: after)
    (program : l.run.program = cutscene) (far : 11 ≤ l.run.pointer)
    (fine : l.fault = none → a.isMild = true ∨ a = .branch 0 "end" → ∀ l' ∈ p'.leads, l'.fault = none)
    (caught : l.fault ≠ none → a.catches = true → ∀ l' ∈ p'.leads, l'.fault = none) :
    ∃ l', Carries l p p' l' ∧ Safe l'.todo l'.fault ∧ 11 ≤ l'.run.pointer := by
  obtain ⟨id, run, acts, fault⟩ := l
  dsimp only at safe todo program far fine caught
  cases safe with
  | mild mild =>
    have head := mild a (todo ▸ List.mem_cons_self)
    obtain ⟨new, news, carries, -⟩ := h.of_mild alive rfl (fine rfl (.inl head)) todo head
    exact ⟨_, carries, .mild (Act.mild_append news (todo ▸ mild)), far⟩
  | @loads pre scene _ docile =>
    cases pre with
    | nil =>
      -- Whatever came up in the load is caught here.
      obtain ⟨rfl, rfl⟩ := List.cons.inj todo
      obtain ⟨new, fault', leaves, carries⟩ := h.of_aside alive rfl rfl
      obtain rfl := Act.eq_nil_of_isInstant leaves rfl
      have done : fault' = none := by
        have among : _ ∈ p'.leads := carries.leads ▸ List.mem_singleton_self _
        by_cases free : fault = none
        · exact fine free (.inl rfl) _ among
        · exact caught free rfl _ among
      exact ⟨_, carries, done ▸ .mild (by simp [Act.isMild]), far⟩
    | cons b pre =>
      obtain ⟨rfl, rfl⟩ := List.cons.inj todo
      have aside : b.isAside = true := Act.isAside_of_isDocile (docile b List.mem_cons_self)
      obtain ⟨new, fault', leaves, carries⟩ := h.of_aside alive rfl aside
      refine ⟨_, carries, ?_, far⟩
      have loads := Safe.loads scene fault' (Phase.docile_append aside leaves docile)
      rwa [List.append_assoc] at loads
  | jumps outbound =>
    obtain ⟨rfl, rfl⟩ := List.cons.inj todo
    obtain ⟨place, found, past⟩ := resolve_after outbound
    exact ⟨_, h.of_goto alive rfl rfl (program ▸ found), .mild (List.forall_mem_nil _), past⟩
  | asks =>
    obtain ⟨rfl, rfl⟩ := List.cons.inj todo
    rcases h.of_branch alive rfl (fine rfl (.inr rfl)) rfl with carries | carries
    · exact ⟨_, carries, .mild (List.forall_mem_nil _), far⟩
    · exact ⟨_, carries, .jumps (.inr rfl), far⟩

/-! ### Where the run stands -/

/-- With the option that was picked and whether the ferryman was met, as host and callbacks see them. Up
to the choice it is `dusk`, and still is while the choice is open. -/
inductive Stage (limit : Nat) (chosen : Option Nat) (met : Int) (pointer : Nat) :
    List Act → Option Failure → Prop where
  | dusk {todo : List Act} : pointer ≤ 9 → (∀ a ∈ todo, a.isMild = true) →
      (pointer = 9 → (∀ receiver options, .answer receiver options ∉ todo) →
        chosen = some autoChoice) →
      Stage limit chosen met pointer todo none
  | asks : pointer = 9 → Stage limit chosen met pointer [.offer boarding] none
  | refused : limit < 2 → Stage limit chosen met pointer [] (some (.tooManyChoices 2 limit))
  | boards {todo : List Act} : pointer = 10 → todo = [.switch 0] ∨ todo = [.goto "ferry"] ∨ todo = [] →
      chosen = some autoChoice → Stage limit chosen met pointer todo none
  | greets : pointer = 11 → chosen = some autoChoice → Stage limit chosen met pointer [.action 0] none
  | sails {todo : List Act} {fault : Option Failure} : 11 ≤ pointer → Safe todo fault →
      chosen = some autoChoice → met = 1 → Stage limit chosen met pointer todo fault

/-- The run is under way, has completed, or was refused its choice. -/
inductive Chart (w : World) : Prop where
  | underway {l : Lead} : w.leads = [l] → l.run.number = 0 → l.run.program = cutscene →
      w.plot.verdicts = [] → Stage w.settings.maxChoices w.state.chosen (w.vars.get metVar)
        l.run.pointer l.todo l.fault → Chart w
  | completed : w.leads = [] → w.plot.verdicts = [(0, .completed)] →
      w.state.chosen = some autoChoice → w.vars.get metVar = 1 → Chart w
  | refused : w.leads = [] →
      w.plot.verdicts = [(0, .failed (.tooManyChoices 2 w.settings.maxChoices))] →
      w.settings.maxChoices < 2 → Chart w

variable {setup : Setup} {w w' : World} {f : Fiber} {rest : List Fiber} {r : Run}

theorem Stage.choose {limit pointer : Nat} {chosen chosen' : Option Nat} {met : Int}
    {todo : List Act} {fault : Option Failure} (h : Stage limit chosen met pointer todo fault)
    (same : chosen' = chosen ∨ chosen' = some autoChoice) : Stage limit chosen' met pointer todo fault := by
  have still (picked : chosen = some autoChoice) : chosen' = some autoChoice :=
    same.elim (·.trans picked) id
  cases h with
  | dusk before mild picked => exact .dusk before mild fun here done => still (picked here done)
  | asks here => exact .asks here
  | refused few => exact .refused few
  | boards here todo picked => exact .boards here todo (still picked)
  | greets here picked => exact .greets here (still picked)
  | sails past safe picked met => exact .sails past safe (still picked) met

/-- While the run goes nowhere, the host can pick the first option. -/
theorem Chart.touches (h : Chart w) (touched : Touches w.plot w'.plot)
    (settings : w'.settings = w.settings) (met : w'.vars.get metVar = w.vars.get metVar)
    (same : w'.state.chosen = w.state.chosen ∨ w'.state.chosen = some autoChoice) : Chart w' := by
  have leads : w'.leads = w.leads := touched.leads
  cases h with
  | underway lead number program silent stage =>
    exact .underway (leads.trans lead) number program (touched.verdicts.trans silent)
      (settings ▸ met ▸ stage.choose same)
  | completed alone ended picked there =>
    exact .completed (leads.trans alone) (touched.verdicts.trans ended)
      (same.elim (·.trans picked) id) (met.trans there)
  | refused alone ended few =>
    exact .refused (leads.trans alone) (settings ▸ touched.verdicts.trans ended) (settings ▸ few)

/-- The run tells of its choice only after the first option was picked. -/
theorem Handed.chosen (handed : Handed w) {l : Lead} (leads : w.leads = [l]) {i : Nat}
    {options : List String} (among : .chosen i options ∈ l.todo) :
    w.state.chosen = some autoChoice := by
  obtain ⟨h, handing, words⟩ := handed
  have opening {receiver : Nat} {options' : List String} {waits : Wait → Prop}
      (doing : w.Doing (Act.opening receiver options') waits) : False := by
    obtain ⟨l', leads', -, -, suffix⟩ := doing.lead
    obtain rfl := List.singleton_inj.mp (leads'.symm.trans leads)
    have acts := suffix.mem among
    simp [Act.opening, Command.animate] at acts
  have desk := handing.desk
  generalize way : Happening.underWay h = pick at desk
  cases desk with
  | bare _ plain =>
    have silent := List.any_eq_false.mp (plain l (leads ▸ List.mem_singleton_self l)) _ among
    exact absurd rfl silent
  | offered _ _ doing | given _ _ _ doing => exact (opening doing).elim
  | heard _ j =>
    have last := List.mem_of_getLast? (handing.chosen j way)
    exact words _ last

theorem Aboard.vars_turn (aboard : Aboard setup w) (ready : w.ready = f :: rest)
    (other : ∀ i after, f.todo ≠ .action i :: after) : w.turn.vars = w.vars := by
  refine congrArg Stock.vars (World.stock_turn fun i act => ?_)
  obtain ⟨g, rest', after, ready', -, -, todo, -⟩ := World.turn_act aboard.play.order act
  obtain ⟨rfl, -⟩ := List.cons.inj (ready.symm.trans ready')
  exact other i after todo

/-! ### The turn of the run's fiber -/

/-- The run of the cutscene is next. -/
structure Heading (setup : Setup) (w : World) (f : Fiber) (rest : List Fiber) (r : Run) : Prop
    extends Aboard setup w where
  bounded : w.feed.total.nanos < Span.limit
  ready : w.ready = f :: rest
  role : f.role = .run r
  spared : f.doomed = false
  number : r.number = 0
  program : r.program = cutscene
  silent : w.plot.verdicts = []

namespace Heading

variable {a : Act} {after : List Act} (h : Heading setup w f rest r)
include h

theorem attended : w.plot.Attended := h.play.order.staged.attended

theorem settings_turn : w.turn.settings = w.settings := World.settings_pulse h.play .turn

theorem alive (left : f.todo ≠ []) : w.turn.leads ≠ [] := by
  have going : w.isCancelled f = false := by rw [World.isCancelled, h.role]
  obtain ⟨g, among, -, same⟩ :=
    (h.turnsWell h.bounded).remains f rest h.ready h.spared going left h.turnPanics
  intro alone
  rw [World.isRun_eq_false_of_leads alone among, f.isRun_iff.mpr ⟨r, h.role⟩] at same
  cases same

theorem carry : World.Carry w.turn (w.faultAfter f r) := by
  obtain ⟨_, handing, -⟩ := h.handed
  exact World.fault_turn h.play handing.desk h.ready h.role

theorem fine (todo : f.todo = a :: after) (fault : f.fault = none) (quiet : w.raised? r a = none) :
    ∀ l ∈ w.turn.plot.leads, l.fault = none := by
  have carry := h.carry
  rw [World.faultAfter_fine todo fault, quiet] at carry
  exact carry

theorem vars_turn (other : ∀ i after, f.todo ≠ .action i :: after) : w.turn.vars = w.vars :=
  h.toAboard.vars_turn h.ready other

/-- The run stays where it is, or goes on in its command. -/
theorem carries {l : Lead} (carries : Carries (f.leading r) w.plot w.turn.plot l)
    (other : ∀ i after, f.todo ≠ .action i :: after)
    (stage : Stage w.settings.maxChoices w.state.chosen (w.vars.get metVar) l.run.pointer l.todo
      l.fault) : Chart w.turn := by
  have chosen : w.turn.state.chosen = w.state.chosen := carries.chosen
  refine .underway carries.leads (carries.number.trans h.number) (carries.program.trans h.program)
    (carries.verdicts.trans h.silent) ?_
  rwa [h.settings_turn, h.vars_turn other, chosen]

theorem enters {c : Command} (todo : f.todo = []) (fault : f.fault = none)
    (found : cutscene.commands[r.pointer]? = some c)
    (stage : ∀ settings page, Stage w.settings.maxChoices w.state.chosen (w.vars.get metVar)
      (r.pointer + 1) (c.acts settings page) none) : Chart w.turn := by
  obtain ⟨page, plot⟩ := World.plot_turn_enters h.ready h.role h.spared h.attended todo fault
    (h.program ▸ found)
  refine h.carries (l := ⟨f.id, { r with pointer := r.pointer + 1, page },
    c.acts w.settings r.page, f.fault⟩) ?_ (by simp [todo]) (fault ▸ stage w.settings r.page)
  rw [plot]
  exact ⟨rfl, rfl, rfl, verdicts_tell _ _ rfl, rfl⟩

/-- Between two commands. -/
theorem fetches (todo : f.todo = []) (stage : Stage w.settings.maxChoices w.state.chosen
    (w.vars.get metVar) r.pointer f.todo f.fault) : Chart w.turn := by
  generalize fault : f.fault = fault' at stage
  rw [todo] at stage
  cases stage with
  | dusk before _ picked =>
    rcases Nat.lt_or_ge r.pointer 8 with early | late
    · obtain ⟨c, found, plain, idle⟩ := commands_before early
      refine h.enters todo fault found fun settings page =>
        .dusk (by omega) (Command.isMild_acts settings page plain idle) (by omega)
    rcases Nat.lt_or_ge r.pointer 9 with here | past
    · obtain here : r.pointer = 8 := by omega
      exact h.enters todo fault (here ▸ commands_choice) fun _ _ => .asks (by omega)
    · obtain here : r.pointer = 9 := by omega
      exact h.enters todo fault (here ▸ commands_switch) fun _ _ =>
        .boards (by omega) (.inl rfl) (picked here (by simp))
  | refused few =>
    have plot := World.plot_turn_fails h.ready h.role h.spared h.attended todo fault
    refine .refused (congrArg Plot.leads plot) ?_ (h.settings_turn ▸ few)
    rw [plot, verdicts_ends, h.silent, h.settings_turn]
    exact congrArg (fun n => [(n, _)]) h.number
  | boards here _ picked =>
    exact h.enters todo fault (here ▸ commands_action) fun _ _ => .greets (by omega) picked
  | sails past safe picked met =>
    obtain rfl : fault' = none := by
      generalize left : ([] : List Act) = todo' at safe
      cases safe with
      | loads => simp at left
      | _ => rfl
    cases found : cutscene.commands[r.pointer]? with
    | some c =>
      exact h.enters todo fault found fun settings page =>
        .sails (by omega) ((outbound_after past found).safe settings page) picked met
    | none =>
      have plot := World.plot_turn_completes h.ready h.role h.spared h.attended todo fault
        (h.program ▸ found)
      refine .completed (congrArg Plot.leads plot) ?_ ?_ ?_
      · rw [plot, verdicts_ends, h.silent]
        exact congrArg (fun n => [(n, _)]) h.number
      · exact (congrArg (·.state.chosen) plot).trans picked
      · rw [h.vars_turn (by simp [todo]), met]

/-- What the cutscene asks is registered. -/
theorem answers {kind : CallbackKind} (asks : a.asks? = some (kind, 0)) (todo : f.todo = a :: after)
    (fault : f.fault = none) : ∀ l ∈ w.turn.plot.leads, l.fault = none := by
  refine h.fine todo fault ?_
  rw [World.raised?_of_asks asks]
  refine if_pos ?_
  have predicates := congrArg Array.size h.moored.predicates
  have selectors := congrArg Array.size h.moored.selectors
  have actions := congrArg Array.size h.moored.actions
  rw [World.stock, Array.size_map] at predicates selectors
  cases kind <;> simp_all [Registry.resolves, World.stock]

theorem turn_perform (todo : f.todo = a :: after) (fault : f.fault = none) :
    w.turn = { (w.taken f rest).perform { f with todo := after } a with actor := none } := by
  have going : w.isCancelled f = false := by rw [World.isCancelled, h.role]
  exact World.turn_going h.ready h.spared going fault todo

/-- The switch leads to the ferry. -/
theorem turn_switch (todo : f.todo = [.switch 0]) (fault : f.fault = none) :
    ∃ others, w.turn.leads = ⟨f.id, r, [.goto "ferry"], none⟩ :: others := by
  have moored : Moored (w.taken f rest) := h.moored.of_stock rfl
  have answer := moored.callSelector
  have role : (Fiber.first { f with todo := [] } [.goto "ferry"]).role = .run r := h.role
  have resumes : ∃ x : World, (w.taken f rest).performSwitch { f with todo := [] } 0 =
      x.resume (Fiber.first { f with todo := [] } [.goto "ferry"]) := by
    unfold World.performSwitch
    dsimp only
    rw [answer]
    exact ⟨_, rfl⟩
  obtain ⟨x, resumes⟩ := resumes
  have leads : w.turn.leads = ((w.taken f rest).performSwitch { f with todo := [] } 0).leads := by
    rw [h.turn_perform todo fault]
    rfl
  rw [leads, resumes, World.leads_resume, World.lead?_of_role role, ← fault]
  exact ⟨_, rfl⟩

/-- The action notes that the ferryman was met, and nothing else. -/
theorem turn_action (todo : f.todo = [.action 0]) (fault : f.fault = none) :
    w.turn.state = w.state ∧ w.turn.vars = w.vars.set metVar 1 := by
  have meets := callAction_meet (w := w.taken f rest) h.moored.actions
  have same : w.turn = { (w.taken f rest).performAction { f with todo := [] } 0 with actor := none } :=
    h.turn_perform todo fault
  rw [World.performAction, meets] at same
  rw [same]
  exact ⟨rfl, rfl⟩

section

variable (plays : Plays (f.leading r) w.plot w.turn.plot) (fault : (f.leading r).fault = none)
include plays fault

theorem mild (todo : f.todo = a :: after) (mild : ∀ b ∈ f.todo, b.isMild = true)
    (before : r.pointer ≤ 9) (picked : r.pointer = 9 →
      (∀ receiver options, .answer receiver options ∉ f.todo) → w.state.chosen = some autoChoice) :
    Chart w.turn := by
  have head : a.isMild = true := mild a (todo ▸ List.mem_cons_self)
  have left : f.todo ≠ [] := todo ▸ List.cons_ne_nil a after
  obtain ⟨new, news, carries, heard⟩ := plays.of_mild (h.alive left) fault
    (h.fine todo fault (World.raised?_of_isMild w r head)) todo head
  refine h.carries carries ?_
    (fault ▸ .dusk before (Act.mild_append news (todo ▸ mild)) fun here done => ?_)
  · rintro i rest same
    rw [todo] at same
    cases same
    cases head
  · by_cases asks : ∃ receiver options, a = .answer receiver options
    · obtain ⟨receiver, options, same⟩ := asks
      obtain ⟨i, among⟩ := heard receiver options same
      -- The run has just heard of the pick and still has to tell of it.
      have chosen := (h.toAboard.turn h.bounded).handed.chosen carries.leads
        (List.mem_append_left _ among)
      exact carries.chosen.symm.trans chosen
    · refine picked here fun receiver options among => ?_
      rcases List.mem_cons.mp (todo ▸ among) with same | among
      · exact asks ⟨receiver, options, same.symm⟩
      · exact done receiver options (List.mem_append_right _ among)

theorem asks (todo : f.todo = [.offer boarding]) (here : r.pointer = 9) : Chart w.turn := by
  have other : ∀ i after, f.todo ≠ .action i :: after := by simp [todo]
  rcases plays.of_offer (h.alive (by simp [todo])) fault todo with ⟨receiver, carries⟩ | ⟨e, carries⟩
  · refine h.carries carries other (fault ▸ .dusk (Nat.le_of_eq here) ?_ fun _ done => ?_)
    · simp [Act.opening, Command.animate, Act.isMild]
    · exact absurd (by simp [Act.opening]) (done receiver boarding)
  · have raised := h.carry _ (carries.leads ▸ List.mem_singleton_self _)
    rw [World.faultAfter_fine todo fault] at raised
    have few : some e = w.overfull? boarding := raised
    unfold World.overfull? at few
    split at few
    · rename_i many
      cases few
      exact h.carries carries other (.refused many)
    · cases few

theorem switches (todo : f.todo = [.switch 0]) (here : r.pointer = 10)
    (picked : w.state.chosen = some autoChoice) : Chart w.turn := by
  obtain ⟨label, carries⟩ :=
    plays.of_switch (h.alive (by simp [todo])) fault (h.answers rfl todo fault) todo
  obtain ⟨others, leads⟩ := h.turn_switch todo fault
  obtain ⟨same, -⟩ := List.cons.inj (carries.leads.symm.trans leads)
  refine h.carries carries (by simp [todo]) (fault ▸ .boards here (.inr (.inl ?_)) picked)
  exact congrArg Lead.todo same

theorem jumps (todo : f.todo = [.goto "ferry"]) (picked : w.state.chosen = some autoChoice) :
    Chart w.turn := by
  have carries := plays.of_goto (h.alive (by simp [todo])) fault todo (h.program ▸ resolve_ferry)
  exact h.carries carries (by simp [todo]) (fault ▸ .boards rfl (.inr (.inr rfl)) picked)

theorem greets (todo : f.todo = [.action 0]) (here : r.pointer = 11)
    (picked : w.state.chosen = some autoChoice) : Chart w.turn := by
  obtain ⟨state, vars⟩ := h.turn_action todo fault
  obtain ⟨leads, verdicts⟩ :=
    plays.of_action (h.alive (by simp [todo])) fault (h.answers rfl todo fault) todo
  have met : w.turn.vars.get metVar = 1 := by
    rw [vars, Vars.get_set, if_pos rfl]
  exact .underway leads h.number h.program (verdicts.trans h.silent)
    (fault ▸ .sails (Nat.le_of_eq here.symm) (.mild (List.forall_mem_nil _)) (state ▸ picked) met)

end

/-- Past the ferryman. -/
theorem sails (plays : Plays (f.leading r) w.plot w.turn.plot) (todo : f.todo = a :: after)
    (past : 11 ≤ r.pointer) (safe : Safe f.todo f.fault) (picked : w.state.chosen = some autoChoice)
    (met : w.vars.get metVar = 1) : Chart w.turn := by
  have other (i : Nat) : a ≠ .action i := safe.not_action todo i
  have fine (fault : f.fault = none) (quiet : a.isMild = true ∨ a = .branch 0 "end") :
      ∀ l ∈ w.turn.plot.leads, l.fault = none := by
    rcases quiet with mild | rfl
    · exact h.fine todo fault (World.raised?_of_isMild w r mild)
    · exact h.answers rfl todo fault
  have caught (faulty : f.fault ≠ none) (catches : a.catches = true) :
      ∀ l ∈ w.turn.plot.leads, l.fault = none := by
    obtain ⟨e, faulty⟩ := Option.ne_none_iff_exists'.mp faulty
    have carry := h.carry
    rw [World.faultAfter_faulty todo faulty, if_pos catches] at carry
    exact carry
  obtain ⟨l, carries, safe', past'⟩ := Safe.plays (l := f.leading r) safe plays
    (h.alive (todo ▸ List.cons_ne_nil a after)) todo h.program past fine caught
  refine h.carries carries (fun i rest same => ?_) (.sails past' safe' picked met)
  exact other i (List.cons.inj (todo.symm.trans same)).1

theorem turn (stage : Stage w.settings.maxChoices w.state.chosen (w.vars.get metVar) r.pointer
    f.todo f.fault) : Chart w.turn := by
  have leads : w.leads = [f.leading r] := World.leads_taken h.attended h.ready h.role
  rcases (World.turned_turn h.attended h.ready h.role).1 with
    plays | ⟨same, receiver, options, rest, todo⟩
  · cases todo : f.todo with
    | nil => exact h.fetches todo stage
    | cons a after =>
      generalize fault : f.fault = fault', acts : f.todo = todo' at stage
      cases stage with
      | dusk before mild picked =>
        exact h.mild plays fault todo (acts ▸ mild) before (acts ▸ picked)
      | asks here => exact h.asks plays fault acts here
      | refused => cases acts.symm.trans todo
      | boards here which picked =>
        rcases which with rfl | rfl | rfl
        · exact h.switches plays fault acts here picked
        · exact h.jumps plays fault acts picked
        · cases acts.symm.trans todo
      | greets here picked => exact h.greets plays fault acts here picked
      | sails past safe picked met =>
        exact h.sails plays todo past (acts ▸ fault ▸ safe) picked met
  · have other : ∀ i after, f.todo ≠ .action i :: after := by simp [todo]
    exact Chart.touches (.underway leads h.number h.program h.silent stage) (same ▸ .refl _)
      h.settings_turn (by rw [h.vars_turn other]) (.inl (congrArg (·.state.chosen) same))

end Heading

/-- Nothing that fibers do leads the run astray. -/
theorem Chart.turn (h : Chart w) (aboard : Aboard setup w)
    (bounded : w.feed.total.nanos < Span.limit) (unstopped : w.backstage.Unstopped) :
    Chart w.turn := by
  cases ready : w.ready with
  | nil =>
    rw [World.turn, ready]
    exact h
  | cons f rest =>
    have attended := aboard.play.order.staged.attended
    by_cases run : f.isRun = true
    · obtain ⟨r, role⟩ := f.isRun_iff.mp run
      have leads : w.leads = [f.leading r] := World.leads_taken attended ready role
      have spared := unstopped f (World.mem_hands_of_ready ready) run
      cases h with
      | underway lead number program silent stage =>
        obtain rfl := List.singleton_inj.mp (leads.symm.trans lead)
        exact Heading.turn ⟨aboard, bounded, ready, role, spared, number, program, silent⟩ stage
      | completed alone | refused alone => cases alone.symm.trans leads
    · have background : f.isRun = false := Bool.eq_false_iff.mpr run
      have vars : w.turn.vars = w.vars := by
        refine aboard.vars_turn ready fun i after todo => run ?_
        obtain ⟨r, role⟩ := aboard.play.order.run_of_act (a := .action i) ready (by simp [todo]) rfl
        exact f.isRun_iff.mpr ⟨r, role⟩
      exact h.touches (World.touches_turn aboard.play.order.crewed attended ready background).1
        (World.settings_pulse aboard.play .turn) (by rw [vars])
        (.inl (congrArg (·.chosen) (World.beside_turn aboard.play.order ready background).state))

/-! ### The whole showcase -/

/-- What holds of the world of the showcase until the host stops the run. -/
structure OnCourse (setup : Setup) (w : World) : Prop extends Aboard setup w where
  unstopped : w.backstage.Unstopped
  chart : Chart w

namespace OnCourse

theorem keeps (h : OnCourse setup w) (aboard : Aboard setup w') (kept : World.Keeps True w w')
    (met : w'.vars.get metVar = w.vars.get metVar) (hands : w'.hands = w.hands) :
    OnCourse setup w' where
  toAboard := aboard
  unstopped := h.unstopped.of_hands hands
  chart := h.chart.touches (kept.touches h.play.order.staged.attended.1) kept.settings met
    (.inl (congrArg (·.chosen) kept.beside.state))

theorem deal (h : OnCourse setup w) (bounded : w.feed.total.nanos < Span.limit) (deal : Deal w w') :
    OnCourse setup w' := by
  have aboard := h.toAboard.deal bounded deal
  cases deal with
  | turn =>
    exact ⟨aboard, World.unstopped_turn h.play h.manned h.unstopped,
      h.chart.turn h.toAboard bounded h.unstopped⟩
  | reach time =>
    exact h.keeps aboard (World.keeps_reach w time) rfl
      (congrArg Backstage.hands (World.backstage_wake _ _))
  | remark r => exact h.keeps aboard (World.keeps_remark w r) rfl rfl
  | steer =>
    refine h.keeps aboard (World.keeps_brief w (s := .setVar routeVar autoChoice) rfl rfl) ?_ rfl
    show (w.vars.set routeVar autoChoice).get metVar = _
    rw [Vars.get_set, if_neg (by decide)]
  | pick =>
    have hands : (w.select autoChoice).1.hands = w.hands :=
      congrArg Backstage.hands (World.backstage_select w autoChoice)
    refine ⟨aboard, h.unstopped.of_hands hands, h.chart.touches
      (World.touches_select w autoChoice h.play.order.staged.attended.1) ?_ ?_ ?_⟩
    · exact aboard.settings.trans h.settings.symm
    · exact congrArg (·.vars.get metVar) (World.stock_chores (World.chores_select w autoChoice))
    · unfold World.select
      split
      · exact .inr rfl
      · exact .inl rfl

theorem publish (h : OnCourse setup w) (keys : Keys) :
    OnCourse setup (w.publish setup.frameSpan keys) :=
  h.keeps (h.toAboard.publish keys) (World.keeps_publish w _ keys) rfl
    (congrArg Backstage.hands (World.backstage_wake _ _))

end OnCourse

end Showcase

end SceneScript
