import SceneScript.Proofs.Staged
/-!
The events of a performance, block by block: one for every run that was accepted, in that order, and
all but the last of them closed.
-/

namespace SceneScript

/-- A command of a run, and the option that was picked in it. -/
structure Stint where
  index : Nat
  opcode : Opcode
  pick : Option Nat
  runs : opcode ≠ .label
  picks : pick.isSome = true → opcode = .choice

def Stint.events (s : Stint) : List Event :=
  .stepped s.index s.opcode :: s.pick.toList.map .choiceMade

inductive Ending where
  | completed
  | aborted (error : Failure)

def Ending.event : Ending → Event
  | .completed => .completed
  | .aborted e => .aborted e

structure Block where
  run : Nat
  stints : List Stint
  ending : Option Ending

def Block.events (b : Block) : List Event :=
  .started b.run :: (b.stints.flatMap Stint.events ++ b.ending.toList.map Ending.event)

namespace World

/-- The events of runs, in order. The end of a countdown is none of them. -/
def events (w : World) : List Event :=
  (w.entries.filterMap Entry.event?).filter fun e => e ≠ .countdownTimedOut

def accepts (w : World) : Move → Option Nat
  | .host (.execute n) =>
    match (w.apply (.execute n)).2 with
    | .number run => some run
    | _ => none
  | _ => none

def acceptances (w : World) : List Move → List Nat
  | [] => []
  | m :: ms => (w.accepts m).toList ++ (w.move m).acceptances ms

def Lives (w : World) (run : Nat) : Prop := ∃ f ∈ w.fibers, ∃ r, f.role = .run r ∧ r.number = run

theorem events_eq_story (w : World) : w.events = w.story.filterMap Entry.event? := by
  unfold events story
  induction w.entries with
  | nil => rfl
  | cons e es ih =>
    obtain ⟨author, deed⟩ := e
    cases deed with
    | event ev =>
      have read : Entry.event? ⟨author, .event ev⟩ = some ev := rfl
      have idle : (Deed.event ev).isIdle = decide (ev = .countdownTimedOut) := rfl
      rw [List.filterMap_cons_some read, List.filter_cons, List.filter_cons, idle, ih]
      by_cases out : ev = .countdownTimedOut
      · simp [out]
      · simp [out, read]
    | _ =>
      rw [List.filterMap_cons_none rfl, ih, List.filter_cons]
      split
      · exact (List.filterMap_cons_none rfl).symm
      · rfl

end World

/-! ### The blocks of a plot -/

def Plot.events (p : Plot) : List Event := p.story.filterMap Entry.event?

theorem Plot.Touches.events {p p' : Plot} (touched : Plot.Touches p p') : p'.events = p.events := by
  obtain ⟨notes, story, told⟩ := touched.story
  have silent : notes.filterMap Entry.event? = [] := by
    refine List.filterMap_eq_nil_iff.mpr fun e member => ?_
    obtain ⟨n, deed⟩ := told e member
    simp [Entry.event?, deed, Deed.event?]
  rw [Plot.events, story, List.filterMap_append, silent, List.append_nil]
  rfl

/-- The plot has told these closed blocks, and `under` tells of the run under way. -/
structure Recount (p : Plot) (closed : List Block) (under : Option Block) : Prop where
  events : p.events = (closed ++ under.toList).flatMap Block.events
  runs : (closed ++ under.toList).map Block.run = List.range p.runs
  closed : ∀ b ∈ closed, b.ending.isSome = true
  ending : ∀ b, under = some b → b.ending = none
  leads : under = none ↔ p.leads = []

namespace Recount

variable {p p' : Plot} {closed : List Block} {under : Option Block} {l : Lead}

theorem same (h : Recount p closed under) (events : p'.events = p.events) (runs : p'.runs = p.runs)
    (leads : p'.leads = [] ↔ p.leads = []) : Recount p' closed under :=
  { h with
    events := events.trans h.events
    runs := by rw [runs]; exact h.runs
    leads := h.leads.trans leads.symm }

theorem touches (h : Recount p closed under) (touched : Plot.Touches p p') :
    Recount p' closed under :=
  h.same touched.events touched.runs (by rw [touched.leads])

theorem starts {n : Nat} {q : Program} (h : Recount p closed none) :
    Recount (p.starts n q) closed (some ⟨p.runs, [], none⟩) where
  events := by
    have told : (p.starts n q).events = p.events ++ [.started p.runs] := List.filterMap_append
    rw [told, h.events]
    simp [Block.events]
  runs := by
    have runs := h.runs
    simp only [Option.toList_none, List.append_nil] at runs
    simp [runs, Plot.starts, List.range_succ]
  closed := h.closed
  ending := by simp
  leads := by simp [Plot.starts]

theorem ends {b : Block} {e : Ending} {o : Outcome} (h : Recount p closed (some b))
    (event : o.event = e.event) :
    Recount (p.ends l o) (closed ++ [{ b with ending := some e }]) none where
  events := by
    have told : (p.ends l o).events = p.events ++ [o.event] := List.filterMap_append
    rw [told, h.events, event]
    simp [Block.events, h.ending b rfl]
  runs := by
    rw [show (p.ends l o).runs = p.runs from rfl, ← h.runs]
    simp
  closed := by
    intro b' hb'
    rcases List.mem_append.mp hb' with hb' | hb'
    · exact h.closed b' hb'
    · rw [List.mem_singleton.mp hb']
      rfl
  ending := by simp
  leads := by simp [Plot.ends, Plot.quiet, Plot.add]

theorem enters {b : Block} {c : Command} {settings : Settings} {page : Page}
    (h : Recount p closed (some b)) (label : c.isLabel = false) :
    ∃ s : Stint, Recount (p.enters l c settings page) closed
      (some { b with stints := b.stints ++ [s] }) := by
  have runs : c.opcode ≠ .label := by
    cases c <;> simp_all [Command.isLabel, Command.labelName?, Command.opcode]
  refine ⟨⟨l.run.pointer, c.opcode, none, runs, by simp⟩, ?_⟩
  have told : (p.enters l c settings page).events = p.events ++ [.stepped l.run.pointer c.opcode] :=
    List.filterMap_append
  exact
    { events := by
        rw [told, h.events]
        simp [Block.events, Stint.events, h.ending b rfl]
      runs := by
        rw [show (p.enters l c settings page).runs = p.runs from rfl, ← h.runs]
        simp
      closed := h.closed
      ending := by
        rintro _ ⟨⟩
        exact h.ending b rfl
      leads := by simp [Plot.enters, Plot.lead] }

theorem chooses {b : Block} {index place : Nat} (l' : Lead) (h : Recount p closed (some b))
    (stepped : p.events.getLast? = some (.stepped place .choice)) :
    ∃ stints, Recount ((p.tell l (.event (.choiceMade index))).lead l') closed
      (some { b with stints }) := by
  have ending := h.ending b rfl
  have told : ((p.tell l (.event (.choiceMade index))).lead l').events =
      p.events ++ [.choiceMade index] := List.filterMap_append
  have last : b.events.getLast? = some (.stepped place .choice) := by
    rw [h.events] at stepped
    simpa [List.getLast?_append, Block.events] using stepped
  rcases List.eq_nil_or_concat b.stints with none | ⟨before, s, some⟩
  · simp [Block.events, ending, none] at last
  have shape : b.events = (.started b.run :: before.flatMap Stint.events) ++ s.events := by
    simp [Block.events, ending, some]
  obtain ⟨opcode, pick⟩ : s.opcode = .choice ∧ s.pick = none := by
    rw [shape, List.getLast?_append] at last
    cases pick : s.pick <;> simp_all [Stint.events]
  let picked : Stint := { s with pick := Option.some index, picks := fun _ => opcode }
  refine ⟨before ++ [picked], ?_⟩
  exact
    { events := by
        rw [told, h.events]
        simp [Block.events, ending, some, Stint.events, pick, picked]
      runs := by
        rw [show ((p.tell l (.event (.choiceMade index))).lead l').runs = p.runs from rfl, ← h.runs]
        simp
      closed := h.closed
      ending := by
        rintro _ ⟨⟩
        exact ending
      leads := by simp [Plot.lead] }

theorem plays (h : Recount p closed under) (playing : p.Playing l) (plays : Plot.Plays l p p') :
    ∃ closed' under', Recount p' closed' under' := by
  obtain ⟨b, rfl⟩ : ∃ b, under = some b := by
    cases under with
    | none =>
      have leads := h.leads.mp rfl
      rw [playing.leads] at leads
      cases leads
    | some b => exact ⟨b, rfl⟩
  -- The run goes on with nothing told that is an event.
  have goes {p' : Plot} {l' : Lead} (events : p'.events = p.events) (runs : p'.runs = p.runs)
      (leads : p'.leads = [l']) : ∃ closed' under', Recount p' closed' under' :=
    ⟨closed, some b, h.same events runs (by simp [leads, playing.leads])⟩
  cases plays with
  | completes => exact ⟨_, _, h.ends (e := .completed) rfl⟩
  | @fails e => exact ⟨_, _, h.ends (e := .aborted e) rfl⟩
  | stops => exact ⟨_, _, h.ends (e := .aborted World.cancellation) rfl⟩
  | breaks text touched =>
    exact ⟨_, _, (h.touches touched).ends (e := .aborted World.cancellation) rfl⟩
  | fetches settings page todo fault found =>
    obtain ⟨s, entered⟩ := h.enters (playing.labels _ (List.mem_of_getElem? found))
    exact ⟨_, _, entered⟩
  | chooses todo fault =>
    obtain ⟨c, shown, picks, under⟩ := playing.under todo
    cases (under.phase fault).loud todo rfl with
    | picked options index =>
      obtain ⟨stints, chosen⟩ := h.chooses _ (under.stepped rfl)
      exact ⟨_, _, chosen⟩
  | calls todo fault touched =>
    have touched' := h.touches touched
    exact ⟨closed, some b, touched'.same ((List.filterMap_append).trans (List.append_nil _)) rfl
      (by simp [Plot.lead, touched.leads, playing.leads])⟩
  | shows | holds | turns | switches | unheard =>
    exact goes ((List.filterMap_append).trans (List.append_nil _)) rfl rfl
  | _ => exact goes rfl rfl rfl

end Recount

theorem Plot.Plays.runs {p p' : Plot} {l : Lead} (h : Plot.Plays l p p') : p'.runs = p.runs := by
  cases h with
  | breaks text touched => exact touched.runs
  | calls todo fault touched => exact touched.runs
  | _ => rfl

theorem Plot.Turn.runs {p p' : Plot} (h : Plot.Turn p p') : p'.runs = p.runs := by
  cases h with
  | rests touched => exact touched.runs
  | plays _ plays => exact plays.runs

/-- The block under way tells of the run under way, the closed ones of runs before it. -/
theorem Recount.numbers {p : Plot} {closed : List Block} {b : Block} {l : Lead}
    (h : Recount p closed (some b)) (playing : p.Playing l) :
    b.run = l.run.number ∧ ∀ b' ∈ closed, b'.run < l.run.number := by
  have runs := h.runs
  rw [playing.runs, List.range_succ, Option.toList_some, List.map_append] at runs
  obtain ⟨before, last⟩ := List.append_inj' runs rfl
  refine ⟨(List.cons.inj last).1, fun b' member => ?_⟩
  have mem : b'.run ∈ List.range l.run.number := before ▸ List.mem_map_of_mem member
  exact List.mem_range.mp mem

namespace World

variable {w w' : World}

theorem InOrder.playing (h : w.InOrder) {l : Lead} (leads : w.plot.leads = [l]) :
    w.plot.Playing l := by
  cases h.staged with
  | idle idle =>
    rw [idle.leads] at leads
    cases leads
  | playing l' playing =>
    obtain rfl : l' = l := (List.cons.inj (playing.leads.symm.trans leads)).1
    exact playing

theorem recount_step (h : w.InOrder) {closed : List Block} {under : Option Block}
    (recount : Recount w.plot closed under) (step : Plot.Step w.plot w'.plot) :
    ∃ closed' under', Recount w'.plot closed' under' := by
  generalize w'.plot = p' at step
  cases step with
  | turn turn =>
    cases turn with
    | rests touched => exact ⟨_, _, recount.touches touched⟩
    | plays leads plays => exact recount.plays (h.playing leads) plays
  | starts idle =>
    have none : under = none := by
      rw [recount.leads]
      by_contra some
      have busy := h.staged.attended.2.mpr some
      rw [idle] at busy
      cases busy
    subst none
    exact ⟨_, _, recount.starts⟩

theorem recount_after (o : Opening) (ms : List Move) :
    ∃ closed under, Recount (o.world.after ms).plot closed under := by
  have start : ∃ closed under, Recount o.world.plot closed under :=
    ⟨[], none, rfl, rfl, by simp, by simp, by simp [plot, leads, fibers, Opening.world, new]⟩
  refine ((inOrder_opening o).along (beats_after o.world ms)
    (P := fun w => ∃ closed under, Recount w.plot closed under) start fun order beat kept => ?_).2
  obtain ⟨closed, under, recount⟩ := kept
  exact recount_step order recount (order.step beat)

/-! ### Which run is which -/

theorem lives_iff (w : World) (run : Nat) : w.Lives run ↔ ∃ l ∈ w.leads, l.run.number = run := by
  constructor
  · rintro ⟨f, member, r, role, rfl⟩
    exact ⟨_, List.mem_filterMap.mpr ⟨f, member, lead?_of_role role⟩, rfl⟩
  · rintro ⟨l, among, rfl⟩
    obtain ⟨f, member, role, -⟩ := exists_of_mem_leads among
    exact ⟨f, member, l.run, role, rfl⟩

theorem abort_gone {run : Nat} (h : ¬ w.Lives run) : w.apply (.abort run) = (w, .gone) := by
  have none : w.runFiber? run = none := by
    refine List.find?_eq_none.mpr fun f member => ?_
    split
    · rename_i r role
      intro same
      exact h ⟨f, member, r, role, by simpa using same⟩
    · simp
  show ((w.abortFiber (w.runFiber? run)).1, aborted (w.abortFiber (w.runFiber? run)).2) = _
  rw [none]
  rfl

theorem lulls_runs (h : w.InOrder) (lulls : Lulls w w') : w'.runs = w.runs := by
  have run : w'.InOrder ∧ w'.runs = w.runs := by
    induction lulls with
    | refl => exact ⟨h, rfl⟩
    | tail _ lull ih =>
      obtain ⟨order, runs⟩ := ih
      have turned := (lull.turns order.crewed order.actor order.staged.attended).1
      exact ⟨order.beat (.lull lull), (Plot.Turn.runs turned).trans runs⟩
  exact run.2

theorem range_move (h : w.InOrder) (m : Move) :
    List.range (w.move m).runs = List.range w.runs ++ (w.accepts m).toList := by
  have same (runs : (w.move m).runs = w.runs) (none : w.accepts m = none) :
      List.range (w.move m).runs = List.range w.runs ++ (w.accepts m).toList := by
    rw [runs, none]
    simp
  cases m with
  | turn => exact same (lulls_runs h (.single (.turn w))) rfl
  | host s =>
    by_cases execute : ∃ n, s = .execute n
    · obtain ⟨n, rfl⟩ := execute
      rcases execute_cases_plot w n h.actor h.staged.attended with
        ⟨e, result, touched⟩ | ⟨q, q', -, -, -, -, result, plot⟩
      · exact same touched.runs (by rw [accepts, result])
      · have runs : (w.apply (.execute n)).1.runs = w.runs + 1 := congrArg Plot.runs plot
        rw [show (w.move (.host (.execute n))).runs = _ from runs, List.range_succ, accepts, result]
        rfl
    · have other (n : Nat) : s ≠ .execute n := fun same => execute ⟨n, same⟩
      have none : w.accepts (.host s) = none := by
        unfold accepts
        split
        · rename_i n heq
          exact absurd (Move.host.inj heq) (other n)
        · rfl
      cases brief : s.isBrief with
      | true =>
        exact same (brief_turns w brief other h.crewed h.actor h.staged.attended).1.runs none
      | false => exact same (lulls_runs h (lulls_apply w brief)) none

theorem range_after (h : w.InOrder) (ms : List Move) :
    List.range (w.after ms).runs = List.range w.runs ++ w.acceptances ms := by
  induction ms generalizing w with
  | nil => simp [after, acceptances]
  | cons m ms ih =>
    rw [show w.after (m :: ms) = (w.move m).after ms from rfl, ih (h.beats (beats_move w m)),
      range_move h m, acceptances, List.append_assoc]

theorem ending_eq_none_iff (order : w.InOrder) {closed : List Block} {under : Option Block}
    (recount : Recount w.plot closed under) :
    ∀ b ∈ closed ++ under.toList, b.ending = none ↔ w.Lives b.run := by
  intro b member
  rw [lives_iff]
  cases leads : w.leads with
  | nil =>
    have none : under = none := recount.leads.mpr leads
    rw [none, Option.toList_none, List.append_nil] at member
    have ended := recount.closed b member
    cases ending : b.ending <;> simp_all
  | cons l others =>
    have one : others = [] := by
      have bound := order.staged.attended.1
      rw [show w.plot.leads = l :: others from leads] at bound
      exact List.eq_nil_of_length_eq_zero (by simpa using bound)
    rw [one] at leads
    obtain ⟨u, rfl⟩ : ∃ u, under = some u := by
      cases under with
      | none =>
        rw [show w.leads = [] from recount.leads.mp rfl] at leads
        cases leads
      | some u => exact ⟨u, rfl⟩
    -- Closed blocks have lower numbers than the one under way.
    obtain ⟨number, before⟩ := recount.numbers (order.playing leads)
    rw [one]
    rcases List.mem_append.mp member with member | member
    · have ended := recount.closed b member
      have earlier := before b member
      have differs : l.run.number ≠ b.run := by omega
      cases ending : b.ending <;> simp_all
    · obtain rfl : b = u := by simpa using member
      simp [recount.ending b rfl, number]

/-- The events of runs fall into blocks, one for every run that was accepted. A block lacks its end
while the run's fiber lives, and only the last one does; the handle of any other run is idle. -/
theorem events_in_blocks (o : Opening) (ms : List Move) :
    ∃ blocks : List Block,
      (o.world.after ms).events = blocks.flatMap Block.events ∧
      blocks.map Block.run = o.world.acceptances ms ∧
      (∀ b ∈ blocks.dropLast, b.ending ≠ none) ∧
      (∀ b ∈ blocks, b.ending = none ↔ (o.world.after ms).Lives b.run) ∧
      ∀ b ∈ blocks, b.ending ≠ none →
        (o.world.after ms).apply (.abort b.run) = (o.world.after ms, .gone) := by
  obtain ⟨closed, under, recount⟩ := recount_after o ms
  have order := inOrder_after o ms
  have range := range_after (inOrder_opening o) ms
  generalize o.world.after ms = w at recount order range ⊢
  have lives := ending_eq_none_iff order recount
  refine ⟨closed ++ under.toList, ?_, ?_, ?_, lives, ?_⟩
  · rw [events_eq_story]
    exact recount.events
  · rw [recount.runs]
    exact range
  · intro b member
    have old : b ∈ closed := by
      cases under with
      | none => exact List.dropLast_subset _ (by simpa using member)
      | some u => simpa using member
    simpa [Option.isSome_iff_ne_none] using recount.closed b old
  · intro b member ended
    exact abort_gone fun alive => ended ((lives b member).mpr alive)

end World

end SceneScript
