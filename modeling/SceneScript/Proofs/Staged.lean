import SceneScript.Proofs.Labels
import SceneScript.Proofs.Phase
import SceneScript.Proofs.Performance
/-!
The invariant of a performance: no run is under way and everything is as it is by default, or one
fiber plays one run and the state, the stage and the events agree on how far it has come.
-/

namespace SceneScript

/-! ### Reading the chronicle -/

namespace Entry

def event? (e : Entry) : Option Event := e.deed.event?

def cursor? (e : Entry) : Option Bool :=
  match e.deed with
  | .stage (.setCursorVisible visible) => some visible
  | _ => none

def input? (e : Entry) : Option Bool :=
  match e.deed with
  | .stage (.setInputBlocked blocked) => some blocked
  | _ => none

end Entry

def latest {α : Type} (g : Entry → Option α) (es : List Entry) : Option α := (es.filterMap g).getLast?

theorem latest_append {α : Type} (g : Entry → Option α) (es es' : List Entry) :
    latest g (es ++ es') = (latest g es').or (latest g es) := by
  rw [latest, List.filterMap_append, List.getLast?_append]
  rfl

theorem latest_append_none {α : Type} (g : Entry → Option α) (es : List Entry) {es' : List Entry}
    (h : ∀ e ∈ es', g e = none) : latest g (es ++ es') = latest g es := by
  rw [latest_append, latest, List.filterMap_eq_nil_iff.mpr h]
  rfl

theorem latest_notes {α : Type} (g : Entry → Option α) (silent : ∀ a n, g ⟨a, .note n⟩ = none)
    (es : List Entry) {notes : List Entry} (h : ∀ e ∈ notes, ∃ n, e.deed = .note n) :
    latest g (es ++ notes) = latest g es := by
  refine latest_append_none g es fun e he => ?_
  obtain ⟨n, deed⟩ := h e he
  have := silent e.author n
  rwa [← deed] at this

namespace Plot

/-! ### The invariant -/

structure Idle (p : Plot) : Prop where
  leads : p.leads = []
  executing : p.state.executing = false
  run : p.state.run = none
  pointer : p.state.pointer = 0
  command : p.state.command = none
  pending : p.pending = false
  cursor : p.runs ≠ 0 → latest Entry.cursor? p.story = some true
  input : p.runs ≠ 0 → latest Entry.input? p.story = some false

/-- The run has entered command `c`. -/
structure Under (p : Plot) (l : Lead) (c : Command) (shown picks : Bool) : Prop where
  command : p.state.command = some c
  place : l.run.program.commands[p.state.pointer]? = some c
  course : Course c l.todo l.fault shown picks
  cursor : latest Entry.cursor? p.story = some shown
  stepped : picks = true → latest Entry.event? p.story = some (.stepped p.state.pointer .choice)

/-- The run has not begun. -/
structure Fresh (p : Plot) (l : Lead) : Prop where
  command : p.state.command = none
  pointer : p.state.pointer = 0
  next : l.run.pointer = 0
  todo : l.todo = []
  fault : l.fault = none
  cursor : latest Entry.cursor? p.story = some false
  event : latest Entry.event? p.story = some (.started l.run.number)

structure Playing (p : Plot) (l : Lead) : Prop where
  leads : p.leads = [l]
  executing : p.state.executing = true
  run : p.state.run = some l.run.number
  runs : p.runs = l.run.number + 1
  labels : ∀ c ∈ l.run.program.commands, c.isLabel = false
  input : latest Entry.input? p.story = some true
  course : p.Fresh l ∨ ∃ c shown picks, p.Under l c shown picks

inductive Staged (p : Plot) : Prop where
  | idle : p.Idle → p.Staged
  | playing (l : Lead) : p.Playing l → p.Staged

/-- Resolved programs are free of labels. -/
def Sound (p : Plot) : Prop :=
  ∀ (n : Nat) (q : Program), p.programs[n]? = some q → q.resolved = true →
    ∀ c ∈ q.commands, c.isLabel = false

theorem Staged.attended {p : Plot} (h : p.Staged) : p.Attended := by
  cases h with
  | idle h => exact ⟨by simp [h.leads], by simp [h.executing, h.leads]⟩
  | playing l h => exact ⟨by simp [h.leads], by simp [h.executing, h.leads]⟩

variable {p p' : Plot} {l : Lead}

/-! ### What happens beside the run -/

theorem Touches.latest (h : Touches p p') {α : Type} (g : Entry → Option α)
    (silent : ∀ a n, g ⟨a, .note n⟩ = none) : latest g p'.story = SceneScript.latest g p.story := by
  obtain ⟨notes, story, told⟩ := h.story
  rw [story]
  exact latest_notes g silent _ told

theorem Idle.touches (h : p.Idle) (touched : Touches p p') : p'.Idle := by
  obtain ⟨chosen, state⟩ := touched.state
  exact
    { leads := touched.leads.trans h.leads
      executing := by rw [state]; exact h.executing
      run := by rw [state]; exact h.run
      pointer := by rw [state]; exact h.pointer
      command := by rw [state]; exact h.command
      pending := touched.pending h.pending
      cursor := by
        rw [touched.runs, touched.latest _ fun _ _ => rfl]
        exact h.cursor
      input := by
        rw [touched.runs, touched.latest _ fun _ _ => rfl]
        exact h.input }

theorem Playing.touches (h : p.Playing l) (touched : Touches p p') : p'.Playing l := by
  obtain ⟨chosen, state⟩ := touched.state
  refine
    { leads := touched.leads.trans h.leads
      executing := by rw [state]; exact h.executing
      run := by rw [state]; exact h.run
      runs := touched.runs.trans h.runs
      labels := h.labels
      input := by
        rw [touched.latest _ fun _ _ => rfl]
        exact h.input
      course := ?_ }
  rcases h.course with fresh | ⟨c, shown, picks, under⟩
  · refine .inl { fresh with command := ?_, pointer := ?_, cursor := ?_, event := ?_ }
    · rw [state]; exact fresh.command
    · rw [state]; exact fresh.pointer
    · rw [touched.latest _ fun _ _ => rfl]; exact fresh.cursor
    · rw [touched.latest _ fun _ _ => rfl]; exact fresh.event
  · refine .inr ⟨c, shown, picks,
      { under with command := ?_, place := ?_, cursor := ?_, stepped := ?_ }⟩
    · rw [state]; exact under.command
    · rw [state]; exact under.place
    · rw [touched.latest _ fun _ _ => rfl]; exact under.cursor
    · rw [state, touched.latest _ fun _ _ => rfl]; exact under.stepped

theorem Sound.touches (h : p.Sound) (touched : Touches p p') : p'.Sound := by
  intro n q' found resolved
  obtain ⟨q, found', rfl | done⟩ := touched.programs n q' found
  · exact h n _ found' resolved
  · exact Program.labels_of_preprocess done (h n q found')

/-! ### The start and the end of a run -/

theorem idle_ends (p : Plot) (l : Lead) (o : Outcome) : (p.ends l o).Idle where
  leads := rfl
  executing := rfl
  run := rfl
  pointer := rfl
  command := rfl
  pending := rfl
  cursor := fun _ => by
    show latest _ (p.story ++ _) = _
    rw [latest_append]
    rfl
  input := fun _ => by
    show latest _ (p.story ++ _) = _
    rw [latest_append]
    rfl

theorem playing_starts (p : Plot) (n : Nat) {q : Program}
    (labels : ∀ c ∈ q.commands, c.isLabel = false) :
    (p.starts n q).Playing ⟨p.fibers, ⟨p.runs, q, 0, .empty⟩, [], none⟩ where
  leads := rfl
  executing := rfl
  run := rfl
  runs := rfl
  labels := labels
  input := by
    show latest _ (p.story ++ _) = _
    rw [latest_append]
    rfl
  course := .inl
    { command := rfl
      pointer := rfl
      next := rfl
      todo := rfl
      fault := rfl
      cursor := by
        show latest _ (p.story ++ _) = _
        rw [latest_append]
        rfl
      event := by
        show latest _ (p.story ++ _) = _
        rw [latest_append]
        rfl }

theorem Sound.starts {n : Nat} {q q' : Program} (h : p.Sound) (found : p.programs[n]? = some q)
    (done : q.preprocess = .ok q') : (p.starts n q').Sound := by
  intro m r found' resolved
  have labels := Program.labels_of_preprocess done (h n q found)
  rw [show (p.starts n q').programs = p.programs.setIfInBounds n q' from rfl,
    Array.getElem?_setIfInBounds] at found'
  split at found'
  · split at found'
    · cases found'
      exact labels
    · cases found'
  · exact h m r found' resolved

/-! ### The run goes on -/

theorem Playing.moves {l' : Lead} {c : Command} {shown picks : Bool} (h : p.Playing l)
    (state : p'.state = p.state) (runs : p'.runs = p.runs) (leads : p'.leads = [l'])
    (number : l'.run.number = l.run.number) (program : l'.run.program = l.run.program)
    (input : latest Entry.input? p'.story = latest Entry.input? p.story)
    (under : p'.Under l' c shown picks) : p'.Playing l' where
  leads := leads
  executing := by rw [state]; exact h.executing
  run := by rw [state, number]; exact h.run
  runs := by rw [runs, number]; exact h.runs
  labels := by rw [program]; exact h.labels
  input := input.trans h.input
  course := .inr ⟨c, shown, picks, under⟩

theorem Playing.under {a : Act} {rest : List Act} (h : p.Playing l) (todo : l.todo = a :: rest) :
    ∃ c shown picks, p.Under l c shown picks := by
  rcases h.course with fresh | under
  · rw [fresh.todo] at todo
    cases todo
  · exact under

theorem Under.phase {c : Command} {shown picks : Bool} (h : p.Under l c shown picks)
    (fault : l.fault = none) : Phase c l.todo shown picks :=
  Course.phase (fault ▸ h.course)

theorem latest_tell {α : Type} (g : Entry → Option α) (p : Plot) (l : Lead) (d : Deed) :
    latest g (p.tell l d).story = (g ⟨some l.id, d⟩).or (latest g p.story) := by
  rw [show (p.tell l d).story = p.story ++ [⟨some l.id, d⟩] from rfl, latest_append]
  congr 1
  unfold latest
  rw [List.filterMap_cons]
  cases g ⟨some l.id, d⟩ <;> rfl

theorem Playing.enters {c : Command} {settings : Settings} {page : Page} (h : p.Playing l)
    (todo : l.todo = []) (fault : l.fault = none)
    (found : l.run.program.commands[l.run.pointer]? = some c) :
    (p.enters l c settings page).Playing
      { l with run := { l.run with pointer := l.run.pointer + 1, page },
               todo := c.acts settings l.run.page } := by
  have cursor : latest Entry.cursor? p.story = some false := by
    rcases h.course with fresh | ⟨c, shown, picks, under⟩
    · exact fresh.cursor
    · rw [under.cursor, ((under.phase fault).nil todo).1]
  have told {α : Type} (g : Entry → Option α) :=
    latest_tell g { p with state := p.state.enter l.run.pointer c } l
      (.event (.stepped l.run.pointer c.opcode))
  refine
    { leads := rfl
      executing := h.executing
      run := h.run
      runs := h.runs
      labels := h.labels
      input := (told Entry.input?).trans h.input
      course := .inr ⟨c, false, c.isChoice,
        { command := rfl
          place := found
          course := (c.phase_acts settings l.run.page).course fault
          cursor := (told Entry.cursor?).trans cursor
          stepped := fun picks => (told Entry.event?).trans ?_ }⟩ }
  have opcode : c.opcode = .choice := by simpa [Command.isChoice] using picks
  rw [opcode]
  rfl

theorem Playing.along {l' : Lead} {c : Command} {shown picks shown' picks' : Bool} (h : p.Playing l)
    (under : p.Under l c shown picks) (state : p'.state = p.state) (runs : p'.runs = p.runs)
    (leads : p'.leads = [l']) (number : l'.run.number = l.run.number)
    (program : l'.run.program = l.run.program)
    (input : latest Entry.input? p'.story = latest Entry.input? p.story)
    (cursor : latest Entry.cursor? p'.story = some shown')
    (event : picks' = true → latest Entry.event? p'.story = latest Entry.event? p.story ∧ picks = true)
    (course : Course c l'.todo l'.fault shown' picks') : p'.Playing l' :=
  h.moves state runs leads number program input
    { command := by rw [state]; exact under.command
      place := by rw [state, program]; exact under.place
      course
      cursor
      stepped := fun some => by
        rw [state, (event some).1]
        exact under.stepped (event some).2 }

/-- Nothing is told of the run. -/
theorem Playing.quiet {l' : Lead} {c : Command} {shown picks picks' : Bool} (h : p.Playing l)
    (under : p.Under l c shown picks) (state : p'.state = p.state) (runs : p'.runs = p.runs)
    (story : p'.story = p.story) (leads : p'.leads = [l']) (number : l'.run.number = l.run.number)
    (program : l'.run.program = l.run.program) (course : Course c l'.todo l'.fault shown picks')
    (fewer : picks' = true → picks = true) : p'.Playing l' :=
  h.along under state runs leads number program (by rw [story])
    (by rw [story]; exact under.cursor) (fun some => ⟨by rw [story], fewer some⟩) course

/-- A callback came back. -/
theorem Playing.heard {l' : Lead} {c : Command} {picks : Bool} (r : Reply) (h : p.Playing l)
    (under : p.Under l c false picks) (number : l'.run.number = l.run.number)
    (program : l'.run.program = l.run.program) (course : Course c l'.todo l'.fault false false) :
    ((p.tell l (.replied r)).lead l').Playing l' :=
  h.along under rfl rfl rfl number program (latest_tell Entry.input? p l (.replied r))
    ((latest_tell Entry.cursor? p l (.replied r)).trans under.cursor) (by simp) course

theorem Playing.shows {call : StageCall} {rest : List Act} (h : p.Playing l)
    (todo : l.todo = .stage call :: rest) (fault : l.fault = none)
    (told : (Act.stage call).isAside = false) :
    ((p.tell l (.stage call)).lead { l with todo := rest }).Playing { l with todo := rest } := by
  obtain ⟨c, shown, picks, under⟩ := h.under todo
  have switched (b : Bool) (left : Phase c rest b picks) :
      ((p.tell l (.stage (.setCursorVisible b))).lead { l with todo := rest }).Playing
        { l with todo := rest } := by
    have course : Course c rest l.fault b picks := left.course fault
    exact h.along under rfl rfl rfl rfl rfl (latest_tell Entry.input? p l _)
      (latest_tell Entry.cursor? p l _) (fun some => ⟨latest_tell Entry.event? p l _, some⟩) course
  cases (under.phase fault).loud todo told with
  | opens options left => exact switched true left
  | closes options => exact switched false (.spent _)

theorem Playing.chooses {index : Nat} {options : List String} {rest : List Act} (h : p.Playing l)
    (todo : l.todo = .chosen index options :: rest) (fault : l.fault = none) :
    ((p.tell l (.event (.choiceMade index))).lead { l with todo := Act.closing ++ rest }).Playing
      { l with todo := Act.closing ++ rest } := by
  obtain ⟨c, shown, picks, under⟩ := h.under todo
  cases (under.phase fault).loud todo rfl with
  | picked =>
    have course : Course (.choice options) Act.closing l.fault true false :=
      (Command.phase_closing options).course fault
    exact h.along under rfl rfl rfl rfl rfl (latest_tell Entry.input? p l _)
      ((latest_tell Entry.cursor? p l _).trans under.cursor) (by simp) course

theorem Playing.plays (h : p.Playing l) (plays : Plays l p p') :
    p'.Idle ∨ ∃ l', p'.Playing l' := by
  cases plays with
  | completes | fails | stops => exact .inl (idle_ends _ _ _)
  | breaks => exact .inl (idle_ends _ _ _)
  | fetches settings page todo fault found => exact .inr ⟨_, h.enters todo fault found⟩
  | goes todo fault aside leaves raised =>
    obtain ⟨c, shown, picks, under⟩ := h.under todo
    have next := (under.phase fault).goes todo aside leaves
    rcases raised with rfl | ⟨e, rfl, -⟩
    · exact .inr ⟨_, h.quiet under rfl rfl rfl rfl rfl rfl (.fine next) id⟩
    · exact .inr ⟨_, h.quiet under rfl rfl rfl rfl rfl rfl (next.flaw e) (by simp)⟩
  | skips todo fault handled =>
    obtain ⟨c, shown, picks, under⟩ := h.under todo
    have course := under.course
    rw [todo, fault] at course
    exact .inr ⟨_, h.quiet under rfl rfl rfl rfl rfl rfl (course.skips handled) (by simp)⟩
  | shows todo fault told => exact .inr ⟨_, h.shows todo fault told⟩
  | @offers options rest receiver todo fault =>
    obtain ⟨c, shown, picks, under⟩ := h.under todo
    cases (under.phase fault).loud todo rfl with
    | offers =>
      have opened := (Command.phase_opening options receiver).course fault
      exact .inr ⟨_, h.quiet under rfl rfl rfl rfl rfl rfl opened id⟩
  | refuses requested limit todo fault =>
    obtain ⟨c, shown, picks, under⟩ := h.under todo
    cases (under.phase fault).loud todo rfl with
    | offers options =>
      exact .inr ⟨_, h.quiet under rfl rfl rfl rfl rfl rfl (.lost (fun _ => rfl) (by simp)) (by simp)⟩
  | @hears receiver options rest index todo fault =>
    obtain ⟨c, shown, picks, under⟩ := h.under todo
    cases (under.phase fault).loud todo rfl with
    | «open» =>
      have picked : Phase (.choice options) ([.resync] ++ [.chosen index options]) true true :=
        .picked options index (by simp [Act.isDocile, Act.isAside, Act.catches])
      exact .inr ⟨_, h.quiet under rfl rfl rfl rfl rfl rfl (picked.course fault) id⟩
  | @misses receiver options rest text todo fault =>
    obtain ⟨c, shown, picks, under⟩ := h.under todo
    cases (under.phase fault).loud todo rfl with
    | «open» =>
      have lost : Course (.choice options) [] (some (.aborted text)) true false :=
        .lost (by simp [Command.isChoice, Command.opcode]) (by simp)
      exact .inr ⟨_, h.quiet under rfl rfl rfl rfl rfl rfl lost (by simp)⟩
  | chooses todo fault => exact .inr ⟨_, h.chooses todo fault⟩
  | holds todo fault =>
    obtain ⟨c, shown, picks, under⟩ := h.under todo
    cases (under.phase fault).loud todo rfl with
    | asks predicate otherwise =>
      exact .inr ⟨_, h.heard _ under rfl rfl ((Phase.spent _).course fault)⟩
  | turns todo fault =>
    obtain ⟨c, shown, picks, under⟩ := h.under todo
    cases (under.phase fault).loud todo rfl with
    | asks predicate otherwise =>
      exact .inr ⟨_, h.heard _ under rfl rfl ((Phase.fallsBack _ _).course fault)⟩
  | switches label todo fault =>
    obtain ⟨c, shown, picks, under⟩ := h.under todo
    cases (under.phase fault).loud todo rfl with
    | selects selector =>
      exact .inr ⟨_, h.heard _ under rfl rfl ((Phase.selected _ _).course fault)⟩
  | @unheard a rest kind index todo fault asks =>
    obtain ⟨c, shown, picks, under⟩ := h.under todo
    cases (under.phase fault).loud todo (Act.isAside_of_asks asks) with
    | asks | selects | calls =>
      exact .inr ⟨_, h.heard _ under rfl rfl (.lost (fun _ => rfl) (by simp))⟩
    | _ => cases asks
  | jumps todo fault found =>
    obtain ⟨c, shown, picks, under⟩ := h.under todo
    cases (under.phase fault).loud todo rfl <;>
      exact .inr ⟨_, h.quiet under rfl rfl rfl rfl rfl rfl ((Phase.spent _).course fault) id⟩
  | strays todo fault lost =>
    obtain ⟨c, shown, picks, under⟩ := h.under todo
    cases (under.phase fault).loud todo rfl <;>
      exact .inr ⟨_, h.quiet under rfl rfl rfl rfl rfl rfl (.lost (fun _ => rfl) (by simp)) id⟩
  | @calls action rest p' todo fault touched =>
    have h' := h.touches touched
    obtain ⟨c, shown, picks, under⟩ := h'.under todo
    cases (under.phase fault).loud todo rfl with
    | calls => exact .inr ⟨_, h'.heard _ under rfl rfl ((Phase.spent _).course fault)⟩

theorem Sound.plays (h : p.Sound) (plays : Plays l p p') : p'.Sound := by
  cases plays with
  | @breaks q text touched =>
    have sound : q.Sound := h.touches touched
    exact sound
  | @calls action rest q todo fault touched =>
    have sound : q.Sound := h.touches touched
    exact sound
  | _ => exact h

theorem Staged.turn (h : p.Staged) (sound : p.Sound) (turn : Turn p p') : p'.Staged ∧ p'.Sound := by
  cases turn with
  | rests touched =>
    refine ⟨?_, sound.touches touched⟩
    cases h with
    | idle h => exact .idle (h.touches touched)
    | playing l h => exact .playing l (h.touches touched)
  | @plays l leads plays =>
    refine ⟨?_, sound.plays plays⟩
    cases h with
    | idle h =>
      rw [h.leads] at leads
      cases leads
    | playing l' h =>
      obtain rfl : l' = l := (List.cons.inj (h.leads.symm.trans leads)).1
      rcases h.plays plays with idle | ⟨l'', playing⟩
      · exact .idle idle
      · exact .playing l'' playing

theorem Staged.step (h : p.Staged) (sound : p.Sound) (step : Step p p') :
    p'.Staged ∧ p'.Sound := by
  cases step with
  | turn turn => exact h.turn sound turn
  | starts idle found done nonempty =>
    have labels := Program.labels_of_preprocess done (sound _ _ found)
    exact ⟨.playing _ (playing_starts p _ labels), sound.starts found done⟩

end Plot

/-! ### Every world a host can come to -/

namespace World

/-- What holds of a world between the beats of a performance. -/
structure InOrder (w : World) : Prop where
  crewed : w.Crewed
  actor : w.actor = none
  staged : w.plot.Staged
  sound : w.plot.Sound

theorem inOrder_opening (o : Opening) : o.world.InOrder where
  crewed := ⟨by simp [crew, fibers, Opening.world, new], by simp [crew, fibers, Opening.world, new],
    by simp [crew, fibers, Opening.world, new], by simp [Opening.world, new]⟩
  actor := rfl
  staged := .idle ⟨rfl, rfl, rfl, rfl, rfl, rfl, by simp [plot, Opening.world, new],
    by simp [plot, Opening.world, new]⟩
  sound := by
    intro n q found resolved
    have found : (o.scripts.map Program.ofCommands)[n]? = some q := by
      simpa [plot, Opening.world] using found
    rw [List.getElem?_map] at found
    obtain ⟨commands, -, rfl⟩ := Option.map_eq_some_iff.mp found
    cases resolved

theorem InOrder.beat {w w' : World} (h : w.InOrder) (beat : Beat w w') : w'.InOrder := by
  obtain ⟨step, crewed, actor⟩ := beat.step h.crewed h.actor h.staged.attended
  obtain ⟨staged, sound⟩ := h.staged.step h.sound step
  exact ⟨crewed, actor, staged, sound⟩

theorem InOrder.step {w w' : World} (h : w.InOrder) (beat : Beat w w') :
    Plot.Step w.plot w'.plot := (beat.step h.crewed h.actor h.staged.attended).1

/-- Acts that are not beside the script are those of its run. -/
theorem InOrder.run_of_act {w : World} {f : Fiber} {rest : List Fiber} {a : Act} (order : w.InOrder)
    (ready : w.ready = f :: rest) (member : a ∈ f.todo) (told : a.isAside = false) :
    ∃ r, f.role = .run r := by
  rw [← f.isRun_iff]
  by_contra background
  have dutiful : f.Dutiful := order.crewed.dutiful f.calm (calm_mem_crew ready)
  rw [Role.isAside_of_allows (dutiful (by simpa using background) a member)] at told
  cases told

/-- What every beat keeps, a performance keeps. -/
theorem InOrder.along {P : World → Prop} {w w' : World} (h : w.InOrder) (beats : Beats w w')
    (start : P w) (step : ∀ {x x' : World}, x.InOrder → Beat x x' → P x → P x') :
    w'.InOrder ∧ P w' := by
  induction beats with
  | refl => exact ⟨h, start⟩
  | tail _ beat ih =>
    obtain ⟨order, kept⟩ := ih
    exact ⟨order.beat beat, step order beat kept⟩

theorem InOrder.beats {w w' : World} (h : w.InOrder) (beats : Beats w w') : w'.InOrder :=
  (h.along beats trivial fun _ _ _ => trivial).1

theorem inOrder_after (o : Opening) (ms : List Move) : (o.world.after ms).InOrder :=
  (inOrder_opening o).beats (beats_after o.world ms)

end World

end SceneScript
