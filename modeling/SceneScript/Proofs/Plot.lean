import SceneScript.Proofs.Turn
/-!
A performance as its script sees it: where the run stands, what its fiber still has to do, and the
part of the chronicle that tells of runs. `Plot.Step` lists everything that can become of it.
-/

namespace SceneScript

/-- The fiber of a run, without its places in the frame feed. -/
structure Lead where
  id : Nat
  run : Run
  todo : List Act
  fault : Option Failure

def Fiber.lead? (f : Fiber) : Option Lead :=
  match f.role with
  | .run r => some ⟨f.id, r, f.todo, f.fault⟩
  | _ => none

def Outcome.event : Outcome → Event
  | .completed => .completed
  | .failed e => .aborted e
  | .cancelled | .panicked _ => .aborted World.cancellation

namespace Act

def opening (receiver : Nat) (options : List String) : List Act :=
  [.stage (.setCursorVisible true), .stage (.showChoices options)] ++
    Command.animate .choiceBoxOpen ++ [.answer receiver options]

def closing : List Act :=
  Command.animate .choiceBoxClose ++ [.stage .hideChoices, .stage (.setCursorVisible false)]

def asks? : Act → Option (CallbackKind × Nat)
  | .branch predicate _ => some (.predicate, predicate)
  | .switch selector => some (.selector, selector)
  | .action index => some (.action, index)
  | _ => none

end Act

/-- Programs may have been resolved in the meantime, nothing else. -/
def Revised (programs programs' : Array Program) : Prop :=
  ∀ (n : Nat) (q' : Program), programs'[n]? = some q' →
    ∃ q : Program, programs[n]? = some q ∧ (q' = q ∨ q.preprocess = .ok q')

structure Plot where
  state : Execution
  pending : Bool
  programs : Array Program
  runs : Nat
  fibers : Nat
  leads : List Lead
  /-- The part of the chronicle that tells of runs. -/
  story : List Entry

namespace Plot

/-- What the host, callbacks and other fibers can do while the run goes nowhere. -/
structure Touches (p p' : Plot) : Prop where
  state : ∃ chosen, p'.state = { p.state with chosen }
  pending : p.pending = false → p'.pending = false
  programs : Revised p.programs p'.programs
  runs : p'.runs = p.runs
  fibers : p.fibers ≤ p'.fibers
  leads : p'.leads = p.leads
  story : ∃ notes : List Entry, p'.story = p.story ++ notes ∧ ∀ e ∈ notes, ∃ n, e.deed = .note n

def lead (p : Plot) (l : Lead) : Plot := { p with leads := [l] }

def add (p : Plot) (es : List Entry) : Plot := { p with story := p.story ++ es }

def tell (p : Plot) (l : Lead) (d : Deed) : Plot := p.add [⟨some l.id, d⟩]

def quiet (p : Plot) : Plot := { p with state := p.state.reset, pending := false, leads := [] }

def starts (p : Plot) (n : Nat) (q : Program) : Plot where
  state := p.state.begin p.runs
  pending := p.pending
  programs := p.programs.setIfInBounds n q
  runs := p.runs + 1
  fibers := p.fibers + 1
  leads := [⟨p.fibers, ⟨p.runs, q, 0, .empty⟩, [], none⟩]
  story := p.story ++ [⟨none, .stage (.setInputBlocked true)⟩,
    ⟨none, .stage (.setCursorVisible false)⟩, ⟨none, .event (.started p.runs)⟩]

def ends (p : Plot) (l : Lead) (o : Outcome) : Plot :=
  p.quiet.add [⟨some l.id, .stage (.setInputBlocked false)⟩,
    ⟨some l.id, .stage (.setCursorVisible true)⟩, ⟨some l.id, .event o.event⟩,
    ⟨some l.id, .outcome l.run.number o⟩]

def enters (p : Plot) (l : Lead) (c : Command) (settings : Settings) (page : Page) : Plot :=
  ({ p with state := p.state.enter l.run.pointer c }.tell l
    (.event (.stepped l.run.pointer c.opcode))).lead
      { l with run := { l.run with pointer := l.run.pointer + 1, page },
               todo := c.acts settings l.run.page }

/-- What a turn of the run's fiber makes of the plot. -/
inductive Plays (l : Lead) (p : Plot) : Plot → Prop where
  | completes : l.todo = [] → l.fault = none → l.run.program.commands[l.run.pointer]? = none →
      Plays l p (p.ends l .completed)
  | fails {e : Failure} : l.todo = [] → l.fault = some e → Plays l p (p.ends l (.failed e))
  | stops : Plays l p (p.ends l .cancelled)
  | breaks {p' : Plot} (text : String) : Touches p p' → l.todo ≠ [] →
      Plays l p (p'.ends l (.panicked text))
  | fetches {c : Command} (settings : Settings) (page : Page) : l.todo = [] → l.fault = none →
      l.run.program.commands[l.run.pointer]? = some c → Plays l p (p.enters l c settings page)
  | goes {a : Act} {rest new : List Act} {fault : Option Failure} {n : Nat} : l.todo = a :: rest →
      l.fault = none → a.isAside = true → (∀ b ∈ new, a.Leaves b) →
      (fault = none ∨ ∃ e, fault = some e ∧ a.raises e = true) → p.fibers ≤ n →
      Plays l p ({ p with fibers := n }.lead { l with todo := new ++ rest, fault })
  | skips {a : Act} {rest : List Act} {e : Failure} {fault : Option Failure} {n : Nat} :
      l.todo = a :: rest → l.fault = some e → (fault = some e ∨ a.catches = true ∧ fault = none) →
      p.fibers ≤ n → Plays l p ({ p with fibers := n }.lead { l with todo := rest, fault })
  | shows {call : StageCall} {rest : List Act} : l.todo = .stage call :: rest → l.fault = none →
      (Act.stage call).isAside = false →
      Plays l p ((p.tell l (.stage call)).lead { l with todo := rest })
  | offers {options : List String} {rest : List Act} (receiver : Nat) :
      l.todo = .offer options :: rest → l.fault = none →
      Plays l p ({ p with pending := true }.lead
        { l with todo := Act.opening receiver options ++ rest })
  | refuses {options : List String} {rest : List Act} (requested limit : Nat) :
      l.todo = .offer options :: rest → l.fault = none →
      Plays l p (p.lead { l with todo := rest, fault := some (.tooManyChoices requested limit) })
  | hears {receiver : Nat} {options : List String} {rest : List Act} (index : Nat) :
      l.todo = .answer receiver options :: rest → l.fault = none →
      Plays l p (p.lead { l with todo := .resync :: .chosen index options :: rest })
  | misses {receiver : Nat} {options : List String} {rest : List Act} (text : String) :
      l.todo = .answer receiver options :: rest → l.fault = none →
      Plays l p (p.lead { l with todo := rest, fault := some (.aborted text) })
  | chooses {index : Nat} {options : List String} {rest : List Act} :
      l.todo = .chosen index options :: rest → l.fault = none →
      Plays l p ((p.tell l (.event (.choiceMade index))).lead { l with todo := Act.closing ++ rest })
  | holds {predicate : Nat} {otherwise : String} {rest : List Act} :
      l.todo = .branch predicate otherwise :: rest → l.fault = none →
      Plays l p ((p.tell l (.replied (.holds true))).lead { l with todo := rest })
  | turns {predicate : Nat} {otherwise : String} {rest : List Act} :
      l.todo = .branch predicate otherwise :: rest → l.fault = none →
      Plays l p ((p.tell l (.replied (.holds false))).lead { l with todo := .goto otherwise :: rest })
  | switches {selector : Nat} {rest : List Act} (label : String) :
      l.todo = .switch selector :: rest → l.fault = none →
      Plays l p ((p.tell l (.replied (.label label))).lead { l with todo := .goto label :: rest })
  | unheard {a : Act} {rest : List Act} {kind : CallbackKind} {index : Nat} : l.todo = a :: rest →
      l.fault = none → a.asks? = some (kind, index) →
      Plays l p ((p.tell l (.replied .unknown)).lead
        { l with todo := rest, fault := some (.unknownCallback kind index) })
  | jumps {label : String} {rest : List Act} {place : Nat} : l.todo = .goto label :: rest →
      l.fault = none → l.run.program.resolve label = .ok place →
      Plays l p (p.lead { l with run := { l.run with pointer := place }, todo := rest })
  | strays {label : String} {rest : List Act} {e : Failure} : l.todo = .goto label :: rest →
      l.fault = none → l.run.program.resolve label = .error e →
      Plays l p (p.lead { l with todo := rest, fault := some e })
  | calls {action : Nat} {rest : List Act} {p' : Plot} : l.todo = .action action :: rest →
      l.fault = none → Touches p p' →
      Plays l p ((p'.tell l (.replied .done)).lead { l with todo := rest })

inductive Turn : Plot → Plot → Prop where
  | rests {p p' : Plot} : Touches p p' → Turn p p'
  | plays {p p' : Plot} {l : Lead} : p.leads = [l] → Plays l p p' → Turn p p'

inductive Step : Plot → Plot → Prop where
  | turn {p p' : Plot} : Turn p p' → Step p p'
  | starts {p : Plot} {n : Nat} {q q' : Program} : p.state.executing = false →
      p.programs[n]? = some q → q.preprocess = .ok q' → q'.commands ≠ [] → Step p (p.starts n q')

/-- At most one run is under way, and the state says whether one is. -/
def Attended (p : Plot) : Prop := p.leads.length ≤ 1 ∧ (p.state.executing = true ↔ p.leads ≠ [])

@[simp] theorem add_add (p : Plot) (es es' : List Entry) :
    (p.add es).add es' = p.add (es ++ es') := by
  simp only [add, List.append_assoc]

theorem Touches.refl (p : Plot) : Touches p p where
  state := ⟨_, rfl⟩
  pending := id
  programs := fun _ q' h => ⟨q', h, .inl rfl⟩
  runs := rfl
  fibers := Nat.le_refl _
  leads := rfl
  story := ⟨[], by simp, by simp⟩

theorem Touches.lead {p p' : Plot} (h : Touches p p') (l : Lead) :
    Touches (p.lead l) (p'.lead l) :=
  { h with leads := rfl }

end Plot

/-! ### Resolved programs -/

namespace Program

theorem resolved_of_preprocess {p q : Program} (h : p.preprocess = .ok q) : q.resolved = true := by
  unfold preprocess at h
  split at h
  · rename_i done
    cases h
    exact done
  · cases hi : index p.commands 0 [] with
    | error e =>
      rw [hi] at h
      cases h
    | ok found =>
      rw [hi] at h
      cases h
      rfl

theorem preprocess_of_resolved {p : Program} (h : p.resolved = true) : p.preprocess = .ok p := by
  simp [preprocess, h]

end Program

theorem Revised.trans {a b c : Array Program} (first : Revised a b) (second : Revised b c) :
    Revised a c := by
  intro n q'' h
  obtain ⟨q', h', same | done⟩ := second n q'' h
  · exact same ▸ first n q' h'
  obtain ⟨q, hq, rfl | done'⟩ := first n q' h'
  · exact ⟨_, hq, .inr done⟩
  · refine ⟨q, hq, .inr ?_⟩
    rw [Program.preprocess_of_resolved (Program.resolved_of_preprocess done')] at done
    cases done
    exact done'

theorem revised_setIfInBounds {programs : Array Program} {n : Nat} {q' : Program}
    (h : ∀ q, programs[n]? = some q → q' = q ∨ q.preprocess = .ok q') :
    Revised programs (programs.setIfInBounds n q') := by
  intro m r hr
  rw [Array.getElem?_setIfInBounds] at hr
  split at hr
  · rename_i same
    subst same
    split at hr
    · rename_i bound
      cases hr
      exact ⟨_, Array.getElem?_eq_getElem bound, h _ (Array.getElem?_eq_getElem bound)⟩
    · cases hr
  · exact ⟨r, hr, .inl rfl⟩

theorem Plot.Touches.trans {p p' p'' : Plot} (first : Touches p p') (second : Touches p' p'') :
    Touches p p'' where
  state := by
    obtain ⟨chosen, h⟩ := first.state
    obtain ⟨chosen', h'⟩ := second.state
    exact ⟨chosen', by rw [h', h]⟩
  pending := second.pending ∘ first.pending
  programs := first.programs.trans second.programs
  runs := second.runs.trans first.runs
  fibers := Nat.le_trans first.fibers second.fibers
  leads := second.leads.trans first.leads
  story := by
    obtain ⟨notes, h, hn⟩ := first.story
    obtain ⟨notes', h', hn'⟩ := second.story
    refine ⟨notes ++ notes', by rw [h', h, List.append_assoc], ?_⟩
    intro e he
    exact (List.mem_append.mp he).elim (hn e) (hn' e)

/-! ### The plot of a world -/

namespace World

def leads (w : World) : List Lead := w.fibers.filterMap Fiber.lead?

def story (w : World) : List Entry := w.entries.filter fun e => !e.deed.isIdle

theorem filterMap_story {α : Type} (g : Entry → Option α)
    (silent : ∀ e, e.deed.isIdle = true → g e = none) (w : World) :
    w.story.filterMap g = w.entries.filterMap g := by
  unfold story
  induction w.entries with
  | nil => rfl
  | cons e es ih =>
    rw [List.filterMap_cons, List.filter_cons]
    cases idle : e.deed.isIdle with
    | true => simp [silent e idle, ih]
    | false => simp [ih, List.filterMap_cons]

def plot (w : World) : Plot where
  state := w.state
  pending := w.slot.isPending
  programs := w.programs
  runs := w.runs
  fibers := w.nextFiber
  leads := w.leads
  story := w.story

variable {run : Prop} {w w' : World} {f : Fiber}

@[simp] theorem lead?_calm (f : Fiber) : f.calm.lead? = f.lead? := rfl

theorem lead?_of_isRun_eq_false (h : f.isRun = false) : f.lead? = none := by
  unfold Fiber.lead?
  split
  · rename_i r role
    exact absurd role ((Fiber.isRun_eq_false_iff f).mp h r)
  · rfl

theorem lead?_of_role {r : Run} (h : f.role = .run r) :
    f.lead? = some ⟨f.id, r, f.todo, f.fault⟩ := by
  simp [Fiber.lead?, h]

theorem lead?_eq_some {l : Lead} (h : f.lead? = some l) :
    f.role = .run l.run ∧ l = ⟨f.id, l.run, f.todo, f.fault⟩ := by
  unfold Fiber.lead? at h
  split at h
  · rename_i r role
    cases h
    exact ⟨role, rfl⟩
  · cases h

theorem exists_of_mem_leads {l : Lead} (h : l ∈ w.leads) :
    ∃ f ∈ w.fibers, f.role = .run l.run ∧ l = ⟨f.id, l.run, f.todo, f.fault⟩ := by
  obtain ⟨f, member, lead⟩ := List.mem_filterMap.mp h
  exact ⟨f, member, lead?_eq_some lead⟩

theorem leads_eq_crew (w : World) : w.leads = w.crew.filterMap Fiber.lead? := by
  rw [crew, List.filterMap_map]
  rfl

theorem Keeps.leads (h : Keeps True w w') : w'.leads.Perm w.leads := by
  obtain ⟨new, perm, -, joined⟩ := h.crew
  have none : new.filterMap Fiber.lead? = [] := by
    rw [List.filterMap_eq_nil_iff]
    exact fun f hf => lead?_of_isRun_eq_false ((joined f hf).background trivial)
  rw [leads_eq_crew, leads_eq_crew]
  have := perm.filterMap Fiber.lead?
  rwa [List.filterMap_append, none, List.append_nil] at this

theorem Keeps.story (h : Keeps True w w') : w'.story = w.story := by
  obtain ⟨es, heq, hes⟩ := h.entries
  have none : es.filter (fun e => !e.deed.isIdle) = [] := by
    rw [List.filter_eq_nil_iff]
    exact fun e he => by simp [(hes e he).2 trivial]
  rw [World.story, heq, List.filter_append, none, List.append_nil]
  rfl

theorem Keeps.plot (h : Keeps True w w') (alone : w.leads.length ≤ 1) :
    w'.plot = { w.plot with fibers := w'.nextFiber } := by
  obtain ⟨state, slot, programs, runs⟩ := h.script trivial
  have leads : w'.leads = w.leads := by
    have perm := h.leads
    match hl : w.leads, alone with
    | [], _ => exact List.perm_nil.mp (hl ▸ perm)
    | [l], _ => exact List.perm_singleton.mp (hl ▸ perm)
  simp only [World.plot, state, slot, programs, runs, leads, h.story]

theorem Keeps.touches (h : Keeps True w w') (alone : w.leads.length ≤ 1) :
    Plot.Touches w.plot w'.plot := by
  rw [h.plot alone]
  exact { Plot.Touches.refl w.plot with fibers := h.nextFiber }

theorem plot_resume {r : Run} (h : f.role = .run r) (alone : w.leads = []) :
    (w.resume f).plot = w.plot.lead ⟨f.id, r, f.todo, f.fault⟩ := by
  have leads : (w.resume f).leads = [⟨f.id, r, f.todo, f.fault⟩] := by
    show (f :: w.fibers).filterMap Fiber.lead? = _
    rw [List.filterMap_cons, lead?_of_role h]
    exact congrArg _ alone
  simp only [plot, leads]
  rfl

theorem plot_resume_background (h : f.isRun = false) : (w.resume f).plot = w.plot := by
  have leads : (w.resume f).leads = w.leads := by
    show (f :: w.fibers).filterMap Fiber.lead? = _
    rw [List.filterMap_cons, lead?_of_isRun_eq_false h]
    rfl
  simp only [plot, leads]
  rfl

theorem leads_park (w : World) (wait : Wait) (f : Fiber) :
    (w.park wait f).leads = w.leads ++ f.lead?.toList := by
  simp only [leads, fibers, park, List.map_append, List.map_cons, List.map_nil, List.filterMap_append,
    List.append_assoc]
  cases hf : f.lead? <;> simp [hf]

theorem plot_park {r : Run} (wait : Wait) (h : f.role = .run r) (alone : w.leads = []) :
    (w.park wait f).plot = w.plot.lead ⟨f.id, r, f.todo, f.fault⟩ := by
  have leads := leads_park w wait f
  rw [alone, lead?_of_role h] at leads
  simp only [plot, leads]
  rfl

theorem plot_park_background (wait : Wait) (h : f.isRun = false) :
    (w.park wait f).plot = w.plot := by
  have leads := leads_park w wait f
  rw [lead?_of_isRun_eq_false h, Option.toList_none, List.append_nil] at leads
  simp only [plot, leads]
  rfl

theorem plot_record (w : World) {d : Deed} (told : d.isIdle = false) :
    (w.record d).plot = w.plot.add [⟨w.actor, d⟩] := by
  have story : (w.record d).story = w.story ++ [⟨w.actor, d⟩] := by
    simp [World.story, entries, record, told]
  simp only [plot, story]
  rfl

theorem plot_record_idle (w : World) {d : Deed} (idle : d.isIdle = true) :
    (w.record d).plot = w.plot := by
  have story : (w.record d).story = w.story := by
    simp [World.story, entries, record, idle]
  simp only [plot, story]
  rfl

@[simp] theorem plot_remark (w : World) (r : Remark) : (w.remark r).plot = w.plot :=
  plot_record_idle w rfl

end World

end SceneScript
