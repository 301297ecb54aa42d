import SceneScript.Proofs.Faults
import SceneScript.Proofs.Written
/-!
Where a run stands in its last command, and what that command makes of it. A run that is neither
aborted nor breaks down ends of the cause that its last command has (`Recap.cause?`): every turn of
the run leaves it standing where the command may lead it, or ends it so (`judged_pulses`).
-/

namespace SceneScript

/-! ### Causes -/

/-- There is no such label in the script. -/
def stray? (commands : List Command) (label : String) : Option Failure :=
  if label ∈ labelNames commands then none else some (.unknownLabel label)

/-- The error of a command in a script, given what callbacks said since it was stepped to. -/
def Command.error? (commands : List Command) (limit : Nat) : Command → List Reply → Option Failure
  | goto name, _ => stray? commands name
  | branch _ otherwise, [.holds false] => stray? commands otherwise
  | switch _, [.label name] => stray? commands name
  | branch predicate _, [.unknown] => some (.unknownCallback .predicate predicate)
  | switch selector, [.unknown] => some (.unknownCallback .selector selector)
  | action index, [.unknown] => some (.unknownCallback .action index)
  | choice options, _ =>
    if limit < options.length then some (.tooManyChoices options.length limit) else none
  | _, _ => none

/-- What a fiber tells of the commands of its run. -/
inductive Word where
  | step (place : Nat)
  | reply (r : Reply)

/-- The place of the last command that was stepped to, and what callbacks said since. -/
structure Recap where
  last : Option Nat
  said : List Reply

def Deed.word? : Deed → Option Word
  | .event (.stepped place _) => some (.step place)
  | .replied r => some (.reply r)
  | _ => none

/-- What a fiber tells the host of its run. -/
def Deed.told? : Deed → Option Deed
  | .event e => if e = .countdownTimedOut then none else some (.event e)
  | .outcome run o => some (.outcome run o)
  | _ => none

/-- The run goes on after it. -/
def Deed.isPassing : Deed → Bool
  | .event (.stepped ..) | .event (.choiceMade _) => true
  | _ => false

namespace Recap

def start : Recap := ⟨none, []⟩

def heed (r : Recap) : Word → Recap
  | .step place => ⟨some place, []⟩
  | .reply said => { r with said := r.said ++ [said] }

def of (words : List Word) : Recap := words.foldl heed start

/-- The last command that was stepped to. -/
def command? (r : Recap) (commands : List Command) : Option Command :=
  r.last.bind fun place => (running commands)[place]?

def cause? (r : Recap) (commands : List Command) (limit : Nat) : Option Failure :=
  (r.command? commands).bind fun c => c.error? commands limit r.said

/-- What a run tells next when it is done with a plain command. -/
def next (r : Recap) (commands : List Command) (run : Nat) : List Deed :=
  match r.last.bind fun place => (running commands)[place + 1]? with
  | some c => [.event (.stepped ((r.last.getD 0) + 1) c.opcode)]
  | none => [.event .completed, .outcome run .completed]

theorem of_concat (words : List Word) (word : Word) : of (words ++ [word]) = (of words).heed word :=
  List.foldl_concat ..

end Recap

/-! ### Acts that may fail -/

/-- No error comes up in the act. -/
def Act.isMild : Act → Bool
  | .offer _ | .branch .. | .switch _ | .goto _ | .action _ | .load _ | .enterScene _ => false
  | _ => true

def Command.isLoad : Command → Bool
  | sceneLoad .. => true
  | _ => false

def Command.isStop : Command → Bool
  | soundStop .. => true
  | _ => false

theorem Act.Leaves.isMild {a b : Act} (h : a.Leaves b) (mild : a.isMild = true) :
    b.isMild = true := by
  cases h with
  | stays => exact mild
  | loads => cases mild
  | _ => rfl

theorem Command.isMild_acts {c : Command} (settings : Settings) (page : Page)
    (plain : c.isPlain = true) (idle : c.isLoad = false) :
    ∀ a ∈ c.acts settings page, a.isMild = true := by
  refine List.all_eq_true.mp ?_
  cases c with
  | choice | branch | switch | goto | action => cases plain
  | sceneLoad => cases idle
  | boxState opening => cases opening <;> rfl
  | image layer texture => cases texture <;> rfl
  | portrait place texture => cases texture <;> rfl
  | _ => rfl

theorem World.raised?_of_isMild {a : Act} (w : World) (r : Run) (mild : a.isMild = true) :
    w.raised? r a = none := by
  cases a <;> first | rfl | cases mild

/-- Where a command stands that may fail: what is left of it, and the error on its way. -/
inductive Standing (commands : List Command) (limit : Nat) (c : Command) (said : List Reply) :
    List Act → Option Failure → Prop where
  | mild {todo : List Act} : c.error? commands limit said = none → (∀ a ∈ todo, a.isMild = true) →
      (c.isStop = true → todo = []) → Standing commands limit c said todo none
  /-- Whatever comes up in a load is caught before the next command. -/
  | loads {pre : List Act} (scene : String) {fault : Option Failure} : c.isLoad = true →
      (∀ a ∈ pre, a.isDocile = true) →
      Standing commands limit c said (pre ++ [.loaded scene, .resync]) fault
  | hushes {channel : Channel} {span : Span} : c = .soundStop channel span →
      Standing commands limit c said [.hush channel span] none
  | asks {a : Act} : c.question? = some a → said = [] → Standing commands limit c said [a] none
  | jumps {label : String} : c.isPlain = false →
      c.error? commands limit said = stray? commands label →
      Standing commands limit c said [.goto label] none
  | offers {options : List String} : c = .choice options →
      Standing commands limit c said [.offer options] none
  | fails {e : Failure} : c.error? commands limit said = some e →
      Standing commands limit c said [] (some e)

section

variable {commands : List Command} {limit : Nat} {c : Command} {said : List Reply}

theorem Command.error?_of_isPlain (plain : c.isPlain = true) :
    c.error? commands limit said = none := by
  cases c <;> first | rfl | cases plain

theorem Command.asks_of_question {a : Act} (question : c.question? = some a) :
    a.asks?.isSome = true ∧ a.isMild = false := by
  cases c <;> cases question <;> exact ⟨rfl, rfl⟩

theorem Command.isPlain_of_isLoad (load : c.isLoad = true) : c.isPlain = true := by
  cases c <;> first | rfl | cases load

theorem standing_acts (c : Command) (settings : Settings) (page : Page) :
    Standing commands limit c [] (c.acts settings page) none := by
  by_cases plain : c.isPlain = true
  · by_cases stops : ∃ channel span, c = .soundStop channel span
    · obtain ⟨channel, span, rfl⟩ := stops
      exact .hushes rfl
    cases load : c.isLoad with
    | false =>
      refine .mild (Command.error?_of_isPlain plain) (Command.isMild_acts _ _ plain load) fun stop => ?_
      cases c with
      | soundStop channel span => exact absurd ⟨channel, span, rfl⟩ stops
      | _ => cases stop
    | true =>
      cases c with
      | sceneLoad scene color span fadeMusic =>
        let pre : List Act := [.remark (.loadingScene scene), .load ⟨scene, color, span, fadeMusic⟩]
        have docile : pre.all Act.isDocile = true := rfl
        exact .loads scene rfl (List.all_eq_true.mp docile)
      | _ => cases load
  · cases c with
    | choice options => exact .offers rfl
    | branch | switch | action => exact .asks rfl rfl
    | goto => exact .jumps rfl rfl
    | _ => exact absurd rfl plain

theorem failure?_resolve (commands : List Command) (label : String) :
    World.failure? ((Program.resolvedOf commands).resolve label) = stray? commands label := by
  rw [Program.resolve_resolvedOf, stray?]
  cases place : labelPlace? commands label with
  | none =>
    have missing : label ∉ labelNames commands := by
      intro member
      obtain ⟨c, among, named⟩ := List.mem_filterMap.mp member
      have unnamed := List.findIdx?_eq_none_iff.mp place c among
      simp [named] at unnamed
    rw [if_neg missing]
    rfl
  | some n =>
    obtain ⟨below, named, -⟩ := List.findIdx?_eq_some_iff_getElem.mp place
    have there : label ∈ labelNames commands :=
      List.mem_filterMap.mpr ⟨_, List.getElem_mem below, beq_iff_eq.mp named⟩
    rw [if_pos there]
    rfl

/-! ### Standings follow the acts -/

namespace Standing

variable {a : Act} {rest todo : List Act} {fault : Option Failure}

theorem spent (fine : c.error? commands limit said = none) :
    Standing commands limit c said [] none :=
  .mild fine (by simp) fun _ => rfl

theorem resyncs (load : c.isLoad = true) : Standing commands limit c said [.resync] none := by
  refine .mild (Command.error?_of_isPlain (Command.isPlain_of_isLoad load)) (by simp [Act.isMild]) ?_
  intro stop
  cases c with
  | sceneLoad => cases stop
  | _ => cases load

/-- An act that leaves the script alone, done without an error or with one that is caught. -/
theorem goes {new : List Act} (w : World) (r : Run)
    (h : Standing commands limit c said (a :: rest) none) (aside : a.isAside = true)
    (leaves : ∀ b ∈ new, a.Leaves b) :
    Standing commands limit c said (new ++ rest) (w.raised? r a) := by
  generalize todo' : a :: rest = todo at h
  cases h with
  | mild fine mild stops =>
    subst todo'
    rw [w.raised?_of_isMild r (mild a List.mem_cons_self)]
    refine .mild fine (fun b among => ?_) fun stop => by cases stops stop
    rcases List.mem_append.mp among with among | among
    · exact (leaves b among).isMild (mild a List.mem_cons_self)
    · exact mild b (List.mem_cons_of_mem _ among)
  | @loads pre scene _ load docile =>
    rcases pre with - | ⟨a', pre⟩
    · obtain ⟨rfl, rfl⟩ := List.cons.inj todo'
      obtain rfl := Act.eq_nil_of_isInstant leaves rfl
      exact .resyncs load
    · obtain ⟨rfl, rfl⟩ := List.cons.inj todo'
      have acts : new ++ pre.append [.loaded scene, .resync] =
          (new ++ pre) ++ [.loaded scene, .resync] := (List.append_assoc ..).symm
      rw [acts]
      exact .loads scene load (Phase.docile_append aside leaves docile)
  | hushes same =>
    obtain ⟨rfl, rfl⟩ := List.cons.inj todo'
    obtain rfl := Act.eq_nil_of_isInstant leaves rfl
    subst same
    exact .spent rfl
  | asks question =>
    obtain ⟨rfl, rfl⟩ := List.cons.inj todo'
    cases c <;> cases question <;> cases aside
  | jumps | offers =>
    obtain ⟨rfl, rfl⟩ := List.cons.inj todo'
    cases aside

/-- An act that an error skips. Nothing but a load has any. -/
theorem skips {e : Failure} (h : Standing commands limit c said (a :: rest) (some e)) :
    Standing commands limit c said rest (if a.catches then none else some e) := by
  generalize todo' : a :: rest = todo at h
  cases h with
  | @loads pre scene _ load docile =>
    rcases pre with - | ⟨a', pre⟩
    · obtain ⟨rfl, rfl⟩ := List.cons.inj todo'
      exact .resyncs load
    · obtain ⟨rfl, rfl⟩ := List.cons.inj todo'
      exact .loads scene load fun b among => docile b (List.mem_cons_of_mem _ among)
  | fails => cases todo'

/-- A standing whose first act is not beside the script. -/
inductive Loud (commands : List Command) (limit : Nat) (c : Command) (said : List Reply) :
    Act → List Act → Prop where
  | mild {a : Act} {rest : List Act} : c.error? commands limit said = none → a.isMild = true →
      (∀ b ∈ rest, b.isMild = true) → c.isStop = false → Loud commands limit c said a rest
  | asks {a : Act} : c.question? = some a → said = [] → Loud commands limit c said a []
  | jumps {label : String} : c.isPlain = false →
      c.error? commands limit said = stray? commands label →
      Loud commands limit c said (.goto label) []
  | offers {options : List String} : c = .choice options →
      Loud commands limit c said (.offer options) []

theorem loud (h : Standing commands limit c said (a :: rest) none) (told : a.isAside = false) :
    Loud commands limit c said a rest := by
  generalize todo' : a :: rest = todo at h
  cases h with
  | mild fine mild stops =>
    subst todo'
    exact .mild fine (mild a List.mem_cons_self) (fun b among => mild b (List.mem_cons_of_mem _ among))
      (Bool.eq_false_iff.mpr fun stop => by cases stops stop)
  | @loads pre scene _ load docile =>
    rcases pre with - | ⟨a', pre⟩
    · obtain ⟨rfl, rfl⟩ := List.cons.inj todo'
      cases told
    · obtain ⟨rfl, rfl⟩ := List.cons.inj todo'
      rw [Act.isAside_of_isDocile (docile _ List.mem_cons_self)] at told
      cases told
  | hushes =>
    obtain ⟨rfl, rfl⟩ := List.cons.inj todo'
    cases told
  | asks question none =>
    obtain ⟨rfl, rfl⟩ := List.cons.inj todo'
    exact .asks question none
  | jumps winding cause =>
    obtain ⟨rfl, rfl⟩ := List.cons.inj todo'
    exact .jumps winding cause
  | offers same =>
    obtain ⟨rfl, rfl⟩ := List.cons.inj todo'
    exact .offers same

/-- A command that is done has failed for its cause, or has none. -/
theorem of_nil (h : Standing commands limit c said [] fault) :
    c.error? commands limit said = fault := by
  generalize todo' : [] = todo at h
  cases h with
  | mild fine => exact fine
  | loads => simp at todo'
  | fails cause => exact cause
  | _ => cases todo'

/-! #### What callbacks give back -/

theorem holds {predicate : Nat} {otherwise : String}
    (question : c.question? = some (.branch predicate otherwise)) :
    Standing commands limit c [.holds true] [] none := by
  cases c <;> cases question
  exact .spent rfl

theorem turns {predicate : Nat} {otherwise : String}
    (question : c.question? = some (.branch predicate otherwise)) :
    Standing commands limit c [.holds false] [.goto otherwise] none := by
  cases c <;> cases question
  exact .jumps rfl rfl

theorem switches {selector : Nat} (label : String)
    (question : c.question? = some (.switch selector)) :
    Standing commands limit c [.label label] [.goto label] none := by
  cases c <;> cases question
  exact .jumps rfl rfl

theorem calls {index : Nat} (question : c.question? = some (.action index)) :
    Standing commands limit c [.done] [] none := by
  cases c <;> cases question
  exact .spent rfl

theorem unheard {kind : CallbackKind} {index : Nat} (question : c.question? = some a)
    (asks : a.asks? = some (kind, index)) :
    Standing commands limit c [.unknown] [] (some (.unknownCallback kind index)) := by
  cases c <;> cases question <;> cases asks <;> exact .fails rfl

end Standing

end

/-! ### A run and its cause -/

/-- Where a run stands: at its start, or in the last command that it stepped to. -/
inductive Stands (commands : List Command) (limit : Nat) (r : Recap) (l : Lead) : Prop where
  | fresh : r = .start → l.todo = [] → l.fault = none → Stands commands limit r l
  | command {place : Nat} {c : Command} : r.last = some place →
      (running commands)[place]? = some c → (c.isPlain = true → l.run.pointer = place + 1) →
      Standing commands limit c r.said l.todo l.fault → Stands commands limit r l

/-- The run of `l` is under way in the script. -/
structure Underway (commands : List Command) (limit : Nat) (p : Plot) (l : Lead) : Prop where
  leads : p.leads = [l]
  program : l.run.program = Program.resolvedOf commands
  told : ∀ d ∈ tale Deed.told? l.id p.story, d.isPassing = true
  stands : Stands commands limit (.of (tale Deed.word? l.id p.story)) l

/-- The outcome of a run is the one that its last command causes. -/
def Verdict (commands : List Command) (limit : Nat) (r : Recap) : Outcome → Prop
  | .completed => r.cause? commands limit = none ∧ ∀ c, r.command? commands = some c →
      c.isPlain = true → (r.last.bind fun place => (running commands)[place + 1]?) = none
  | .failed e => r.cause? commands limit = some e
  | .cancelled | .panicked _ => True

structure Ended (commands : List Command) (limit id run : Nat) (p : Plot) (o : Outcome) : Prop where
  gone : ∀ l ∈ p.leads, l.id ≠ id
  below : id < p.fibers
  told : ∃ init : List Deed, tale Deed.told? id p.story =
    init ++ [.event o.event, .outcome run o] ∧ ∀ d ∈ init, d.isPassing = true
  verdict : Verdict commands limit (.of (tale Deed.word? id p.story)) o

section

variable {commands : List Command} {limit : Nat} {r : Recap} {p p' : Plot} {l l' : Lead} {a : Act}
  {rest : List Act}

theorem Stands.of_cons (h : Stands commands limit r l) (todo : l.todo = a :: rest) :
    ∃ place c, r.last = some place ∧ (running commands)[place]? = some c ∧
      (c.isPlain = true → l.run.pointer = place + 1) ∧
      Standing commands limit c r.said (a :: rest) l.fault := by
  cases h with
  | fresh _ none =>
    rw [todo] at none
    cases none
  | command last found pointer standing => exact ⟨_, _, last, found, pointer, todo ▸ standing⟩

/-- A run with a cause to fail does not wait. -/
theorem Stands.suspends_not {e : Failure} (h : Stands commands limit r l) (todo : l.todo = a :: rest)
    (fault : l.fault = none) (cause : r.cause? commands limit = some e) : a.suspends = false := by
  obtain ⟨place, c, last, found, -, standing⟩ := h.of_cons todo
  have cause : c.error? commands limit r.said = some e := by
    simpa [Recap.cause?, Recap.command?, last, found] using cause
  rw [fault] at standing
  generalize todo' : a :: rest = acts at standing
  cases standing with
  | mild fine =>
    rw [fine] at cause
    cases cause
  | loads _ load =>
    rw [Command.error?_of_isPlain (Command.isPlain_of_isLoad load)] at cause
    cases cause
  | asks question =>
    cases todo'
    cases c <;> cases question <;> rfl
  | hushes | jumps | offers =>
    cases todo'
    rfl

theorem Stands.verdict_fails {e : Failure} (h : Stands commands limit r l) (todo : l.todo = [])
    (fault : l.fault = some e) : r.cause? commands limit = some e := by
  cases h with
  | fresh _ _ fine =>
    rw [fault] at fine
    cases fine
  | command last found _ standing =>
    rw [todo, fault] at standing
    simp [Recap.cause?, Recap.command?, last, found, standing.of_nil]

theorem Stands.verdict_completes (h : Stands commands limit r l) (todo : l.todo = [])
    (fault : l.fault = none) (past : (running commands)[l.run.pointer]? = none) :
    Verdict commands limit r .completed := by
  cases h with
  | fresh none =>
    subst none
    exact ⟨rfl, fun c found => by cases found⟩
  | command last found pointer standing =>
    rw [todo, fault] at standing
    refine ⟨by simp [Recap.cause?, Recap.command?, last, found, standing.of_nil], ?_⟩
    intro c found' plain
    obtain rfl : _ = c := Option.some.inj <| by simpa [Recap.command?, last, found] using found'
    rw [last, Option.bind_some, ← pointer plain]
    exact past

namespace Underway

variable (h : Underway commands limit p l)
include h

theorem touches (touched : Plot.Touches p p') : Underway commands limit p' l where
  leads := touched.leads.trans h.leads
  program := h.program
  told := by
    rw [tale_touches touched fun _ => rfl]
    exact h.told
  stands := by
    rw [tale_touches touched fun _ => rfl]
    exact h.stands

theorem ends {o : Outcome} (below : l.id < p.fibers)
    (verdict : Verdict commands limit (.of (tale Deed.word? l.id p.story)) o) :
    Ended commands limit l.id l.run.number (p.ends l o) o where
  gone := by simp [Plot.ends, Plot.quiet, Plot.add]
  below := below
  told := by
    refine ⟨_, ?_, h.told⟩
    rw [tale_ends p l o fun _ => rfl]
    cases o <;> rfl
  verdict := by
    rw [tale_ends p l o fun _ => rfl]
    have silent : (Deed.event o.event).word? = none := by cases o <;> rfl
    rw [silent]
    simpa [Deed.word?] using verdict

theorem moves (leads : p'.leads = [l']) (id : l'.id = l.id)
    (program : l'.run.program = l.run.program) (story : p'.story = p.story)
    (stands : Stands commands limit (.of (tale Deed.word? l.id p.story)) l') :
    Underway commands limit p' l' := by
  refine ⟨leads, program.trans h.program, ?_, ?_⟩
  · rw [id, story]
    exact h.told
  · rw [id, story]
    exact stands

theorem tells {d : Deed} (id : l'.id = l.id) (program : l'.run.program = l.run.program)
    (passing : ∀ d' ∈ d.told?, d'.isPassing = true)
    (stands : Stands commands limit (.of (tale Deed.word? l.id p.story ++ d.word?.toList)) l') :
    Underway commands limit ((p.tell l d).lead l') l' := by
  refine ⟨rfl, program.trans h.program, fun d' among => ?_, ?_⟩
  · rw [id, tale_tell] at among
    rcases List.mem_append.mp among with among | among
    · exact h.told d' among
    · exact passing d' (Option.mem_toList.mp among)
  · rw [id, tale_tell]
    exact stands

omit h in
theorem enters {c : Command} {settings : Settings} {page : Page}
    (h : Underway commands limit p l) (found : (running commands)[l.run.pointer]? = some c)
    (fault : l.fault = none) : Underway commands limit (p.enters l c settings page)
      { l with run := { l.run with pointer := l.run.pointer + 1, page },
               todo := c.acts settings l.run.page } := by
  have passing : ∀ d ∈ (Deed.event (.stepped l.run.pointer c.opcode)).told?,
      d.isPassing = true := by
    simp [Deed.told?, Deed.isPassing]
  have before : Underway commands limit { p with state := p.state.enter l.run.pointer c } l :=
    ⟨h.leads, h.program, h.told, h.stands⟩
  let l' : Lead := { l with run := { l.run with pointer := l.run.pointer + 1, page },
                            todo := c.acts settings l.run.page }
  refine before.tells (rfl : l'.id = l.id) (rfl : l'.run.program = l.run.program) passing ?_
  rw [show (Deed.event (.stepped l.run.pointer c.opcode)).word?.toList = [.step l.run.pointer] from
    rfl, Recap.of_concat]
  refine .command rfl found (fun _ => rfl) ?_
  rw [show l'.fault = none from fault]
  exact standing_acts c settings l.run.page

/-! #### Acts of the script -/

section

omit h

variable (h : Underway commands limit p l) (fault : l.fault = none)
include h fault

/-- Acts of a choice, which change nothing about its cause. -/
theorem in_choice (new : List Act) (todo : l.todo = a :: rest) (told : a.isAside = false)
    (mild : a.isMild = true) (new_mild : ∀ b ∈ new, b.isMild = true) :
    Stands commands limit (.of (tale Deed.word? l.id p.story)) { l with todo := new ++ rest } := by
  obtain ⟨place, c, last, found, pointer, standing⟩ := h.stands.of_cons todo
  rw [fault] at standing
  cases standing.loud told with
  | mild fine _ others goesOn =>
    refine .command last found pointer ?_
    rw [show Lead.fault _ = none from fault]
    refine .mild fine (fun b among => ?_) fun stop => ?_
    · exact (List.mem_append.mp among).elim (new_mild b) (others b)
    · rw [goesOn] at stop
      cases stop
  | asks question =>
    rw [(Command.asks_of_question question).2] at mild
    cases mild
  | jumps | offers => cases mild

theorem shows {call : StageCall} (todo : l.todo = .stage call :: rest)
    (told : (Act.stage call).isAside = false) :
    Underway commands limit ((p.tell l (.stage call)).lead { l with todo := rest })
      { l with todo := rest } := by
  have stands := h.in_choice fault [] todo told rfl (by simp)
  refine h.tells rfl rfl (by simp [Deed.told?]) ?_
  rw [show (Deed.stage call).word?.toList = [] from rfl, List.append_nil]
  exact stands

theorem chooses {index : Nat} {options : List String}
    (todo : l.todo = .chosen index options :: rest) :
    Underway commands limit
      ((p.tell l (.event (.choiceMade index))).lead { l with todo := Act.closing ++ rest })
      { l with todo := Act.closing ++ rest } := by
  have stands := h.in_choice fault Act.closing todo rfl rfl
    (by simp [Act.closing, Command.animate, Act.isMild])
  refine h.tells rfl rfl (by simp [Deed.told?, Deed.isPassing]) ?_
  rw [show (Deed.event (.choiceMade index)).word?.toList = [] from rfl, List.append_nil]
  exact stands

/-- A choice of no more options than can be shown has no cause to fail. -/
theorem offers {options : List String} (receiver : Nat) (todo : l.todo = .offer options :: rest)
    (fits : ¬ limit < options.length) :
    Underway commands limit
      ({ p with pending := true }.lead { l with todo := Act.opening receiver options ++ rest })
      { l with todo := Act.opening receiver options ++ rest } := by
  obtain ⟨place, c, last, found, pointer, standing⟩ := h.stands.of_cons todo
  rw [fault] at standing
  refine h.moves rfl rfl rfl rfl (.command last found pointer ?_)
  rw [show Lead.fault _ = none from fault]
  cases standing.loud rfl with
  | mild _ mild => cases mild
  | asks question => cases (Command.asks_of_question question).1
  | offers same =>
    subst same
    exact .mild (if_neg fits) (by simp [Act.opening, Command.animate, Act.isMild]) nofun

theorem refuses {options : List String} (todo : l.todo = .offer options :: rest)
    (many : limit < options.length) :
    Underway commands limit
      (p.lead { l with todo := rest, fault := some (.tooManyChoices options.length limit) })
      { l with todo := rest, fault := some (.tooManyChoices options.length limit) } := by
  obtain ⟨place, c, last, found, pointer, standing⟩ := h.stands.of_cons todo
  rw [fault] at standing
  refine h.moves rfl rfl rfl rfl (.command last found pointer ?_)
  cases standing.loud rfl with
  | mild _ mild => cases mild
  | asks question => cases (Command.asks_of_question question).1
  | offers same =>
    subst same
    exact .fails (if_pos many)

/-- A callback gives back something. -/
theorem replies {said : Reply} (todo : l.todo = a :: rest) (asks : a.asks?.isSome = true)
    (id : l'.id = l.id) (program : l'.run.program = l.run.program)
    (pointer : l'.run.pointer = l.run.pointer)
    (standing : ∀ c : Command, c.question? = some a → rest = [] →
      Standing commands limit c [said] l'.todo l'.fault) :
    Underway commands limit ((p.tell l (.replied said)).lead l') l' := by
  obtain ⟨place, c, last, found, place', before⟩ := h.stands.of_cons todo
  rw [fault] at before
  have loud : a.isAside = false ∧ a.isMild = false := by
    cases a <;> first | exact ⟨rfl, rfl⟩ | cases asks
  cases before.loud loud.1 with
  | mild _ mild =>
    rw [loud.2] at mild
    cases mild
  | asks question none =>
    refine h.tells id program (by simp [Deed.told?]) ?_
    rw [show (Deed.replied said).word?.toList = [.reply said] from rfl, Recap.of_concat]
    refine .command last found (fun plain => pointer.trans (place' plain)) ?_
    rw [show (Recap.heed _ (.reply said)).said = _ ++ [said] from rfl, none]
    exact standing c question rfl
  | jumps | offers => cases asks

theorem jumps {label : String} {place : Nat} (todo : l.todo = .goto label :: rest)
    (resolved : l.run.program.resolve label = .ok place) :
    Underway commands limit
      (p.lead { l with run := { l.run with pointer := place }, todo := rest })
      { l with run := { l.run with pointer := place }, todo := rest } := by
  obtain ⟨_, c, last, found, pointer, standing⟩ := h.stands.of_cons todo
  rw [fault] at standing
  have there := failure?_resolve commands label
  rw [← h.program, resolved] at there
  cases standing.loud rfl with
  | mild _ mild => cases mild
  | asks question => cases (Command.asks_of_question question).1
  | jumps winding cause =>
    refine h.moves rfl rfl rfl rfl (.command last found (fun plain => ?_) ?_)
    · rw [winding] at plain
      cases plain
    · rw [show Lead.fault _ = none from fault]
      exact .spent (cause.trans there.symm)

theorem strays {label : String} {e : Failure} (todo : l.todo = .goto label :: rest)
    (resolved : l.run.program.resolve label = .error e) :
    Underway commands limit (p.lead { l with todo := rest, fault := some e })
      { l with todo := rest, fault := some e } := by
  obtain ⟨_, c, last, found, pointer, standing⟩ := h.stands.of_cons todo
  rw [fault] at standing
  have there := failure?_resolve commands label
  rw [← h.program, resolved] at there
  cases standing.loud rfl with
  | mild _ mild => cases mild
  | asks question => cases (Command.asks_of_question question).1
  | jumps _ cause =>
    exact h.moves rfl rfl rfl rfl (.command last found pointer (.fails (cause.trans there.symm)))

end

end Underway

end

namespace World

variable {w : World} {f : Fiber} {r : Run} {a : Act} {after : List Act} {commands : List Command}
  {p' : Plot}

theorem faultAfter_fine (todo : f.todo = a :: after) (fault : f.fault = none) :
    w.faultAfter f r = w.raised? r a := by
  simp [faultAfter, todo, fault]

theorem faultAfter_faulty {e : Failure} (todo : f.todo = a :: after) (fault : f.fault = some e) :
    w.faultAfter f r = if a.catches then none else some e := by
  simp [faultAfter, todo, fault]

end World

/-- A turn of the run leaves it under way where its command may lead it, or ends it for its cause. -/
theorem Underway.plays {w : World} {f : Fiber} {r : Run} {commands : List Command} {p' : Plot}
    (h : Underway commands w.settings.maxChoices w.plot (f.leading r)) (below : f.id < w.nextFiber)
    (plays : Plot.Plays (f.leading r) w.plot p')
    (carry : ∀ l ∈ p'.leads, l.fault = w.faultAfter f r) :
    (∃ o, Ended commands w.settings.maxChoices f.id r.number p' o) ∨
      ∃ l, Underway commands w.settings.maxChoices p' l ∧ l.id = f.id ∧ l.run.number = r.number := by
  have one {p : Plot} {l : Lead} : l ∈ (p.lead l).leads := List.mem_singleton.mpr rfl
  cases plays with
  | completes todo fault past =>
    rw [h.program] at past
    exact .inl ⟨_, h.ends below (h.stands.verdict_completes todo fault past)⟩
  | fails todo fault => exact .inl ⟨_, h.ends below (h.stands.verdict_fails todo fault)⟩
  | stops => exact .inl ⟨_, h.ends below trivial⟩
  | breaks text touched =>
    exact .inl ⟨_, (h.touches touched).ends (Nat.lt_of_lt_of_le below touched.fibers) trivial⟩
  | @fetches c settings page todo fault found =>
    rw [h.program] at found
    exact .inr ⟨_, h.enters found fault, rfl, rfl⟩
  | goes todo fault aside leaves =>
    obtain ⟨place, c, last, found, pointer, standing⟩ := h.stands.of_cons todo
    rw [fault] at standing
    have raised := (carry _ one).trans (World.faultAfter_fine todo fault)
    have standing' := standing.goes w r aside leaves
    rw [← raised] at standing'
    exact .inr ⟨_, h.moves rfl rfl rfl rfl (.command last found pointer standing'), rfl, rfl⟩
  | skips todo fault =>
    obtain ⟨place, c, last, found, pointer, standing⟩ := h.stands.of_cons todo
    rw [fault] at standing
    have caught := (carry _ one).trans (World.faultAfter_faulty todo fault)
    have standing' := standing.skips
    rw [← caught] at standing'
    exact .inr ⟨_, h.moves rfl rfl rfl rfl (.command last found pointer standing'), rfl, rfl⟩
  | shows todo fault told => exact .inr ⟨_, h.shows fault todo told, rfl, rfl⟩
  | @offers options rest receiver todo fault =>
    have fine : w.overfull? options = none :=
      ((carry _ one).trans (World.faultAfter_fine todo fault)).symm.trans fault
    have fits : ¬ w.settings.maxChoices < options.length := by
      intro many
      rw [World.overfull?, if_pos many] at fine
      cases fine
    exact .inr ⟨_, h.offers fault receiver todo fits, rfl, rfl⟩
  | @refuses options rest requested most todo fault =>
    have raised : some (.tooManyChoices requested most) = w.overfull? options :=
      (carry _ one).trans (World.faultAfter_fine todo fault)
    unfold World.overfull? at raised
    split at raised
    · cases raised
      exact .inr ⟨_, h.refuses fault todo ‹_›, rfl, rfl⟩
    · cases raised
  | @hears receiver options rest index todo fault =>
    have stands := h.in_choice fault [.resync, .chosen index options] todo rfl rfl
      (by simp [Act.isMild])
    exact .inr ⟨_, h.moves rfl rfl rfl rfl stands, rfl, rfl⟩
  | misses text todo fault => cases (carry _ one).trans (World.faultAfter_fine todo fault)
  | chooses todo fault => exact .inr ⟨_, h.chooses fault todo, rfl, rfl⟩
  | holds todo fault =>
    refine .inr ⟨_, h.replies fault todo rfl rfl rfl rfl fun c question last => ?_, rfl, rfl⟩
    rw [show Lead.fault _ = none from fault, last]
    exact .holds question
  | turns todo fault =>
    refine .inr ⟨_, h.replies fault todo rfl rfl rfl rfl fun c question last => ?_, rfl, rfl⟩
    rw [show Lead.fault _ = none from fault, last]
    exact .turns question
  | switches label todo fault =>
    refine .inr ⟨_, h.replies fault todo rfl rfl rfl rfl fun c question last => ?_, rfl, rfl⟩
    rw [show Lead.fault _ = none from fault, last]
    exact .switches label question
  | unheard todo fault asks =>
    refine .inr ⟨_, h.replies fault todo (by simp [asks]) rfl rfl rfl fun c question last => ?_,
      rfl, rfl⟩
    rw [last]
    exact .unheard question asks
  | jumps todo fault resolved => exact .inr ⟨_, h.jumps fault todo resolved, rfl, rfl⟩
  | strays todo fault resolved => exact .inr ⟨_, h.strays fault todo resolved, rfl, rfl⟩
  | calls todo fault touched =>
    refine .inr ⟨_, (h.touches touched).replies fault todo rfl rfl rfl rfl
      fun c question last => ?_, rfl, rfl⟩
    rw [show Lead.fault _ = none from fault, last]
    exact .calls question

/-! ### Pulse by pulse -/

/-- The run of the fiber `id` is under way, or has ended for its cause. -/
inductive Judged (commands : List Command) (limit id run : Nat) (p : Plot) : Prop where
  | underway (l : Lead) : Underway commands limit p l → l.id = id → l.run.number = run →
      Judged commands limit id run p
  | ended (o : Outcome) : Ended commands limit id run p o → Judged commands limit id run p

section

variable {commands : List Command} {limit id run : Nat} {p p' : Plot} {l : Lead} {o : Outcome}

theorem Ended.along (h : Ended commands limit id run p o) (gone : ∀ l ∈ p'.leads, l.id ≠ id)
    (fibers : p.fibers ≤ p'.fibers)
    (same : ∀ {α : Type} {g : Deed → Option α}, (∀ n, g (.note n) = none) →
      tale g id p'.story = tale g id p.story) : Ended commands limit id run p' o := by
  refine ⟨gone, Nat.lt_of_lt_of_le h.below fibers, ?_, ?_⟩
  · rw [same fun _ => rfl]
    exact h.told
  · rw [same fun _ => rfl]
    exact h.verdict

theorem Ended.touches (h : Ended commands limit id run p o) (touched : Plot.Touches p p') :
    Ended commands limit id run p' o :=
  h.along (touched.leads ▸ h.gone) touched.fibers fun silent => tale_touches touched silent

theorem Ended.within (h : Ended commands limit id run p o) (other : l.id ≠ id)
    (within : Plot.Within l p p') : Ended commands limit id run p' o :=
  h.along (fun l' member => within.leads l' member ▸ other) within.fibers
    fun silent => within.tale other silent

theorem Ended.starts {n : Nat} {q : Program} (h : Ended commands limit id run p o) :
    Ended commands limit id run (p.starts n q) o := by
  have young : p.fibers ≠ id := Nat.ne_of_gt h.below
  exact h.along (by simpa [Plot.starts] using young) (Nat.le_succ _) fun _ => tale_starts p n q

theorem judged_starts {n : Nat} (numbered : p.Numbered) :
    Judged commands limit p.fibers p.runs (p.starts n (.resolvedOf commands)) := by
  have young {α : Type} {g : Deed → Option α} (silent : ∀ n, g (.note n) = none) :
      tale g p.fibers (p.starts n (.resolvedOf commands)).story = [] :=
    (tale_starts p n _).trans (numbered.tale_young silent)
  refine .underway ⟨p.fibers, ⟨p.runs, .resolvedOf commands, 0, .empty⟩, [], none⟩
    ⟨rfl, rfl, ?_, ?_⟩ rfl rfl
  · rw [young fun _ => rfl]
    simp
  · rw [young fun _ => rfl]
    exact .fresh rfl rfl rfl

end

namespace World

variable {w : World} {p : Pulse} {commands : List Command} {id run : Nat}

theorem judged_acted (h : Judged commands w.settings.maxChoices id run w.plot) (order : w.InOrder)
    (numbered : w.plot.Numbered) (acted : Acted w p) :
    Judged commands w.settings.maxChoices id run (w.pulse p).plot := by
  cases h with
  | underway l under same number =>
    cases acted with
    | beside touched => exact .underway l (under.touches touched) same number
    | starts _ idle =>
      -- No other run starts while this one is under way.
      have busy := order.staged.attended.2.mpr (by simp [under.leads])
      rw [show w.plot.state.executing = false from idle] at busy
      cases busy
    | @plays f rest r turn ready role plays carry =>
      obtain rfl : f.leading r = l := by
        have leads := leads_taken order.staged.attended ready role
        exact (List.cons.inj (leads.symm.trans under.leads)).1
      have below : f.id < w.nextFiber := numbered.leads (f.leading r) (by simp [under.leads])
      subst same number
      rcases under.plays below plays carry with ⟨o, ended⟩ | ⟨l', under', id, number⟩
      · exact .ended o ended
      · exact .underway l' under' id number
  | ended o ended =>
    cases acted with
    | beside touched => exact .ended o (ended.touches touched)
    | starts _ _ _ _ _ plot =>
      rw [plot]
      exact .ended o ended.starts
    | @plays f rest r turn ready role plays carry =>
      have leads := leads_taken order.staged.attended ready role
      exact .ended o (ended.within (ended.gone _ (by rw [leads]; exact List.mem_singleton.mpr rfl))
        plays.within)

theorem settings_pulses (o : Opening) (ps : List Pulse) : (o.world.pulses ps).settings = o.settings :=
  (inPlay_opening o).induction (P := fun _ w => w.settings = o.settings) rfl
    (fun _ p play same => (settings_pulse play p).trans same) ps

theorem scripted_pulses (o : Opening) (ps : List Pulse) :
    (o.world.pulses ps).plot.Numbered ∧ Revised o.world.programs (o.world.pulses ps).programs := by
  refine (inPlay_opening o).induction
    (P := fun _ w => w.plot.Numbered ∧ Revised o.world.programs w.programs) (numbered_after o [])
    (fun ps p play kept => ?_) ps
  have step := play.order.step (beat_pulse _ p)
  exact ⟨kept.1.step step, kept.2.trans step.revised⟩

/-- The run that is accepted is judged by its cause at every pulse that follows. -/
theorem judged_pulses (o : Opening) (before after : List Pulse) {n : Nat}
    (script : o.scripts[n]? = some commands)
    (accepted : ((o.world.pulses before).apply (.execute n)).2 = .number run) :
    Judged commands o.settings.maxChoices (o.world.pulses before).nextFiber run
      (o.world.pulses (before ++ .host (.execute n) rfl :: after)).plot := by
  have began : Judged commands o.settings.maxChoices (o.world.pulses before).nextFiber run
      (o.world.pulses (before ++ [.host (.execute n) rfl])).plot := by
    obtain ⟨numbered, revised⟩ := scripted_pulses o before
    have order := (inPlay_pulses o before).order
    rw [pulses_concat]
    generalize o.world.pulses before = w at accepted numbered revised order
    rcases execute_cases_plot w n order.actor order.staged.attended with
      ⟨e, result, -⟩ | ⟨q, q', -, found, done, -, result, plot⟩
    · rw [result] at accepted
      cases accepted
    obtain rfl : w.runs = run := by
      rw [result] at accepted
      cases accepted
      rfl
    obtain rfl : q' = Program.resolvedOf commands :=
      (Program.of_preprocess rfl (script_of_revised revised script found done)).2
    rw [show (w.pulse (.host (.execute n) rfl)).plot = _ from plot]
    exact judged_starts numbered
  induction after using List.reverseRecOn with
  | nil => exact began
  | append_singleton after p ih =>
    have along : before ++ .host (.execute n) rfl :: (after ++ [p]) =
        (before ++ .host (.execute n) rfl :: after) ++ [p] := by simp
    rw [along, pulses_concat]
    generalize before ++ .host (.execute n) rfl :: after = ps at ih ⊢
    rw [← settings_pulses o ps] at ih ⊢
    exact judged_acted ih (inPlay_pulses o ps).order (scripted_pulses o ps).1 (acted o ps p)

end World

end SceneScript
