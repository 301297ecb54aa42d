import SceneScript.Proofs.Phase
import SceneScript.Proofs.Walk
/-!
Where a run is on the walk over its script: at most one question or jump behind it.
-/

namespace SceneScript

namespace Command

def question? : Command → Option Act
  | branch predicate otherwise => some (.branch predicate otherwise)
  | switch selector => some (.switch selector)
  | action index => some (.action index)
  | _ => none

theorem said_of_branch {predicate : Nat} {otherwise label : String} {said : List Reply}
    (h : ∀ more, (branch predicate otherwise).turnout (said ++ more) = .jump label more) :
    said = [.holds false] := by
  have turned := h []
  rw [List.append_nil] at turned
  unfold turnout at turned
  split at turned <;> simp_all

theorem turnout_eq_next {c : Command} (h : c.isPlain = true ∨ ∃ options, c = choice options)
    (replies : List Reply) : c.turnout replies = .next replies := by
  rcases h with plain | ⟨options, rfl⟩
  · cases c <;> first | rfl | cases plain
  · rfl

end Command

/-- Acts that take the script somewhere. -/
def Act.isRoute : Act → Bool
  | .branch .. | .switch _ | .goto _ | .action _ => true
  | _ => false

/-- A question may leave a jump behind. -/
def Act.weight : Act → Nat
  | .branch .. | .switch _ | .action _ => 2
  | _ => 1

theorem Act.weight_pos (a : Act) : 0 < a.weight := by
  cases a <;> simp [weight]

def Lead.weight (l : Lead) : Nat := l.todo.foldr (fun a n => a.weight + n) 0

theorem Lead.weight_lt {l l' : Lead} {a : Act} (todo : l.todo = a :: l'.todo) :
    l'.weight < l.weight := by
  have positive := a.weight_pos
  simp only [weight, todo, List.foldr_cons]
  omega

theorem Act.isRoute_of_isAside {a : Act} (h : a.isAside = true) : a.isRoute = false := by
  cases a <;> simp_all [isAside, isRoute]

theorem Act.not_isInstant_of_raises {a : Act} {e : Failure} (h : a.raises e = true) :
    a.isInstant = false := by
  cases a <;> simp_all [raises, isInstant]

theorem Act.not_isInstant_of_suspends {a : Act} (h : a.suspends = true) : a.isInstant = false := by
  cases a <;> simp_all [suspends, isInstant]

theorem Act.isRoute_of_asks {a : Act} {x : CallbackKind × Nat} (h : a.asks? = some x) :
    a.isRoute = true ∧ ∀ label, a ≠ .goto label := by
  cases a <;> simp_all [asks?, isRoute]

theorem Act.eq_nil_of_isInstant {a : Act} {new : List Act} (leaves : ∀ b ∈ new, a.Leaves b)
    (instant : a.isInstant = true) : new = [] := by
  refine List.eq_nil_iff_forall_not_mem.mpr fun b hb => ?_
  have lasting := (leaves b hb).not_isInstant
  rw [instant] at lasting
  cases lasting

/-- The last command visited is one that the script may have to wait in. -/
def InBlock (visited : List Command) : Prop := ∃ c, visited.getLast? = some c ∧ c.blocks = true

/-- Only a predicate that does not hold makes a branch fail for want of a label. -/
def Founded (visited : List Command) (replies : List Reply) (e : Failure) : Prop :=
  ∀ label predicate otherwise, e = .unknownLabel label →
    visited.getLast? = some (.branch predicate otherwise) → replies.getLast? = some (.holds false)

/-- Where the fiber of a run is on the walk over its script. -/
inductive Track (commands visited : List Command) (replies : List Reply) (l : Lead) : Prop where
  | abreast {place : Nat} : Reaches commands replies visited place →
      l.run.pointer = rank commands place → (∀ a ∈ l.todo, a.isRoute = false) →
      (InBlock visited ∨ l.fault = none ∧ ∀ a ∈ l.todo, a.isInstant = true) →
      Track commands visited replies l
  | asks {place : Nat} {before : List Command} {c : Command} {a : Act} :
      Reaches commands replies before place → commands[place]? = some c → c.isLabel = false →
      visited = before ++ [c] → l.run.pointer = rank commands place + 1 → c.question? = some a →
      l.todo = [a] → l.fault = none → Track commands visited replies l
  | jumps {place : Nat} {before : List Command} {c : Command} {heard said : List Reply}
      {label : String} : Reaches commands heard before place → commands[place]? = some c →
      c.isLabel = false → visited = before ++ [c] → replies = heard ++ said →
      (∀ more, c.turnout (said ++ more) = .jump label more) →
      l.todo = [.goto label] → l.fault = none → Track commands visited replies l
  | failed {e : Failure} : Ends commands replies visited (.failed e) → Founded visited replies e →
      l.todo = [] → l.fault = some e → Track commands visited replies l

/-- The outcome of a run agrees with the walk over its script. -/
def Agrees (commands visited : List Command) (replies : List Reply) : Outcome → Prop
  | .completed => Ends commands replies visited .completed
  | .failed e => Ends commands replies visited (.failed e) ∧ Founded visited replies e ∨
      InBlock visited ∧ Visits commands replies visited
  | .cancelled | .panicked _ => Visits commands replies visited

namespace Track

variable {commands visited : List Command} {replies : List Reply} {l : Lead} {a : Act}
  {rest : List Act}

theorem visits (h : Track commands visited replies l) : Visits commands replies visited := by
  cases h with
  | abreast reached => exact reached.visits
  | @asks place before c a reached found runs last =>
    have next : Visits commands (replies ++ []) (before ++ [c]) := reached.visits_next found runs
    rwa [List.append_nil, ← last] at next
  | jumps reached found runs last heard =>
    rw [last, heard]
    exact reached.visits_next found runs
  | failed ends => exact ends.visits

theorem abreast_of_todo (h : Track commands visited replies l) (todo : l.todo = a :: rest)
    (stays : a.isRoute = false ∨ l.fault ≠ none) :
    ∃ place, Reaches commands replies visited place ∧ l.run.pointer = rank commands place ∧
      (∀ b ∈ rest, b.isRoute = false) ∧
      (InBlock visited ∨ l.fault = none ∧ ∀ b ∈ a :: rest, b.isInstant = true) := by
  cases h with
  | abreast reached pointer routes calm =>
    rw [todo] at routes calm
    exact ⟨_, reached, pointer, fun b hb => routes b (List.mem_cons_of_mem _ hb), calm⟩
  | @asks place before c a' reached found runs last pointer question todo' fault =>
    rw [todo] at todo'
    obtain ⟨rfl, -⟩ := List.cons.inj todo'
    have route : a.isRoute = true := by
      cases c <;> cases question <;> rfl
    rcases stays with stays | stays
    · rw [stays] at route
      cases route
    · exact absurd fault stays
  | jumps _ _ _ _ _ _ todo' fault =>
    rw [todo] at todo'
    obtain ⟨rfl, -⟩ := List.cons.inj todo'
    rcases stays with stays | stays
    · cases stays
    · exact absurd fault stays
  | failed _ _ todo' =>
    rw [todo] at todo'
    cases todo'

theorem inBlock (h : Track commands visited replies l) (todo : l.todo = a :: rest)
    (lasting : a.isRoute = false ∧ a.isInstant = false ∨ l.fault ≠ none) : InBlock visited := by
  obtain ⟨-, -, -, -, calm⟩ := h.abreast_of_todo todo (lasting.imp_left And.left)
  refine calm.resolve_right fun fine => ?_
  rcases lasting with ⟨-, lasting⟩ | flawed
  · rw [fine.2 a List.mem_cons_self] at lasting
    cases lasting
  · exact flawed fine.1

theorem lasts (h : Track commands visited replies l) (todo : l.todo = a :: rest)
    (lasting : a.isRoute = false ∧ a.isInstant = false ∨ l.fault ≠ none) {new : List Act}
    (routes : ∀ b ∈ new, b.isRoute = false) (fault : Option Failure) :
    Track commands visited replies { l with todo := new ++ rest, fault } := by
  obtain ⟨place, reached, pointer, routes', -⟩ :=
    h.abreast_of_todo todo (lasting.imp_left And.left)
  refine .abreast reached pointer (fun b hb => ?_) (.inl (h.inBlock todo lasting))
  rcases List.mem_append.mp hb with hb | hb
  · exact routes b hb
  · exact routes' b hb

theorem abreast_of_nil (h : Track commands visited replies l) (todo : l.todo = [])
    (fault : l.fault = none) :
    ∃ place, Reaches commands replies visited place ∧ l.run.pointer = rank commands place ∧
      (running commands)[l.run.pointer]? = commands[place]? ∧ Runs commands place := by
  cases h with
  | abreast reached pointer =>
    obtain ⟨place, reached, same, runs⟩ := reached.passes
    rw [pointer, ← same]
    exact ⟨place, reached, rfl, running_rank runs, runs⟩
  | asks _ _ _ _ _ _ todo' | jumps _ _ _ _ _ _ todo' =>
    rw [todo] at todo'
    cases todo'
  | failed _ _ _ fault' =>
    rw [fault] at fault'
    cases fault'

theorem enters {c : Command} (h : Track commands visited replies l) (todo : l.todo = [])
    (fault : l.fault = none) (found : (running commands)[l.run.pointer]? = some c)
    (settings : Settings) (page : Page) :
    Track commands (visited ++ [c]) replies
      { l with run := { l.run with pointer := l.run.pointer + 1, page },
               todo := c.acts settings l.run.page } := by
  obtain ⟨place, reached, pointer, same, runs⟩ := h.abreast_of_nil todo fault
  have found' : commands[place]? = some c := same ▸ found
  have label := runs c found'
  have pointer' : l.run.pointer + 1 = rank commands (place + 1) := by
    rw [pointer, rank_succ found', label]
    rfl
  have next (leads : c.isPlain = true ∨ ∃ options, c = .choice options) :
      Reaches commands replies (visited ++ [c]) (place + 1) := by
    have reached' : Reaches commands (replies ++ []) (visited ++ [c]) (place + 1) :=
      reached.next found' label (Command.turnout_eq_next leads)
    rwa [List.append_nil] at reached'
  by_cases plain : c.isPlain = true
  · refine .abreast (next (.inl plain)) pointer' (fun a ha => ?_) ?_
    · exact Act.isRoute_of_isAside ((Command.plain_acts settings l.run.page plain).aside a ha)
    · cases blocks : c.blocks with
      | true => exact .inl ⟨c, List.getLast?_concat, blocks⟩
      | false =>
        exact .inr ⟨fault, (Command.plain_acts settings l.run.page plain).instant blocks⟩
  cases c with
  | choice options =>
    refine .abreast (next (.inr ⟨options, rfl⟩)) pointer' ?_ (.inl ⟨_, List.getLast?_concat, rfl⟩)
    simp [Command.acts, Act.isRoute]
  | branch | switch | action =>
    exact .asks reached found' label rfl (congrArg (· + 1) pointer) rfl rfl fault
  | goto name =>
    exact .jumps reached found' label rfl (List.append_nil _).symm (fun _ => rfl) rfl fault
  | _ => exact absurd rfl plain

theorem resolve (h : Track commands visited replies l) {label : String}
    (todo : l.todo = .goto label :: rest) :
    l.fault = none ∧ rest = [] ∧
      match labelPlace? commands label with
      | some place => Reaches commands replies visited place
      | none => Ends commands replies visited (.failed (.unknownLabel label)) ∧
        Founded visited replies (.unknownLabel label) := by
  cases h with
  | abreast _ _ routes =>
    rw [todo] at routes
    cases routes _ List.mem_cons_self
  | @asks _ _ c _ _ _ _ _ _ asks todo' =>
    rw [todo] at todo'
    obtain ⟨rfl, -⟩ := List.cons.inj todo'
    cases c <;> cases asks
  | @jumps place before c heard said label' reached found runs last heard' turns todo' fault =>
    rw [todo] at todo'
    obtain ⟨same, rfl⟩ := List.cons.inj todo'
    cases same
    refine ⟨fault, rfl, ?_⟩
    rw [last, heard']
    cases there : labelPlace? commands label with
    | some target => exact reached.jumps found runs turns there
    | none =>
      refine ⟨reached.strays found runs turns there, ?_⟩
      intro name predicate otherwise _ branch
      rw [List.getLast?_concat] at branch
      cases branch
      rw [Command.said_of_branch turns, List.getLast?_concat]
  | failed _ _ todo' =>
    rw [todo] at todo'
    cases todo'

theorem hears (h : Track commands visited replies l) (todo : l.todo = a :: rest)
    (route : a.isRoute = true) (asks : ∀ label, a ≠ .goto label) :
    ∃ place before c, c.question? = some a ∧ Reaches commands replies before place ∧
      commands[place]? = some c ∧ c.isLabel = false ∧ visited = before ++ [c] ∧
      l.run.pointer = rank commands (place + 1) ∧ rest = [] ∧ l.fault = none := by
  cases h with
  | abreast _ _ routes =>
    rw [todo] at routes
    rw [routes _ List.mem_cons_self] at route
    cases route
  | @asks place before c a' reached found runs last pointer question todo' fault =>
    rw [todo] at todo'
    obtain ⟨rfl, rfl⟩ := List.cons.inj todo'
    refine ⟨place, before, c, question, reached, found, runs, last, ?_, rfl, fault⟩
    rw [pointer, rank_succ found, runs]
    rfl
  | jumps _ _ _ _ _ _ todo' =>
    rw [todo] at todo'
    exact absurd (List.cons.inj todo').1 (asks _)
  | failed _ _ todo' =>
    rw [todo] at todo'
    cases todo'

end Track

end SceneScript
