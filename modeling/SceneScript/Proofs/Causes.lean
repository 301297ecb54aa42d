import SceneScript.Proofs.Standing
/-!
Why runs fail. The last command that a run stepped to, and what callbacks said in it, decide whether
it fails and of what: a run that is neither aborted nor breaks down fails exactly of that cause
(`runs_fail_for_cause`). A scene that cannot be loaded and a sound that cannot be stopped are no
causes; the run goes on with the next command.
-/

namespace SceneScript

namespace World

variable {w : World} {commands : List Command} {id run : Nat}

/-! ### What a fiber told -/

/-- What a fiber told the host of its run, in order. -/
def told (w : World) (id : Nat) : List Deed := tale Deed.told? id w.entries

def recap (w : World) (id : Nat) : Recap := .of (tale Deed.word? id w.entries)

theorem told_eq (w : World) (id : Nat) : w.told id = tale Deed.told? id w.plot.story := by
  refine tale_entries _ (fun d idle => ?_) w id
  cases d with
  | event e =>
    obtain rfl : e = .countdownTimedOut := by simpa [Deed.isIdle] using idle
    rfl
  | outcome => cases idle
  | _ => rfl

theorem recap_eq (w : World) (id : Nat) :
    w.recap id = .of (tale Deed.word? id w.plot.story) := by
  refine congrArg Recap.of (tale_entries _ (fun d idle => ?_) w id)
  cases d with
  | event e =>
    obtain rfl : e = .countdownTimedOut := by simpa [Deed.isIdle] using idle
    rfl
  | replied => cases idle
  | _ => rfl

theorem outcomes_told (w : World) (id : Nat) :
    w.outcomes id = (w.told id).filterMap Deed.outcome? := by
  rw [outcomes, told, tale, tale, List.filterMap_filterMap]
  refine List.filterMap_congr fun e _ => ?_
  split
  · cases e.deed with
    | event e =>
      show none = Option.bind (if e = .countdownTimedOut then none else some (Deed.event e)) _
      split <;> rfl
    | _ => rfl
  · rfl

theorem outcomes_of_passing {ds : List Deed} (passing : ∀ d ∈ ds, d.isPassing = true) :
    ds.filterMap Deed.outcome? = [] := by
  refine List.filterMap_eq_nil_iff.mpr fun d among => ?_
  have passes := passing d among
  cases d <;> first | rfl | cases passes

/-! ### Turns of the run's fiber -/

variable {f : Fiber} {r : Run} {rest : List Fiber} {a : Act} {after : List Act} {e : Failure}

/-- The fiber has told nothing and is next again, with these acts to do and this error on its way. -/
def Again (w : World) (f : Fiber) (x : World) (todo : List Act) (fault : Option Failure) : Prop :=
  ∃ f' rest, x.ready = f' :: rest ∧ x.story = w.story ∧ f'.id = f.id ∧ f'.role = f.role ∧
    f'.doomed = false ∧ f'.todo = todo ∧ f'.fault = fault

section

variable (ready : w.ready = f :: rest)
include ready

theorem again_of_resume {w₁ : World} {f' : Fiber} (kept : Keeps True (w.taken f rest) w₁)
    (advance : (w.taken f rest).advance f = w₁.resume f') (id : f'.id = f.id)
    (role' : f'.role = f.role) (spared' : f'.doomed = false) :
    Again w f w.turn f'.todo f'.fault := by
  refine ⟨f', w₁.ready, ?_, ?_, id, role', spared', rfl, rfl⟩
  · rw [turn_cons ready, advance]
    rfl
  · rw [turn_cons ready, advance]
    exact kept.story

variable (role : f.role = .run r) (spared : f.doomed = false)
include role spared

theorem turn_skips (todo : f.todo = a :: after) (fault : f.fault = some e) :
    Again w f w.turn after (if a.catches then none else some e) := by
  have going : (w.taken f rest).isCancelled f = false := by rw [isCancelled, role]
  have advance := advance_unwind spared going todo fault
  cases a with
  | release =>
    have again := again_of_resume ready (keeps_release _) advance rfl rfl spared
    exact fault ▸ again
  | loaded =>
    exact again_of_resume ready (keeps_remark _ _) advance rfl rfl spared
  | silence channel =>
    exact again_of_resume ready ((keeps_remark _ _).trans (keeps_silence _ _)) advance
      rfl rfl spared
  | _ =>
    have again := again_of_resume ready (.refl _) advance rfl rfl spared
    exact fault ▸ again

theorem turn_hushes {channel : Channel} {span : Span} (todo : f.todo = .hush channel span :: after)
    (fault : f.fault = none) : Again w f w.turn after none := by
  have going : (w.taken f rest).isCancelled f = false := by rw [isCancelled, role]
  have advance := advance_perform spared going todo fault
  obtain ⟨w₁, kept, resumes⟩ : ∃ w₁, Keeps True (w.taken f rest) w₁ ∧
      (w.taken f rest).performHush { f with todo := after } channel span =
        w₁.resume { f with todo := after } := by
    have kept : Keeps True (w.taken f rest) ((w.taken f rest).fadeOut channel span).1 :=
      keeps_fadeOut _ channel span
    unfold performHush
    split
    · rename_i w₁ faded
      rw [faded] at kept
      exact ⟨_, kept, rfl⟩
    · rename_i w₁ e faded
      rw [faded] at kept
      exact ⟨_, kept.trans (keeps_remark _ _), rfl⟩
  have again := again_of_resume ready kept (advance.trans resumes) rfl rfl spared
  exact fault ▸ again

theorem turn_resyncs (todo : f.todo = .resync :: after) (fault : f.fault = none) :
    Again w f w.turn after none := by
  have going : (w.taken f rest).isCancelled f = false := by rw [isCancelled, role]
  have advance := advance_perform spared going todo fault
  have again := again_of_resume ready (.refl _) advance rfl rfl spared
  exact fault ▸ again

theorem turn_strays {label : String} (todo : f.todo = .goto label :: after) (fault : f.fault = none)
    (lost : r.program.resolve label = .error e) : Again w f w.turn after (some e) := by
  have going : (w.taken f rest).isCancelled f = false := by rw [isCancelled, role]
  have advance := advance_perform spared going todo fault
  have resumes : (w.taken f rest).performGoto { f with todo := after } label =
      (w.taken f rest).resume (Fiber.fail { f with todo := after } e) := by
    rw [performGoto, role]
    dsimp only
    rw [lost]
  exact again_of_resume ready (.refl _) (advance.trans resumes) rfl rfl spared

theorem turn_refuses {options : List String} (todo : f.todo = .offer options :: after)
    (fault : f.fault = none) (many : w.settings.maxChoices < options.length) :
    Again w f w.turn after (some (.tooManyChoices options.length w.settings.maxChoices)) := by
  have going : (w.taken f rest).isCancelled f = false := by rw [isCancelled, role]
  have advance := advance_perform spared going todo fault
  have resumes : (w.taken f rest).performOffer { f with todo := after } options =
      (w.taken f rest).resume (Fiber.fail { f with todo := after }
        (.tooManyChoices options.length w.settings.maxChoices)) :=
    if_pos many
  exact again_of_resume ready (.refl _) (advance.trans resumes) rfl rfl spared

theorem turn_fetch (todo : f.todo = []) (fault : f.fault = none) :
    w.turn = { (w.taken f rest).fetch f with actor := none } := by
  have going : (w.taken f rest).isCancelled f = false := by rw [isCancelled, role]
  rw [turn_cons ready, advance, if_neg (by simp [spared]), if_neg (by simp [going]), todo, fault]

variable (attended : w.plot.Attended)
include attended

theorem plot_turn_fails (todo : f.todo = []) (fault : f.fault = some e) :
    w.turn.plot = w.plot.ends (f.leading r) (.failed e) := by
  obtain ⟨alone, back, -⟩ := taken_run attended ready role
  have going : (w.taken f rest).isCancelled f = false := by rw [isCancelled, role]
  rw [← back, turn_cons ready, advance, if_neg (by simp [spared]), if_neg (by simp [going]), todo,
    fault]
  exact plot_conclude _ role alone rfl

theorem plot_turn_completes (todo : f.todo = []) (fault : f.fault = none)
    (done : r.program.commands[r.pointer]? = none) :
    w.turn.plot = w.plot.ends (f.leading r) .completed := by
  obtain ⟨alone, back, -⟩ := taken_run attended ready role
  rw [← back, turn_fetch ready role spared todo fault, fetch, role]
  dsimp only
  rw [done]
  exact plot_conclude _ role alone rfl

theorem plot_turn_enters {c : Command} (todo : f.todo = []) (fault : f.fault = none)
    (found : r.program.commands[r.pointer]? = some c) :
    ∃ page, w.turn.plot = w.plot.enters (f.leading r) c w.settings page := by
  obtain ⟨alone, back, -⟩ := taken_run attended ready role
  refine ⟨c.pageAfter w.settings r.page, ?_⟩
  rw [← back, turn_fetch ready role spared todo fault, fetch, role]
  dsimp only
  rw [found]
  have told : plot (emit (remark { w.taken f rest with state := w.state.enter r.pointer c }
      (.dispatching r.pointer c.opcode)) (.stepped r.pointer c.opcode)) =
      { (w.taken f rest).plot with state := w.state.enter r.pointer c }.tell (f.leading r)
        (.event (.stepped r.pointer c.opcode)) := by
    rw [emit, plot_record _ rfl, plot_remark]
    rfl
  refine (plot_resume rfl ((congrArg Plot.leads told).trans alone)).trans ?_
  rw [told]
  rfl

/-- A run that is done with an error on its way fails of it. -/
theorem turn_fails (todo : f.todo = []) (fault : f.fault = some e) :
    w.turn.told f.id = w.told f.id ++ [.event (.aborted e), .outcome r.number (.failed e)] := by
  rw [told_eq, told_eq, plot_turn_fails ready role spared attended todo fault]
  exact tale_ends _ (f.leading r) (.failed e) fun _ => rfl

/-- A run that is done with a command goes on with the next one, or completes. -/
theorem turn_fetches (todo : f.todo = []) (fault : f.fault = none) :
    w.turn.told f.id = w.told f.id ++ match r.program.commands[r.pointer]? with
      | some c => [.event (.stepped r.pointer c.opcode)]
      | none => [.event .completed, .outcome r.number .completed] := by
  rw [told_eq, told_eq]
  cases found : r.program.commands[r.pointer]? with
  | none =>
    rw [plot_turn_completes ready role spared attended todo fault found]
    exact tale_ends _ (f.leading r) .completed fun _ => rfl
  | some c =>
    obtain ⟨page, plot⟩ := plot_turn_enters ready role spared attended todo fault found
    rw [plot]
    exact tale_tell _ (f.leading r) _ (.event (.stepped r.pointer c.opcode))

end

/-! ### Turns in a row -/

theorem Again.told {x : World} {todo : List Act} {fault : Option Failure}
    (again : Again w f x todo fault) : x.told f.id = w.told f.id := by
  obtain ⟨-, -, -, story, -⟩ := again
  rw [told_eq, told_eq]
  exact congrArg (tale _ _) story

/-- Whatever comes up in a load is caught, and the run goes on. -/
theorem turns_load {pre : List Act} {scene : String} (docile : ∀ b ∈ pre, b.isDocile = true)
    (ready : w.ready = f :: rest) (role : f.role = .run r) (spared : f.doomed = false)
    (todo : f.todo = pre ++ [.loaded scene, .resync]) (fault : f.fault = some e) :
    ∃ k, Again w f (w.turns k) [] none := by
  induction pre generalizing w f rest with
  | nil =>
    obtain ⟨f', rest', ready', story, id, role', spared', todo', fault'⟩ :=
      turn_skips ready role spared todo fault
    obtain ⟨g, rest'', ready'', story', id', role'', spared'', todo'', fault''⟩ :=
      turn_resyncs ready' (role'.trans role) spared' todo' fault'
    refine ⟨2, g, rest'', ?_, ?_, id'.trans id, role''.trans role', spared'', todo'', fault''⟩
    · rw [turns_succ, turns_succ]
      exact ready''
    · rw [turns_succ, turns_succ]
      exact story'.trans story
  | cons a pre ih =>
    obtain ⟨f', rest', ready', story, id, role', spared', todo', fault'⟩ :=
      turn_skips ready role spared todo fault
    rw [Act.not_catches_of_isDocile (docile a List.mem_cons_self)] at fault'
    obtain ⟨k, g, rest'', ready'', story', id', role'', spared'', todo'', fault''⟩ :=
      ih (fun b among => docile b (List.mem_cons_of_mem _ among)) ready' (role'.trans role) spared'
        todo' fault'
    refine ⟨k + 1, g, rest'', ?_, ?_, id'.trans id, role''.trans role', spared'', todo'', fault''⟩
    · rw [turns_succ]
      exact ready''
    · rw [turns_succ]
      exact story'.trans story

theorem turns_concat (w : World) (k : Nat) : w.turns (k + 1) = (w.turns k).turn := by
  rw [turns_add, turns_succ]
  rfl

/-- A run that is next again with an error on its way and nothing left to do fails of it. -/
theorem Again.fails {k : Nat} (play : w.InPlay) (role : f.role = .run r)
    (again : Again w f (w.turns k) [] (some e)) :
    (w.turns (k + 1)).told f.id = w.told f.id ++ [.event (.aborted e), .outcome r.number (.failed e)] := by
  have same := again.told
  obtain ⟨f', rest', ready', -, id, role', spared', todo', fault'⟩ := again
  have fails := turn_fails ready' (role'.trans role) spared' (play.turns k).order.staged.attended todo'
    fault'
  rw [turns_concat, ← id, fails, id, same]

/-- The run's fiber stands at the head of the queue, and was not told to stop. -/
structure Heads (w : World) (id : Nat) (l : Lead) : Prop where
  here : ∃ f rest, w.ready = f :: rest ∧ f.doomed = false ∧ f.id = id ∧ f.role = .run l.run ∧
    f.todo = l.todo ∧ f.fault = l.fault

theorem heads_of_lead {l : Lead} (order : w.InOrder) (leads : w.leads = [l])
    (ready : w.ready = f :: rest) (id : f.id = l.id) (spared : f.doomed = false) :
    w.Heads l.id l := by
  have among : l ∈ w.leads := by rw [leads]; exact List.mem_singleton.mpr rfl
  have lead := order.crewed.lead among (by simp [fibers, ready]) id
  obtain ⟨role, same⟩ := lead?_eq_some lead
  refine ⟨f, rest, ready, spared, id, role, ?_, ?_⟩
  · rw [same]
  · rw [same]

variable {l : Lead}

/-- A run whose last command has a cause to fail is about to fail of it. -/
theorem fails_at_head (play : w.InPlay)
    (under : Underway commands w.settings.maxChoices w.plot l)
    (cause : (w.recap l.id).cause? commands w.settings.maxChoices = some e)
    (heads : w.Heads l.id l) : ∃ k, (w.turns k).told l.id =
      w.told l.id ++ [.event (.aborted e), .outcome l.run.number (.failed e)] := by
  obtain ⟨f, rest, ready, spared, id, role, todo, fault⟩ := heads.here
  have last : ∀ {e'}, f.todo = [] → f.fault = some e' → ∃ k, (w.turns k).told l.id =
      w.told l.id ++ [.event (.aborted e'), .outcome l.run.number (.failed e')] := by
    intro e' todo fault
    refine ⟨1, ?_⟩
    rw [← id, turns_concat]
    exact turn_fails ready role spared play.order.staged.attended todo fault
  have next : ∀ {e'}, Again w f w.turn [] (some e') → ∃ k, (w.turns k).told l.id =
      w.told l.id ++ [.event (.aborted e'), .outcome l.run.number (.failed e')] := by
    intro e' again
    refine ⟨2, ?_⟩
    have again : Again w f (w.turns 1) [] (some e') := by
      rw [turns_concat]
      exact again
    rw [← id]
    exact again.fails play role
  rw [recap_eq] at cause
  cases under.stands with
  | fresh start =>
    rw [start] at cause
    cases cause
  | @command place c found there pointer standing =>
    have cause : c.error? commands w.settings.maxChoices
        (Recap.of (tale Deed.word? l.id w.plot.story)).said = some e := by
      simpa [Recap.cause?, Recap.command?, found, there] using cause
    generalize todo' : l.todo = acts at standing
    generalize fault' : l.fault = flaw at standing
    rw [todo'] at todo
    rw [fault'] at fault
    cases standing with
    | mild fine =>
      rw [fine] at cause
      cases cause
    | loads _ load =>
      rw [Command.error?_of_isPlain (Command.isPlain_of_isLoad load)] at cause
      cases cause
    | hushes same =>
      subst same
      cases cause
    | asks question none =>
      rw [none] at cause
      cases c <;> first | cases question; done | cases cause
    | jumps _ stray =>
      rw [stray, ← failure?_resolve, ← under.program] at cause
      cases resolved : l.run.program.resolve _ with
      | ok place =>
        rw [resolved] at cause
        cases cause
      | error e' =>
        rw [resolved] at cause
        cases cause
        exact next (turn_strays ready role spared todo fault resolved)
    | offers same =>
      subst same
      rw [Command.error?] at cause
      split at cause
      · cases cause
        exact next (turn_refuses ready role spared todo fault ‹_›)
      · cases cause
    | fails same =>
      rw [same] at cause
      cases cause
      exact last todo fault

/-- A load that failed and a sound that cannot be stopped do not hold the run up: it goes on with the
next command. -/
theorem passes_at_head (play : w.InPlay)
    (under : Underway commands w.settings.maxChoices w.plot l) {c : Command}
    (found : (w.recap l.id).command? commands = some c)
    (risky : c.isLoad = true ∧ l.fault.isSome = true ∨
      c.isStop = true ∧ ∃ channel span after, l.todo = .hush channel span :: after)
    (heads : w.Heads l.id l) : ∃ k, (w.turns k).told l.id =
      w.told l.id ++ (w.recap l.id).next commands l.run.number := by
  obtain ⟨f, rest, ready, spared, id, role, todo, fault⟩ := heads.here
  rw [recap_eq] at found ⊢
  cases under.stands with
  | fresh start =>
    rw [start] at found
    cases found
  | @command place c' last there pointer standing =>
    obtain rfl : c' = c := by simpa [Recap.command?, last, there] using found
    have plain : c'.isPlain = true := by
      rcases risky with ⟨load, -⟩ | ⟨stop, -⟩
      · exact Command.isPlain_of_isLoad load
      · cases c' <;> first | rfl | cases stop
    -- The error is caught, or there is none, and the fiber is next again with nothing left to do.
    have done : ∃ k, Again w f (w.turns k) [] none := by
      generalize todo' : l.todo = acts at standing
      generalize fault' : l.fault = flaw at standing
      rw [todo'] at todo risky
      rw [fault'] at fault risky
      cases standing with
      | loads scene load docile =>
        cases flaw with
        | some e => exact turns_load docile ready role spared todo fault
        | none =>
          rcases risky with ⟨-, flawed⟩ | ⟨stop, -⟩
          · cases flawed
          · cases c' <;> first | cases load; done | cases stop
      | mild _ _ stops =>
        rcases risky with ⟨-, flawed⟩ | ⟨stop, channel, span, more, hushes⟩
        · cases flawed
        · rw [stops stop] at hushes
          cases hushes
      | hushes =>
        refine ⟨1, ?_⟩
        rw [turns_concat]
        exact turn_hushes ready role spared todo fault
      | asks question =>
        cases c' <;> first | cases question; done | cases plain
      | jumps winding =>
        rw [winding] at plain
        cases plain
      | offers same =>
        subst same
        cases plain
      | fails cause =>
        rw [Command.error?_of_isPlain plain] at cause
        cases cause
    obtain ⟨k, again⟩ := done
    have same := again.told
    obtain ⟨f', rest', ready', -, id', role', spared', todo', fault'⟩ := again
    have goesOn := turn_fetches ready' (role'.trans role) spared'
      (play.turns k).order.staged.attended todo' fault'
    rw [id', same, id, pointer plain, under.program] at goesOn
    refine ⟨k + 1, ?_⟩
    rw [turns_concat, goesOn, Recap.next, last]
    rfl

/-! ### Runs that are told to stop -/

theorem plot_turn_doomed (attended : w.plot.Attended) (ready : w.ready = f :: rest)
    (role : f.role = .run r) (doomed : f.doomed = true) :
    w.turn.plot = (w.taken f rest).plot.ends (f.leading r) .cancelled := by
  obtain ⟨alone, -, -⟩ := taken_run attended ready role
  rw [turn_cons ready, advance, if_pos doomed]
  exact plot_conclude _ role alone rfl

/-- A run that is there after its turn was not told to stop. -/
theorem spared_of_mem_leads {l : Lead} (attended : w.plot.Attended) (ready : w.ready = f :: rest)
    (role : f.role = .run r) (among : l ∈ w.turn.leads) : f.doomed = false := by
  refine Bool.eq_false_iff.mpr fun doomed => ?_
  have none := congrArg Plot.leads (plot_turn_doomed attended ready role doomed)
  rw [show w.turn.leads = _ from none] at among
  simp [Plot.ends, Plot.quiet, Plot.add] at among

/-! ### Callbacks -/

end World

namespace Plot

/-- What a run that asked a callback hears, if it is still under way. -/
theorem Plays.asked {p p' : Plot} {l : Lead} {a : Act} {rest : List Act}
    {kind : CallbackKind} {index : Nat} (plays : Plays l p p') (todo : l.todo = a :: rest)
    (fault : l.fault = none) (asks : a.asks? = some (kind, index)) :
    p'.leads = [] ∧ tale Deed.reply? l.id p'.story = tale Deed.reply? l.id p.story ∨
    ∃ (said : Reply) (l' : Lead), p'.leads = [l'] ∧
      tale Deed.reply? l.id p'.story = tale Deed.reply? l.id p.story ++ [said] ∧
      (said = .unknown ↔ l'.fault ≠ none) := by
  have silent (p : Plot) (o : Outcome) :
      tale Deed.reply? l.id (p.ends l o).story = tale Deed.reply? l.id p.story := by
    rw [tale_ends p l o fun _ => rfl]
    simp [Deed.reply?]
  have told : a.isAside = false := Act.isAside_of_asks asks
  cases plays with
  | completes none | fails none | fetches _ _ none =>
    rw [todo] at none
    cases none
  | stops => exact .inl ⟨rfl, silent p _⟩
  | @breaks p₁ text touched => exact .inl ⟨rfl, (silent p₁ _).trans (tale_touches touched fun _ => rfl)⟩
  | goes todo' _ aside =>
    obtain ⟨rfl, -⟩ := List.cons.inj (todo.symm.trans todo')
    rw [told] at aside
    cases aside
  | skips _ fault' =>
    rw [fault] at fault'
    cases fault'
  | shows todo' | offers _ todo' | refuses _ _ todo' | hears _ todo' | misses _ todo' | chooses todo'
  | jumps todo' | strays todo' =>
    obtain ⟨rfl, -⟩ := List.cons.inj (todo.symm.trans todo')
    cases asks
  | holds | turns | switches => exact .inr ⟨_, _, rfl, tale_tell p l _ _, by simp [fault]⟩
  | unheard => exact .inr ⟨_, _, rfl, tale_tell p l _ _, by simp⟩
  | calls _ _ touched =>
    refine .inr ⟨.done, _, rfl, (tale_tell _ l _ _).trans ?_, by simp [fault]⟩
    rw [tale_touches touched fun _ => rfl]
    rfl

end Plot

namespace World

variable {w : World} {f : Fiber} {r : Run} {rest : List Fiber} {a : Act} {kind : CallbackKind}
  {index : Nat}

theorem raised?_of_asks (asks : a.asks? = some (kind, index)) :
    w.raised? r a = w.missing? kind index := by
  cases a <;> cases asks <;> rfl

theorem not_callPanics (missing : w.registry.resolves kind index = false)
    (asks : a.asks? = some (kind, index)) : w.callPanics a = false := by
  have unknown {α : Type} {an : Answer α} (none : an.error? kind index = w.missing? kind index) :
      an.isPanic = false := by
    rw [missing?, missing] at none
    cases an with
    | panicked => cases none
    | _ => rfl
  cases a <;> cases asks
  · exact unknown (error?_callPredicate w _)
  · exact unknown (error?_callSelector w _)
  · exact unknown (error?_callAction w _)

theorem missing?_ne_none : w.missing? kind index ≠ none ↔ w.registry.resolves kind index = false := by
  unfold missing?
  cases w.registry.resolves kind index <;> simp

/-- A run does not end in an act that cannot break down. -/
theorem leads_turn_ne_nil (order : w.InOrder) (ready : w.ready = f :: rest) (role : f.role = .run r)
    (act : w.act? = some a) (calm : w.callPanics a = false) (halts : ∀ s, a ≠ .stride s) :
    w.turn.leads ≠ [] := by
  obtain ⟨f', rest', after, ready', -, -, todo, works⟩ := turn_act order act
  obtain ⟨rfl, rfl⟩ := List.cons.inj (ready.symm.trans ready')
  have remains {f' : Fiber} {b : Backstage} (isRun : f'.isRun = f.isRun)
      (same : w.turn.backstage = b.join f') : w.turn.leads ≠ [] := by
    intro alone
    have among : f' ∈ w.turn.hands := by
      rw [show w.turn.hands = f' ::ₘ b.hands from congrArg Backstage.hands same]
      exact Multiset.mem_cons_self _ _
    rw [isRun_eq_false_of_leads alone (mem_hands.mp among)] at isRun
    rw [f.isRun_iff.mpr ⟨r, role⟩] at isRun
    cases isRun
  cases works with
  | goes f' onward _ same => exact remains onward.isRun same
  | takes f' _ _ onward _ same => exact remains onward.isRun same
  | bursts stride => exact absurd stride (halts _)
  | falls _ _ panics =>
    rw [callPanics_taken, calm] at panics
    cases panics

/-- A run hears that there is no callback exactly if there is none under the handle that it uses. -/
theorem hears_unknown_iff (o : Opening) (ps : List Pulse)
    (ready : (o.world.pulses ps).ready = f :: rest)
    (act : (o.world.pulses ps).act? = some a) (asks : a.asks? = some (kind, index)) :
    (o.world.pulses ps).turn.replies f.id = (o.world.pulses ps).replies f.id ++ [.unknown] ↔
      (o.world.pulses ps).registry.resolves kind index = false := by
  have play := inPlay_pulses o ps
  obtain ⟨h, handing⟩ := handing_pulses o ps
  generalize o.world.pulses ps = w at ready act play handing ⊢
  obtain ⟨f', rest', after, ready', spared, fault, todo, -⟩ := turn_act play.order act
  obtain ⟨rfl, rfl⟩ := List.cons.inj (ready.symm.trans ready')
  obtain ⟨r, role⟩ := play.order.run_of_act (a := a) ready (by simp [todo]) (Act.isAside_of_asks asks)
  have carry := fault_turn play handing.desk ready role
  rw [faultAfter_fine todo fault, raised?_of_asks asks] at carry
  have plays : Plot.Plays (f.leading r) w.plot w.turn.plot := by
    refine (turned_turn play.order.staged.attended ready role).1.resolve_right ?_
    rintro ⟨-, receiver, options, after', todo'⟩
    rw [todo] at todo'
    cases todo'
    cases asks
  rw [replies_eq, replies_eq, ← missing?_ne_none]
  rcases plays.asked todo fault asks with ⟨alone, same⟩ | ⟨said, l, leads, heard, unknown⟩
  · refine ⟨fun heard => ?_, fun missing => ?_⟩
    · have more : tale Deed.reply? f.id w.plot.story =
          tale Deed.reply? f.id w.plot.story ++ [.unknown] := same.symm.trans heard
      simp at more
    · refine absurd alone (leads_turn_ne_nil play.order ready role act ?_ fun s stride => ?_)
      · exact not_callPanics (missing?_ne_none.mp missing) asks
      · rw [stride] at asks
        cases asks
  · have among : l ∈ w.turn.leads := by
      rw [show w.turn.leads = [l] from leads]
      exact List.mem_singleton.mpr rfl
    rw [← carry l among, ← unknown]
    rw [show tale Deed.reply? f.id w.turn.plot.story = _ from heard]
    simp [Fiber.leading]

/-! ### Breakdowns -/

/-- Only a callback makes a run break down, as long as the time of all frames can be added up. -/
theorem panics_in_callback (o : Opening) (ps : List Pulse)
    (bounded : (o.world.pulses ps).feed.total.nanos < Span.limit) {e : Entry}
    (among : e ∈ (o.world.pulses ps).mishaps) : ∃ pre f, pre ++ [.turn] <+: ps ∧
      (o.world.pulses pre).ready.head? = some f ∧ e.author = some f.id ∧
      (o.world.pulses pre).turnPanics = true := by
  induction ps using List.reverseRecOn with
  | nil => cases among
  | append_singleton ps p ih =>
    have init : ps <+: ps ++ [p] := List.prefix_append _ _
    have play := inPlay_pulses o ps
    have bounded' : (o.world.pulses ps).feed.total.nanos < Span.limit := by
      have grows := play.grows p
      rw [← pulses_concat] at grows
      exact Nat.lt_of_le_of_lt grows.total_le bounded
    have before (old : e ∈ (o.world.pulses ps).mishaps) : ∃ pre f, pre ++ [.turn] <+: ps ++ [p] ∧
        (o.world.pulses pre).ready.head? = some f ∧ e.author = some f.id ∧
        (o.world.pulses pre).turnPanics = true := by
      obtain ⟨pre, f, here, rest⟩ := ih bounded' old
      exact ⟨pre, f, here.trans init, rest⟩
    rw [pulses_concat] at among
    by_cases turn : p = .turn
    · subst turn
      cases panics : (o.world.pulses ps).turnPanics with
      | false =>
        refine before ?_
        rw [← mishaps_turn play.order fun f rest ready run spared left => ?_]
        · exact among
        · have going : (o.world.pulses ps).isCancelled f = false := by
            obtain ⟨r, role⟩ := f.isRun_iff.mp run
            rw [isCancelled, role]
          obtain ⟨g, among, -, same⟩ := remains_turn play.order (inPace_pulses o ps) bounded' ready
            spared going left panics
          exact ⟨g, among, same.trans run⟩
      | true =>
        cases ready : (o.world.pulses ps).ready with
        | nil =>
          rw [turnPanics, act?, ready] at panics
          cases panics
        | cons f rest =>
          obtain ⟨es, grown, own⟩ := entries_turn play.order ready
          rw [mishaps, show (o.world.pulses ps).pulse .turn = (o.world.pulses ps).turn from rfl, grown,
            List.filter_append] at among
          rcases List.mem_append.mp among with old | new
          · exact before old
          · exact ⟨ps, f, List.prefix_refl _, by rw [ready]; rfl,
              own e (List.mem_filter.mp new).1, panics⟩
    · rw [mishaps_host play.order turn] at among
      exact before among

/-! ### The runs of a script -/

/-- How the end of a run, or its next steps, follow from the last command that it stepped to. -/
structure ForCause (commands : List Command) (w : World) (id run : Nat) : Prop where
  /-- The run has told of its way so far, or of its end after that. -/
  told : (∀ d ∈ w.told id, d.isPassing = true) ∧ w.outcomes id = [] ∨
    ∃ init o, w.told id = init ++ [.event o.event, .outcome run o] ∧
      (∀ d ∈ init, d.isPassing = true) ∧ w.outcomes id = [(run, o)]
  fails : ∀ o, w.outcomes id = [(run, o)] → o ≠ .cancelled → (∀ text, o ≠ .panicked text) →
    ∀ e, o = .failed e ↔ (w.recap id).cause? commands w.settings.maxChoices = some e
  /-- A plain command, such as a load, ends no run unless it is the last. -/
  completes : ∀ o c, w.outcomes id = [(run, o)] → o ≠ .cancelled → (∀ text, o ≠ .panicked text) →
    (w.recap id).command? commands = some c → c.isPlain = true →
    o = .completed ∧ ((w.recap id).last.bind fun place => (running commands)[place + 1]?) = none
  aborts : ∀ o, w.outcomes id = [(run, o)] → (o = .cancelled ∨ ∃ text, o = .panicked text) →
    .event (.aborted cancellation) ∈ w.told id ∧ .event .completed ∉ w.told id
  /-- A run that has a cause to fail waits for nothing. -/
  queues : ∀ e, (w.recap id).cause? commands w.settings.maxChoices = some e → w.outcomes id = [] →
    ∃ f ∈ w.ready, f.id = id
  ends : ∀ f rest r e, w.ready = f :: rest → f.id = id → f.role = .run r → f.doomed = false →
    (w.recap id).cause? commands w.settings.maxChoices = some e →
    ∃ k, (w.turns k).told id = w.told id ++ [.event (.aborted e), .outcome run (.failed e)]
  /-- Neither a load that fails nor a sound that cannot be stopped holds the run up. -/
  overcomes : ∀ f rest r c, w.ready = f :: rest → f.id = id → f.role = .run r → f.doomed = false →
    (w.recap id).command? commands = some c →
    (c.isLoad = true ∧ f.fault.isSome = true ∨
      c.isStop = true ∧ ∃ channel span after, f.todo = .hush channel span :: after) →
    ∃ k, (w.turns k).told id = w.told id ++ (w.recap id).next commands run

section

variable {commands : List Command} {id run : Nat} {l : Lead} {o : Outcome}

theorem forCause_of_underway (play : w.InPlay)
    (under : Underway commands w.settings.maxChoices w.plot l) :
    ForCause commands w l.id l.run.number := by
  have passing : ∀ d ∈ w.told l.id, d.isPassing = true := by
    rw [told_eq]
    exact under.told
  have going : w.outcomes l.id = [] := by rw [outcomes_told, outcomes_of_passing passing]
  have going' (o : Outcome) : w.outcomes l.id ≠ [(l.run.number, o)] := by simp [going]
  have among : l ∈ w.leads := by
    rw [show w.leads = [l] from under.leads]
    exact List.mem_singleton.mpr rfl
  refine ⟨.inl ⟨passing, going⟩, ?_, ?_, ?_, fun e cause _ => ?_, ?_, ?_⟩
  · exact fun o ended => absurd ended (going' o)
  · exact fun o c ended => absurd ended (going' o)
  · exact fun o ended => absurd ended (going' o)
  · obtain ⟨f, here, lead⟩ := List.mem_filterMap.mp among
    obtain ⟨role, same⟩ := lead?_eq_some lead
    have id : f.id = l.id := congrArg Lead.id same.symm
    rcases List.mem_append.mp here with ready | waiting
    · exact ⟨f, ready, id⟩
    · obtain ⟨b, parked, rfl⟩ := List.mem_map.mp waiting
      obtain ⟨fault, a, rest, todo, suspends⟩ := play.order.crewed.rests b parked
      rw [recap_eq] at cause
      exact absurd (under.stands.suspends_not (e := e) (congrArg Lead.todo same |>.trans todo)
        (congrArg Lead.fault same |>.trans fault) cause) (by simp [suspends])
  · intro f rest r e ready id role spared cause
    exact fails_at_head play under cause (heads_of_lead play.order under.leads ready id spared)
  · intro f rest r c ready id role spared found risky
    have heads := heads_of_lead play.order under.leads ready id spared
    obtain ⟨f', rest', ready', -, -, -, todo, fault⟩ := heads.here
    obtain ⟨rfl, rfl⟩ := List.cons.inj (ready.symm.trans ready')
    rw [todo, fault] at risky
    exact passes_at_head play under found risky heads

theorem forCause_of_ended (ended : Ended commands w.settings.maxChoices id run w.plot o) :
    ForCause commands w id run := by
  obtain ⟨init, told, passing⟩ := ended.told
  rw [← told_eq] at told
  have ends : w.outcomes id = [(run, o)] := by
    rw [outcomes_told, told, List.filterMap_append, outcomes_of_passing passing]
    rfl
  have verdict := ended.verdict
  rw [← recap_eq] at verdict
  have same {o' : Outcome} (ends' : w.outcomes id = [(run, o')]) : o' = o := by
    rw [ends] at ends'
    cases ends'
    rfl
  have away {f : Fiber} {rest : List Fiber} {r : Run} (ready : w.ready = f :: rest)
      (id' : f.id = id) (role : f.role = .run r) : False := by
    refine ended.gone (f.leading r) (List.mem_filterMap.mpr ⟨f, ?_, ?_⟩) id'
    · simp [fibers, ready]
    · exact lead?_of_role role
  refine ⟨.inr ⟨init, o, told, passing, ends⟩, ?_, ?_, ?_, ?_, ?_, ?_⟩
  · intro o' ends' spared calm e
    obtain rfl := same ends'
    cases o' with
    | completed =>
      rw [verdict.1]
      simp
    | failed e' =>
      rw [show (w.recap id).cause? commands w.settings.maxChoices = some e' from verdict]
      simp
    | cancelled => exact absurd rfl spared
    | panicked text => exact absurd rfl (calm text)
  · intro o' c ends' spared calm found plain
    obtain rfl := same ends'
    cases o' with
    | completed => exact ⟨rfl, verdict.2 c found plain⟩
    | failed e' =>
      have cause : (w.recap id).cause? commands w.settings.maxChoices = some e' := verdict
      rw [Recap.cause?, found, Option.bind_some, Command.error?_of_isPlain plain] at cause
      cases cause
    | cancelled => exact absurd rfl spared
    | panicked text => exact absurd rfl (calm text)
  · intro o' ends' broken
    obtain rfl := same ends'
    have event : o'.event = .aborted cancellation := by
      rcases broken with rfl | ⟨text, rfl⟩ <;> rfl
    rw [told, event]
    refine ⟨by simp, fun among => ?_⟩
    rcases List.mem_append.mp among with among | among
    · cases passing _ among
    · simp at among
  · intro e _ going
    rw [ends] at going
    cases going
  · intro f rest r e ready id' role
    exact (away ready id' role).elim
  · intro f rest r c ready id' role
    exact (away ready id' role).elim

end

/-- From the moment a script is accepted, its run fails exactly of the cause that its last command
has. A run that is neither aborted nor has a callback break down has no other end. -/
theorem runs_fail_for_cause (o : Opening) (before after : List Pulse) {n run : Nat}
    {commands : List Command} (script : o.scripts[n]? = some commands)
    (accepted : ((o.world.pulses before).apply (.execute n)).2 = .number run) :
    let id := (o.world.pulses before).nextFiber
    let ps := before ++ .host (.execute n) rfl :: after
    let w := o.world.pulses ps
    ForCause commands w id run ∧
      (∀ f rest a kind index, w.ready = f :: rest → w.act? = some a → a.asks? = some (kind, index) →
        (w.turn.replies f.id = w.replies f.id ++ [.unknown] ↔
          w.registry.resolves kind index = false)) ∧
      (w.feed.total.nanos < Span.limit → ∀ text, w.outcomes id = [(run, .panicked text)] →
        ∃ pre f, pre ++ [.turn] <+: ps ∧ (o.world.pulses pre).ready.head? = some f ∧ f.id = id ∧
          (o.world.pulses pre).turnPanics = true) := by
  intro id ps w
  have judged := judged_pulses o before after script accepted
  rw [← settings_pulses o ps] at judged
  refine ⟨?_, fun f rest a kind index ready act asks => hears_unknown_iff o ps ready act asks, ?_⟩
  · cases judged with
    | underway l under same number =>
      subst number
      rw [show id = l.id from same.symm]
      exact forCause_of_underway (inPlay_pulses o ps) under
    | ended o' ended => exact forCause_of_ended ended
  · intro bounded text ends
    obtain ⟨e, among, deed⟩ : ∃ e ∈ w.entries, e.author = some id ∧
        e.deed.outcome? = some (run, .panicked text) := by
      have last : (run, Outcome.panicked text) ∈ w.outcomes id := by simp [ends]
      obtain ⟨e, among, told⟩ := List.mem_filterMap.mp last
      split at told
      · exact ⟨e, among, ‹_›, told⟩
      · cases told
    have mishap : e ∈ w.mishaps := by
      refine List.mem_filter.mpr ⟨among, ?_⟩
      obtain ⟨-, deed⟩ := deed
      cases told : e.deed with
      | outcome run' o' =>
        rw [told] at deed
        cases deed
        rfl
      | _ =>
        rw [told] at deed
        cases deed
    obtain ⟨pre, f, early, head, author, panics⟩ := panics_in_callback o ps bounded mishap
    exact ⟨pre, f, early, head, Option.some.inj (author.symm.trans deed.1), panics⟩

/-- A jump to a label that the script lacks. -/
theorem runs_fail_for_cause_stray :
    let o : Opening := ⟨default, default, 8, default, default, [[.goto "nowhere"]]⟩
    let w := o.world.pulses (.host (.execute 0) rfl :: List.replicate 3 .turn)
    (o.world.apply (.execute 0)).2 = .number 0 ∧ ForCause [.goto "nowhere"] w 0 0 ∧
      (w.recap 0).cause? [.goto "nowhere"] w.settings.maxChoices = some (.unknownLabel "nowhere") ∧
      w.outcomes 0 = [(0, .failed (.unknownLabel "nowhere"))] := by
  intro o w
  have accepted : (o.world.apply (.execute 0)).2 = .number 0 := rfl
  have ends : w.outcomes 0 = [(0, .failed (.unknownLabel "nowhere"))] := by decide
  obtain ⟨cause, -⟩ := runs_fail_for_cause o [] (List.replicate 3 .turn) rfl accepted
  exact ⟨accepted, cause, (cause.fails _ ends (by decide) (by simp) _).mp rfl, ends⟩

end World

end SceneScript
