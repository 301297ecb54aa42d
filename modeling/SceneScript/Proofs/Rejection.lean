import SceneScript.Proofs.Twins
/-!
Programs that a performance turns away. Of a refused program there remain a remark and, if it held
nothing but labels, the labels that were resolved; all else is as if it had never been offered, at
once and ever after (`refused_program_leaves_no_trace`).
-/

namespace SceneScript

/-! ### A past in which nothing happened -/

namespace Past

@[simps frames sources now flags timers receipts runs loads fibers hasty permits programs ready
  chronicle]
def blank (programs : Array Program) (chronicle : Array Entry) : Past where
  frames := #[]
  sources := 0
  now := .zero
  flags := #[]
  timers := #[]
  receipts := #[]
  runs := 0
  loads := 0
  fibers := 0
  hasty _ := true
  permits := 0
  programs := programs
  ready := []
  chronicle := chronicle

theorem suits_blank (programs : Array Program) (chronicle : Array Entry) (w : World) :
    (blank programs chronicle).Suits w :=
  ⟨fun t found => by simp at found, .inl rfl, .inl rfl, by simp, by simp⟩

theorem whole_blank (programs : Array Program) (chronicle : Array Entry) :
    (blank programs chronicle).Whole := Nat.dvd_zero _

end Past

section

variable {programs : Array Program} {chronicle : Array Entry}

theorem Span.zero_add (s : Span) : Span.zero + s = s := Span.nanos_ext (Nat.zero_add _)

theorem Frame.behind_blank (f : Frame) : f.behind (.blank programs chronicle) = f := by
  simp [Frame.behind]

theorem Cursor.behind_blank (c : Cursor) : c.behind (.blank programs chronicle) = c := by
  simp [Cursor.behind]

theorem Act.behind_blank (a : Act) : a.behind (.blank programs chronicle) = a := by
  cases a with
  | count i due => cases due <;> simp [Act.behind, Span.zero_add]
  | _ => simp [Act.behind]

theorem Role.behind_blank (r : Role) : r.behind (.blank programs chronicle) = r := by
  cases r <;> simp [Role.behind, Run.behind]

theorem Fiber.behind_blank (f : Fiber) : f.behind (.blank programs chronicle) = f := by
  have cursors : Cursor.behind (.blank programs chronicle) = fun c => c :=
    funext Cursor.behind_blank
  have acts : Act.behind (.blank programs chronicle) = fun a => a := funext Act.behind_blank
  simp only [Fiber.behind, Role.behind_blank, cursors, acts]
  simp

theorem Parked.behind_blank (b : Parked) : b.behind (.blank programs chronicle) = b := by
  obtain ⟨wait, f⟩ := b
  cases wait <;> simp [Parked.behind, Wait.behind, Fiber.behind_blank, Span.zero_add]

theorem Entry.behind_blank (e : Entry) : e.behind (.blank programs chronicle) = e := by
  obtain ⟨author, deed⟩ := e
  have deed : deed.behind (.blank programs chronicle) = deed := by
    cases deed with
    | event e => cases e <;> simp [Deed.behind, Event.behind]
    | note n => cases n <;> simp [Deed.behind, Note.behind, Execution.View.behind]
    | _ => simp [Deed.behind, Frame.behind_blank]
  rw [Entry.behind, deed]
  simp

theorem Mixer.behind_blank (m : Mixer) : m.behind (.blank programs chronicle) = m := by
  have fades (c : Channel) : (m.fades.get c).map ((Past.blank programs chronicle).fibers + ·) =
      m.fades.get c := by
    cases m.fades.get c <;> simp
  simp only [Mixer.behind, fades]
  rfl

theorem HostStep.behind_blank (s : HostStep) : s.behind (.blank programs chronicle) = s := by
  cases s <;> simp [HostStep.behind]

namespace World

/-- Behind nothing a world is what it was, but for its programs and for what was told before. -/
theorem behind_blank (w : World) : w.behind (.blank programs chronicle) =
    { w with programs, chronicle := chronicle ++ w.chronicle } := by
  have frames : Frame.behind (.blank programs chronicle) = fun f => f := funext Frame.behind_blank
  have fibers : Fiber.behind (.blank programs chronicle) = fun f => f := funext Fiber.behind_blank
  have parked : Parked.behind (.blank programs chronicle) = fun b => b :=
    funext Parked.behind_blank
  have entries : Entry.behind (.blank programs chronicle) = fun e => e := funext Entry.behind_blank
  have timers : Timer.behind (.blank programs chronicle) = fun t => t := by
    funext t
    simp [Timer.behind]
  have offers : Offer.behind (.blank programs chronicle) = fun o => o := by
    funext o
    simp [Offer.behind]
  simp only [behind, Feed.behind, Execution.behind, ChoiceSlot.behind, Mixer.behind_blank, frames,
    fibers, parked, entries, timers, offers]
  simp [Span.zero_add]

end World

end

/-! ### The same from here on -/

namespace Entry

/-- What is told, but for the reason why a program is refused. -/
def discreet? (e : Entry) : Option Entry :=
  match e.deed with
  | .remark r => if r.isRefusal then none else some e
  | .note (.executed (some _)) => some ⟨e.author, .note (.executed (some .emptyProgram))⟩
  | _ => some e

end Entry

theorem deaf_discreet? : Deaf Entry.discreet? :=
  ⟨fun _ _ refusal => by simp [Entry.discreet?, refusal], fun _ _ _ => rfl⟩

theorem not_deaf_some : ¬ Deaf (some : Entry → Option Entry) := fun deaf => by
  cases deaf.remark none .refusedEmpty rfl

variable {β : Type} {g : Entry → Option β} {w w₁ w₂ : World} {p₁ p₂ : Past}
  {programs programs₁ programs₂ : Array Program} {chronicle chronicle₁ chronicle₂ : Array Entry}

theorem own_blank (g : Entry → Option β) : (Past.blank programs chronicle).own g = g := by
  funext ⟨author, deed⟩
  cases author <;> rfl

theorem blind_blank (g : Entry → Option β) :
    Blind g (.blank programs₁ chronicle₁) (.blank programs₂ chronicle₂) := fun e => by
  rw [e.behind_blank, e.behind_blank]

namespace Twins

theorem of_programs (same : ∀ n, resolution w.programs n = resolution programs n)
    (deaf : w.programs = programs ∨ Deaf g) :
    Twins g (.blank w.programs w.chronicle) (.blank programs chronicle) w
      { w with programs, chronicle } := by
  have twins : Twins g (.blank w.programs w.chronicle) (.blank programs chronicle)
      (World.behind (.blank w.programs w.chronicle) { w with chronicle := #[] })
      (World.behind (.blank programs chronicle) { w with chronicle := #[] }) :=
    .intro { w with chronicle := #[] } [] (Past.suits_blank _ _ _) (Past.suits_blank _ _ _) same deaf
      (List.append_nil _).symm (List.append_nil _).symm
  rw [World.behind_blank, World.behind_blank, Array.append_empty, Array.append_empty] at twins
  exact twins

theorem blank_cases (h : Twins g (.blank programs₁ chronicle₁) (.blank programs₂ chronicle₂) w₁ w₂) :
    w₂ = { w₁ with programs := w₂.programs, chronicle := w₂.chronicle } ∧
      (w₁.programs = w₂.programs ∨ Deaf g) ∧ ∃ told,
        w₁.entries.filterMap g = chronicle₁.toList.filterMap g ++ told ∧
        w₂.entries.filterMap g = chronicle₂.toList.filterMap g ++ told := by
  cases h with
  | @intro u told programs₁' programs₂' chronicle₁' chronicle₂' fits₁ fits₂ resolved deaf told₁ told₂ =>
    have apart (programs programs' : Array Program) (chronicle chronicle' : Array Entry) :
        u.behind ((Past.blank programs chronicle).told programs' chronicle') =
          { u with programs := programs', chronicle := chronicle' ++ u.chronicle } :=
      u.behind_blank
    rw [apart, apart]
    rw [own_blank] at told₁ told₂
    refine ⟨rfl, deaf, told ++ u.chronicle.toList.filterMap g, ?_, ?_⟩
    · have told₁ : chronicle₁'.toList.filterMap g = chronicle₁.toList.filterMap g ++ told := told₁
      simp [World.entries, told₁]
    · have told₂ : chronicle₂'.toList.filterMap g = chronicle₂.toList.filterMap g ++ told := told₂
      simp [World.entries, told₂]

theorem move (play : w₁.InPlay)
    (h : Twins g (.blank programs₁ chronicle₁) (.blank programs₂ chronicle₂) w₁ w₂) (m : Move) :
    Twins g (.blank programs₁ chronicle₁) (.blank programs₂ chronicle₂) (w₁.move m) (w₂.move m) := by
  cases m with
  | turn => exact h.turn (blind_blank g) ⟨rfl, rfl⟩ play
  | host s =>
    obtain ⟨twins, -⟩ := h.apply (s := s) (blind_blank g) (Past.whole_blank _ _)
      (Past.whole_blank _ _) play (fun _ => ⟨rfl, rfl⟩) fun _ => ⟨rfl, rfl⟩
    rwa [s.behind_blank, s.behind_blank] at twins

theorem after (play : w₁.InPlay)
    (h : Twins g (.blank programs₁ chronicle₁) (.blank programs₂ chronicle₂) w₁ w₂)
    (ms : List Move) : Twins g (.blank programs₁ chronicle₁) (.blank programs₂ chronicle₂)
      (w₁.after ms) (w₂.after ms) := by
  induction ms generalizing w₁ w₂ with
  | nil => exact h
  | cons m ms ih => exact ih (play.beats (World.beats_move w₁ m)) (h.move play m)

theorem heard (play : w₁.InPlay)
    (h : Twins g (.blank programs₁ chronicle₁) (.blank programs₂ chronicle₂) w₁ w₂) (s : HostStep) :
    (w₂.apply s).2 = (w₁.apply s).2 ∨
      Deaf g ∧ ∃ n e₁ e₂, s = .execute n ∧ (w₁.apply s).2 = .failed e₁ ∧
        (w₂.apply s).2 = .failed e₂ := by
  obtain ⟨-, echo⟩ := h.apply (s := s) (blind_blank g) (Past.whole_blank _ _)
    (Past.whole_blank _ _) play (fun _ => ⟨rfl, rfl⟩) fun _ => ⟨rfl, rfl⟩
  rw [s.behind_blank, s.behind_blank] at echo
  refine echo.imp_left ?_
  rintro ⟨r, left, right⟩
  have same : s.past (.blank programs₁ chronicle₁) = s.past (.blank programs₂ chronicle₂) := by
    cases s <;> rfl
  rw [left, right, same]

end Twins

namespace World

/-- Whatever the host does from now on, the same comes of it in both worlds. Only why a program is
refused may differ, and only if the programs do. -/
structure Indistinct (w w' : World) : Prop where
  world : ∀ ms : List Move, w'.after ms = { w.after ms with
    programs := (w'.after ms).programs, chronicle := (w'.after ms).chronicle }
  told : ∀ ms, ∃ told : List Entry,
    (w.after ms).entries.filterMap Entry.discreet? =
      w.entries.filterMap Entry.discreet? ++ told ∧
    (w'.after ms).entries.filterMap Entry.discreet? =
      w'.entries.filterMap Entry.discreet? ++ told
  heard : ∀ ms s, ((w'.after ms).apply s).2 = ((w.after ms).apply s).2 ∨
    ∃ n e e', s = .execute n ∧ ((w.after ms).apply s).2 = .failed e ∧
      ((w'.after ms).apply s).2 = .failed e'
  strict : w.programs = w'.programs → ∀ ms, (w'.after ms).programs = (w.after ms).programs ∧
    (∃ es, (w.after ms).entries = w.entries ++ es ∧ (w'.after ms).entries = w'.entries ++ es) ∧
    ∀ s, ((w'.after ms).apply s).2 = ((w.after ms).apply s).2

theorem InPlay.after (play : w.InPlay) (ms : List Move) : (w.after ms).InPlay :=
  play.beats (beats_after w ms)

theorem InPlay.indistinct (play : w.InPlay)
    (same : ∀ n, resolution w.programs n = resolution programs n) :
    w.Indistinct { w with programs, chronicle } := by
  have twins : Twins Entry.discreet? (.blank w.programs w.chronicle) (.blank programs chronicle) w
      { w with programs, chronicle } := .of_programs same (.inr deaf_discreet?)
  refine ⟨fun ms => ?_, fun ms => ?_, fun ms s => ?_, fun equal ms => ?_⟩
  · exact (twins.after play ms).blank_cases.1
  · obtain ⟨-, -, told, tale, tale'⟩ := (twins.after play ms).blank_cases
    exact ⟨told, tale, tale'⟩
  · exact ((twins.after play ms).heard (play.after ms) s).imp_right (·.2)
  · have twins : Twins some (.blank w.programs w.chronicle) (.blank programs chronicle) w
        { w with programs, chronicle } := .of_programs same (.inl equal)
    have twins := twins.after play ms
    obtain ⟨-, programs, told, tale, tale'⟩ := twins.blank_cases
    simp only [List.filterMap_some] at tale tale'
    exact ⟨(programs.resolve_right not_deaf_some).symm, ⟨told, tale, tale'⟩,
      fun s => (twins.heard (play.after ms) s).resolve_right fun deaf => not_deaf_some deaf.1⟩

/-! ### Refusals -/

/-- All that a refused program changes, at once and ever after. -/
structure Declines (w : World) (n : Nat) (e : Failure) (w' : World) : Prop where
  error : e = .emptyProgram ∨ e = .alreadyExecuting ∨ ∃ name, e = .duplicateLabel name
  world : ∃ rm : Remark, rm.isRefusal = true ∧ w' = { w.remark rm with programs := w'.programs }
  kept : (∀ q, w.programs[n]? = some q → q.Bare → w.state.executing = true) →
    w'.programs = w.programs
  cleared : ∀ q, w.programs[n]? = some q → q.Bare → w.state.executing = false →
    w'.programs = w.programs.setIfInBounds n q.cleared
  after : w.Indistinct w'

theorem setIfInBounds_getD (programs : Array Program) (n : Nat) (d : Program) :
    programs.setIfInBounds n (programs.getD n d) = programs := by
  refine Array.ext_getElem? fun i => ?_
  rw [Array.getElem?_setIfInBounds]
  split
  · rename_i same
    subst same
    by_cases inside : n < programs.size <;> simp [inside]
  · rfl

theorem InPlay.declines (play : w.InPlay) {n : Nat} {e : Failure}
    (refused : (w.executeNumber n).2 = .error e) : w.Declines n e (w.executeNumber n).1 := by
  rcases execute_refused w (w.programs.getD n (.ofCommands [])) with
    ⟨rm, q, e', refuses, heq⟩ | ⟨q, -, -, -, heq⟩
  · have same : (w.executeNumber n).1 =
        { w.remark rm with programs := w.programs.setIfInBounds n q } := by
      rw [executeNumber, heq]
      rfl
    rw [executeNumber, heq] at refused
    cases refused
    rw [same]
    have found {p : Program} (there : w.programs[n]? = some p) :
        w.programs.getD n (.ofCommands []) = p := by
      simp [Array.getD_eq_getD_getElem?, there]
    refine ⟨?_, ⟨rm, refuses.isRefusal, rfl⟩, fun never => ?_, fun p there bare idle => ?_, ?_⟩
    · cases refuses with
      | empty | bare => exact .inl rfl
      | busy => exact .inr (.inl rfl)
      | repeats => exact .inr (.inr ⟨_, rfl⟩)
    · cases refuses with
      | empty | busy | repeats => exact setIfInBounds_getD _ _ _
      | bare idle bare =>
        have inside : w.programs[n]? = some (w.programs.getD n (.ofCommands [])) := by
          by_contra none
          have missing : w.programs.getD n (.ofCommands []) = .ofCommands [] := by
            cases h : w.programs[n]? with
            | none => simp [Array.getD_eq_getD_getElem?, h]
            | some q' => simp [Array.getD_eq_getD_getElem?, h] at none
          exact bare.nonempty (by rw [missing]; rfl)
        rw [never _ inside bare] at idle
        cases idle
    · rw [found there] at refuses
      cases refuses with
      | empty empty => exact absurd empty bare.nonempty
      | busy _ busy =>
        rw [idle] at busy
        cases busy
      | repeats _ failed =>
        rw [bare.preprocess] at failed
        cases failed
      | bare => rfl
    · refine play.indistinct fun m => ?_
      exact (resolution_setIfInBounds refuses.preprocess m).symm
  · rw [executeNumber, heq] at refused
    cases refused

/-! ### Refusals in callbacks -/

/-- What a fiber's turn comes to if these are the steps of the action it calls. -/
def acts (w : World) (f : Fiber) (action : Nat) (effects : List Effect) : World :=
  { (w.runEffects effects).1.answered f action (w.runEffects effects).2 with actor := none }

theorem turn_acts (order : w.InOrder) {f : Fiber} {rest : List Fiber} {action : Nat}
    {todo : List Act} {effects : List Effect} (ready : w.ready = f :: rest)
    (spared : f.doomed = false) (fault : f.fault = none) (calls : f.todo = .action action :: todo)
    (there : w.registry.actions[action]? = some effects) :
    w.turn = (w.taken f rest).acts { f with todo } action effects := by
  obtain ⟨r, role⟩ := order.run_of_act (a := .action action) ready (by simp [calls]) rfl
  have current : (w.taken f rest).isCancelled f = false := by simp [isCancelled, role]
  have called : (w.taken f rest).callAction action = (w.taken f rest).runEffects effects := by
    rw [callAction, show (w.taken f rest).registry = w.registry from rfl, there]
  rw [turn_cons ready, advance_action spared current fault calls, performAction, called]
  rfl

theorem runEffects_append {es : List Effect} (w : World) (back : (w.runEffects es).2 = .value ())
    (rest : List Effect) : w.runEffects (es ++ rest) = (w.runEffects es).1.runEffects rest := by
  fun_induction runEffects w es with
  | case1 => rfl
  | case2 => cases back
  | case3 w e es calm ih =>
    rw [List.cons_append, runEffects]
    · exact ih back
    · exact calm

theorem acts_append {es : List Effect} (w : World) (back : (w.runEffects es).2 = .value ())
    (f : Fiber) (action : Nat) (rest : List Effect) :
    w.acts f action (es ++ rest) = (w.runEffects es).1.acts f action rest := by
  rw [acts, runEffects_append w back]
  rfl

/-- All that comes of a program that an action offers, when the fiber `f` calls it: `x` is the world
after its turn and `x'` the world after the turn without that step, which would find `v`. -/
structure Unheeded (v : World) (f : Fiber) (n : Nat) (x x' : World) : Prop where
  told : ∃ (e : Failure) (rm : Remark) (es : List Entry),
    (e = .emptyProgram ∨ e = .alreadyExecuting) ∧ rm.isRefusal = true ∧
    v.runEffect (.execute n) = (v.remark rm).note (.executed (some e)) ∧
    x'.entries = v.entries ++ es ∧ x.entries =
      v.entries ++ [⟨some f.id, .remark rm⟩, ⟨some f.id, .note (.executed (some e))⟩] ++ es
  world : x' = { x with chronicle := x'.chronicle }
  after : x.Indistinct x'

/-- The steps before the one that is looked at leave the run under way. -/
theorem executing_runEffects (order : w.InOrder) {f : Fiber} {rest : List Fiber} {action : Nat}
    {todo : List Act} (ready : w.ready = f :: rest) (calls : f.todo = .action action :: todo)
    (effects : List Effect) :
    ((w.taken f rest).runEffects effects).1.state.executing = true ∧
      ((w.taken f rest).runEffects effects).1.actor = some f.id := by
  obtain ⟨r, role⟩ := order.run_of_act (a := .action action) ready (by simp [calls]) rfl
  obtain ⟨alone, -, busy⟩ := taken_run order.staged.attended ready role
  have touched := touches_runEffects (w.taken f rest) effects busy (by simp [alone])
  obtain ⟨chosen, state⟩ := touched.state
  exact ⟨(congrArg Execution.executing state).trans busy,
    (keeps_runEffects (w.taken f rest) effects).actor⟩

end World

theorem Twins.acts (h : Twins g (.blank programs₁ chronicle₁) (.blank programs₂ chronicle₂) w₁ w₂)
    (f : Fiber) (action : Nat) (effects : List Effect) :
    Twins g (.blank programs₁ chronicle₁) (.blank programs₂ chronicle₂) (w₁.acts f action effects)
      (w₂.acts f action effects) := by
  obtain ⟨twins, same⟩ := h.runEffects (blind_blank g) effects
  have twins := (twins.answered ⟨rfl, rfl⟩ f action (w₁.runEffects effects).2).leave
  rw [f.behind_blank, f.behind_blank] at twins
  unfold World.acts
  rw [← same]
  exact twins

namespace World

theorem InPlay.unheeded (play : w.InPlay) {f : Fiber} {rest : List Fiber} {action n : Nat}
    {todo : List Act} {before after : List Effect} (ready : w.ready = f :: rest)
    (spared : f.doomed = false) (fault : f.fault = none) (calls : f.todo = .action action :: todo)
    (there : w.registry.actions[action]? = some (before ++ .execute n :: after))
    (comes : ((w.taken f rest).runEffects before).2 = .value ()) :
    Unheeded ((w.taken f rest).runEffects before).1 f n w.turn
      ((w.taken f rest).acts { f with todo } action (before ++ after)) := by
  obtain ⟨busy, actor⟩ := executing_runEffects play.order ready calls before
  have turned := turn_acts play.order ready spared fault calls there
  rw [acts_append _ comes] at turned ⊢
  generalize ((w.taken f rest).runEffects before).1 = v at busy actor turned ⊢
  rcases execute_refused v (v.programs.getD n (.ofCommands [])) with
    ⟨rm, q, e, refuses, heq⟩ | ⟨q, idle, -⟩
  swap
  · rw [busy] at idle
    cases idle
  obtain ⟨rfl, error⟩ := refuses.unchanged busy
  have offered : v.runEffect (.execute n) = (v.remark rm).note (.executed (some e)) := by
    rw [runEffect, executeNumber, heq]
    show World.note { v.remark rm with programs := v.programs.setIfInBounds n _ } _ = _
    rw [setIfInBounds_getD]
    rfl
  -- Behind the two entries, the rest of the turn is the same.
  have twins : Twins some (.blank v.programs ((v.remark rm).note (.executed (some e))).chronicle)
      (.blank v.programs v.chronicle) ((v.remark rm).note (.executed (some e))) v :=
    .of_programs (w := (v.remark rm).note (.executed (some e))) (fun _ => rfl) (.inl rfl)
  have twins := twins.acts { f with todo } action after
  rw [← offered, show (v.runEffect (.execute n)).acts { f with todo } action after =
    v.acts { f with todo } action (.execute n :: after) from rfl, ← turned] at twins
  generalize v.acts { f with todo } action after = x' at twins ⊢
  obtain ⟨world, programs, told, tale, tale'⟩ := twins.blank_cases
  simp only [List.filterMap_some] at tale tale'
  rw [← programs.resolve_right not_deaf_some] at world
  refine ⟨⟨e, rm, told, error, refuses.isRefusal, offered, tale', ?_⟩, world, ?_⟩
  · rw [tale, offered]
    simp [entries, note, remark, World.record, actor]
  · rw [world]
    exact (play.beat (.lull (.turn w))).indistinct fun _ => rfl

/-- A refused program is as good as never offered, be it by the host or by an action of the run that
is under way. -/
theorem refused_program_leaves_no_trace (o : Opening) (before : List Move) (n : Nat) :
    (∀ e, ((o.world.after before).apply (.execute n)).2 = .failed e →
      (o.world.after before).Declines n e ((o.world.after before).apply (.execute n)).1) ∧
    ∀ (f : Fiber) (rest : List Fiber) (action : Nat) (todo : List Act) (es es' : List Effect),
      (o.world.after before).ready = f :: rest → f.doomed = false → f.fault = none →
      f.todo = .action action :: todo →
      (o.world.after before).registry.actions[action]? = some (es ++ .execute n :: es') →
      (((o.world.after before).taken f rest).runEffects es).2 = .value () →
      Unheeded (((o.world.after before).taken f rest).runEffects es).1 f n (o.world.after before).turn
        (((o.world.after before).taken f rest).acts { f with todo } action (es ++ es')) := by
  have play : (o.world.after before).InPlay := (inPlay_opening o).after before
  refine ⟨fun e refused => ?_, fun f rest action todo es es' => play.unheeded⟩
  refine play.declines ?_
  have refused : reply .number ((o.world.after before).executeNumber n).2 = .failed e := refused
  cases result : ((o.world.after before).executeNumber n).2 with
  | ok number =>
    rw [result] at refused
    cases refused
  | error e' =>
    rw [result] at refused
    cases refused
    rfl

/-- The host offers a program of one label, and so does an action of another. -/
theorem refused_program_leaves_no_trace_label :
    let o : Opening := ⟨default, default, 8, default, ⟨#[], #[], #[[.note "before", .execute 0, .view]]⟩,
      [[.label "a"], [.action 0]]⟩
    let w := o.world.after [.host (.execute 1), .turn]
    o.world.Declines 0 .emptyProgram (o.world.apply (.execute 0)).1 ∧
      ∃ f rest, w.ready = f :: rest ∧ Unheeded ((w.taken f rest).runEffects [.note "before"]).1 f 0
        w.turn ((w.taken f rest).acts { f with todo := [] } 0 [.note "before", .view]) := by
  intro o w
  have declines := (refused_program_leaves_no_trace o [] 0).1 .emptyProgram rfl
  refine ⟨declines, _, _, rfl, ?_⟩
  exact (refused_program_leaves_no_trace o [.host (.execute 1), .turn] 0).2 _ _ 0 []
    [.note "before"] [.view] rfl rfl rfl rfl rfl rfl

end World

end SceneScript
