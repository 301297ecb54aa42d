import SceneScript.Proofs.Desk
/-!
The turns of a run that comes to a choice: it makes an offer, waits for the answer and tells of it.
-/

namespace SceneScript

/-! ### The acts of a choice -/

namespace Phase

variable {c : Command} {todo : List Act} {shown picks : Bool} {a : Act}

theorem choice_of_offered {options : List String} (h : Phase c todo shown picks) (member : a ∈ todo)
    (offered : a.offered? = some options) : c = .choice options ∧ picks = true := by
  have told : a.isAside = false := by cases a <;> first | rfl | cases offered
  have loud {pre : List Act} (docile : ∀ b ∈ pre, b.isDocile = true) (member : a ∈ pre) :
      False := by
    rw [Act.isAside_of_isDocile (docile a member)] at told
    cases told
  cases h with
  | plain plain =>
    rw [plain.aside a member] at told
    cases told
  | spent => cases member
  | opens options receiver docile =>
    rcases List.mem_append.mp member with member | last
    · rcases List.mem_cons.mp member with rfl | member
      · cases offered
      · exact (loud docile member).elim
    · obtain rfl := List.mem_singleton.mp last
      cases offered
      exact ⟨rfl, rfl⟩
  | «open» options _ docile | picked options _ docile =>
    rcases List.mem_append.mp member with member | last
    · exact (loud docile member).elim
    · obtain rfl := List.mem_singleton.mp last
      cases offered
      exact ⟨rfl, rfl⟩
  | closes options docile =>
    rcases List.mem_append.mp member with member | last
    · exact (loud docile member).elim
    · obtain rfl := List.mem_singleton.mp last
      cases offered
  | _ =>
    obtain rfl := List.mem_singleton.mp member
    cases offered

end Phase

/-! ### Turns beside a choice -/

namespace Plot

variable {p p' : Plot} {l : Lead}

/-- Nothing is offered, nobody waits for an answer, and no selection is told of. -/
structure Plain (p p' : Plot) : Prop where
  pending : p'.pending = false
  leads : ∀ l ∈ p'.leads, l.todo.any Act.isReply = false
  events : ∃ es, p'.events = p.events ++ es ∧ ∀ i, Event.choiceMade i ∉ es

theorem Plain.ends {o : Outcome} (same : p'.events = p.events) : Plain p (p'.ends l o) where
  pending := rfl
  leads l member := by cases member
  events := by
    refine ⟨[o.event], (List.filterMap_append).trans (congrArg (· ++ _) same), fun i member => ?_⟩
    cases o <;> cases List.mem_singleton.mp member

theorem Plain.goes {l' : Lead} (pending : p'.pending = false) (leads : p'.leads = [l'])
    (plain : l'.todo.any Act.isReply = false) (same : p'.events = p.events) : Plain p p' where
  pending := pending
  leads l member := by
    rw [leads] at member
    obtain rfl := List.mem_singleton.mp member
    exact plain
  events := ⟨[], by rw [same, List.append_nil], by simp⟩

theorem Plays.plain (plays : Plays l p p') (pending : p.pending = false)
    (plain : l.todo.any Act.isReply = false) :
    (∃ options rest, l.todo = .offer options :: rest ∧ l.fault = none) ∨ Plain p p' := by
  have rest {a : Act} {rest : List Act} (todo : l.todo = a :: rest) :
      a.isReply = false ∧ rest.any Act.isReply = false := by
    simpa [todo] using plain
  have told (l : Lead) {d : Deed} (silent : d.event? = none) (p : Plot) :
      (p.tell l d).events = p.events := by
    have none : [(⟨some l.id, d⟩ : Entry)].filterMap Entry.event? = [] :=
      List.filterMap_cons_none silent
    exact (List.filterMap_append).trans ((congrArg (_ ++ ·) none).trans (List.append_nil _))
  cases plays with
  | completes | fails | stops => exact .inr (.ends rfl)
  | breaks text touched => exact .inr (.ends touched.events)
  | @fetches c settings page todo fault found =>
    refine .inr ⟨pending, fun l' member => ?_, ⟨_, List.filterMap_append, fun i member => ?_⟩⟩
    · obtain rfl := List.mem_singleton.mp member
      exact c.any_isReply_acts settings l.run.page
    · cases List.mem_singleton.mp member
  | goes todo fault aside leaves raised =>
    refine .inr (.goes pending rfl ?_ rfl)
    rw [List.any_append, (rest todo).2, Bool.or_false, List.any_eq_false]
    exact fun b member => by
      simp [Act.isReply_eq_false_of_isAside ((leaves b member).isAside aside)]
  | skips todo => exact .inr (.goes pending rfl (rest todo).2 rfl)
  | shows todo => exact .inr (.goes pending rfl (rest todo).2 (told l rfl p))
  | offers receiver todo fault => exact .inl ⟨_, _, todo, fault⟩
  | refuses _ _ todo fault => exact .inl ⟨_, _, todo, fault⟩
  | hears _ todo | misses _ todo | chooses todo => cases (rest todo).1
  | holds todo | switches _ todo | turns todo | unheard todo =>
    exact .inr (.goes pending rfl (rest todo).2 (told l rfl p))
  | jumps todo | strays todo => exact .inr (.goes pending rfl (rest todo).2 rfl)
  | @calls action after q todo fault touched =>
    exact .inr (.goes (touched.pending pending) rfl (rest todo).2
      ((told l rfl q).trans touched.events))

end Plot

namespace World

variable {w w' : World} {f : Fiber} {r : Run} {rest : List Fiber} {a : Act}
  {acts after : List Act} {waits : Wait → Prop} {pick : Option Nat}

theorem InOrder.choice (order : w.InOrder) {l : Lead} (leads : w.leads = [l])
    (fault : l.fault = none) {options : List String} (member : a ∈ l.todo)
    (offered : a.offered? = some options) :
    w.state.command = some (.choice options) ∧
      w.events.getLast? = some (.stepped w.state.pointer .choice) := by
  obtain ⟨b, after, todo⟩ := List.exists_cons_of_ne_nil (List.ne_nil_of_mem member)
  obtain ⟨c, shown, picks, under⟩ := (order.playing leads).under todo
  obtain ⟨rfl, rfl⟩ := (under.phase fault).choice_of_offered member offered
  refine ⟨under.command, ?_⟩
  rw [events_eq_story]
  exact under.stepped rfl

theorem Doing.choice {options : List String} (doing : w.Doing (acts ++ [a]) waits)
    (order : w.InOrder) (offered : a.offered? = some options) :
    w.state.command = some (.choice options) ∧
      w.events.getLast? = some (.stepped w.state.pointer .choice) := by
  obtain ⟨l, leads, fault, left, pre, todo⟩ := doing.lead
  refine order.choice leads fault ?_ offered
  rcases List.eq_nil_or_concat l.todo with none | ⟨before, b, some⟩
  · exact absurd none left
  · rw [some, List.concat_eq_append, ← List.append_assoc] at todo
    rw [some, ← (List.cons.inj (List.append_inj' todo rfl).2).1]
    simp

/-- An open offer is that of the choice which the run has come to. -/
theorem Desk.choice (desk : w.Desk pick) (order : w.InOrder) {offer : Offer}
    (some : w.slot.pending = some offer) :
    pick = none ∧ ∃ options, w.state.command = Option.some (.choice options) ∧
      offer.available = options.length ∧
      w.events.getLast? = Option.some (.stepped w.state.pointer .choice) := by
  cases desk with
  | bare pending | given _ _ _ _ pending | heard _ _ _ pending =>
    rw [pending] at some
    cases some
  | offered receiver options doing pending waiting =>
    obtain rfl := Option.some.inj (pending.symm.trans some)
    obtain ⟨command, stepped⟩ := Doing.choice (a := .answer receiver options) doing order rfl
    exact ⟨rfl, options, command, rfl, stepped⟩

/-! ### Turns on the way to a choice -/

theorem bare_resume (role : f.role = .run r) (alone : w.leads = [])
    (pending : w.slot.pending = none) (plain : f.todo.any Act.isReply = false) :
    Desk { w.resume f with actor := none } none := by
  have leads : (w.resume f).leads = [f.leading r] := congrArg Plot.leads (plot_resume role alone)
  refine .bare pending fun l member => ?_
  obtain rfl := List.mem_singleton.mp (leads ▸ member)
  exact plain

theorem turn_doomed (order : w.InOrder) (ready : w.ready = f :: rest) (role : f.role = .run r)
    (doomed : f.doomed = true) :
    w.turn.Desk none ∧ w.turn.events = w.events ++ [.aborted cancellation] := by
  obtain ⟨alone, back, -⟩ := taken_run order.staged.attended ready role
  have plot : w.turn.plot = (w.taken f rest).plot.ends (f.leading r) .cancelled := by
    rw [turn_cons ready, advance, if_pos doomed]
    exact plot_conclude .cancelled role alone rfl
  refine ⟨.bare ?_ ?_, ?_⟩
  · have pending : w.turn.slot.isPending = false := congrArg Plot.pending plot
    simpa [ChoiceSlot.isPending] using pending
  · have leads : w.turn.leads = [] := congrArg Plot.leads plot
    simp [leads]
  · have story : w.turn.story = _ := congrArg Plot.story plot
    have before : w.story = (w.taken f rest).story := (congrArg Plot.story back).symm
    rw [events_eq_story, events_eq_story, story, before]
    exact List.filterMap_append

/-- What the turn of the run's fiber does for a selection on its way to it. -/
inductive Forwards (w : World) (f : Fiber) (i : Nat) (w' : World) : Prop where
  | carries : w'.Desk (some i) → w'.state = w.state → w'.events = w.events →
      w'.Nears (f.todo.map Act.span).sum ∨ w'.Watches → Forwards w f i w'
  | tells : w'.Desk none → w'.state = w.state → w'.events = w.events ++ [.choiceMade i] →
      Forwards w f i w'
  | aborts : f.doomed = true → w'.Desk none → w'.events = w.events ++ [.aborted cancellation] →
      Forwards w f i w'

section

variable {receiver i : Nat} {options : List String} (order : w.InOrder)
  (ready : w.ready = f :: rest) (role : f.role = .run r) (spared : f.doomed = false)
  (fault : f.fault = none)
include order ready role spared fault

theorem turn_answer (todo : f.todo = [.answer receiver options])
    (answered : w.slot.receipt receiver = .answered i) (pending : w.slot.pending = none)
    (within : i < options.length) : Forwards w f i w.turn := by
  obtain ⟨alone, -, -⟩ := taken_run order.staged.attended ready role
  rw [turn_perform order ready todo spared (fun _ _ => rfl) fault]
  have found : (w.taken f rest).slot.receipt receiver = .answered i := answered
  simp only [perform, performAnswer, found]
  obtain ⟨lead, waiting⟩ : (resume { w.taken f rest with slot := w.slot.mark receiver .spent }
      { f with todo := [.resync, .chosen i options] }).Doing [.resync, .chosen i options]
        w.Animates :=
    doing_resume role alone fault (List.cons_ne_nil _ _) (List.suffix_refl _)
  have near : (([.resync, .chosen i options] : List Act).map Act.span).sum <
      (f.todo.map Act.span).sum := by
    rw [todo]
    exact Nat.lt_succ_self 2
  exact .carries (.heard options i ⟨lead, waiting⟩ pending within) rfl rfl
    (.inl ⟨_, rest, rfl, f.isRun_iff.mpr ⟨r, role⟩, spared, near⟩)

theorem turn_chosen (todo : f.todo = [.chosen i options]) (pending : w.slot.pending = none) :
    w.turn.Desk none ∧ w.turn.state = w.state ∧ w.turn.events = w.events ++ [.choiceMade i] := by
  obtain ⟨alone, -, -⟩ := taken_run order.staged.attended ready role
  rw [turn_perform order ready todo spared (fun _ _ => rfl) fault]
  let x := ((w.taken f rest).remark (.choiceMade i (options.getD i ""))).emit (.choiceMade i)
  have events : x.events = w.events ++ [.choiceMade i] := by
    rw [events_emit _ (by simp), remark, events_record _ rfl]
    rfl
  exact ⟨bare_resume (w := x) (f := { f with todo := Act.closing }) role alone pending rfl, rfl,
    events⟩

end

theorem Desk.forwards {i : Nat} (desk : w.Desk (some i)) (order : w.InOrder)
    (ready : w.ready = f :: rest) (role : f.role = .run r) :
    Forwards w f i w.turn := by
  cases doomed : f.doomed with
  | true =>
    obtain ⟨bare, events⟩ := turn_doomed order ready role doomed
    exact .aborts doomed bare events
  | false =>
    have attended := order.staged.attended
    cases desk with
    | given receiver options i doing pending answered within =>
      obtain ⟨fault, a, after, todo, suffix⟩ := doing.head attended ready role
      rcases Act.suffix_opening suffix with ⟨opens, left⟩ | ⟨rfl, rfl⟩
      · have on : Proceeds w (Act.opening receiver options) w.Animates _ w.turn :=
          .opens order ready role doomed fault todo suffix left opens fun gated => ⟨gated, rfl⟩
        exact .carries (.given receiver options i (animates_of_rig on.rig ▸ on.doing)
          (on.slot ▸ pending) (on.slot ▸ answered) within) on.state on.events on.next
      · exact turn_answer order ready role doomed fault todo answered pending within
    | heard options i doing pending within =>
      obtain ⟨fault, a, after, todo, suffix⟩ := doing.head attended ready role
      rcases List.suffix_cons_iff.mp suffix with same | last
      · obtain ⟨rfl, rfl⟩ := List.cons.inj same
        have on : Proceeds w [.resync, .chosen i options] w.Animates _ w.turn :=
          .opens order ready role doomed fault todo suffix (List.cons_ne_nil _ _) rfl
            fun gated => ⟨gated, rfl⟩
        exact .carries (.heard options i (animates_of_rig on.rig ▸ on.doing) (on.slot ▸ pending)
          within) on.state on.events on.next
      · have same : a :: after = [.chosen i options] := by
          rcases List.suffix_cons_iff.mp last with same | none
          · exact same
          · cases List.suffix_nil.mp none
        obtain ⟨bare, state, events⟩ :=
          turn_chosen order ready role doomed fault (todo.trans same) pending
        exact .tells bare state events

/-- The turn of the run's fiber while an offer of it is open. -/
theorem offered_turn {receiver : Nat} {options : List String} (order : w.InOrder)
    (ready : w.ready = f :: rest) (role : f.role = .run r) (spared : f.doomed = false)
    (doing : w.Doing (Act.opening receiver options) fun t => w.Animates t ∨ t = .answer receiver)
    (pending : w.slot.pending = some ⟨receiver, options.length⟩)
    (waiting : w.slot.receipt receiver = .waiting) :
    w.turn.Desk none ∧ w.turn.events = w.events := by
  obtain ⟨fault, a, after, todo, suffix⟩ := doing.head order.staged.attended ready role
  rcases Act.suffix_opening suffix with ⟨opens, left⟩ | ⟨rfl, rfl⟩
  · have on : Proceeds w (Act.opening receiver options)
        (fun t => w.Animates t ∨ t = .answer receiver) _ w.turn :=
      .opens order ready role spared fault todo suffix left opens fun gated => .inl ⟨gated, rfl⟩
    exact ⟨.offered receiver options (animates_of_rig on.rig ▸ on.doing) (on.slot ▸ pending)
      (on.slot ▸ waiting), on.events⟩
  · obtain ⟨alone, -, -⟩ := taken_run order.staged.attended ready role
    rw [turn_perform order ready todo spared (fun _ _ => rfl) fault]
    have found : (w.taken f rest).slot.receipt receiver = .waiting := waiting
    simp only [perform, performAnswer, found]
    obtain ⟨lead, waits⟩ : ((w.taken f rest).park (.answer receiver)
        (Fiber.first { f with todo := [] } [.answer receiver options])).Doing
          (Act.opening receiver options) fun t => w.Animates t ∨ t = .answer receiver :=
      doing_park role alone fault (List.cons_ne_nil _ _) suffix (.inr rfl)
    exact ⟨.offered receiver options ⟨lead, waits⟩ pending waiting, rfl⟩

/-- The turn of the run's fiber when it comes to a choice. -/
theorem turn_offer {options : List String} (order : w.InOrder) (ready : w.ready = f :: rest)
    (role : f.role = .run r) (spared : f.doomed = false) (fault : f.fault = none)
    (todo : f.todo = .offer options :: after) (pending : w.slot.pending = none) :
    w.turn.Desk none ∧ w.turn.events = w.events := by
  have attended := order.staged.attended
  obtain ⟨alone, -, -⟩ := taken_run attended ready role
  obtain ⟨c, shown, picks, under⟩ := (order.playing (leads_taken attended ready role)).under todo
  have phase := under.phase fault
  obtain rfl : after = [] := by
    cases phase.loud todo rfl
    rfl
  rw [turn_perform order ready todo spared (fun _ _ => rfl) fault]
  unfold perform performOffer
  dsimp only
  split
  · exact ⟨bare_resume (f := Fiber.fail { f with todo := [] } _) role alone pending rfl, rfl⟩
  · have closed : (w.taken f rest).slot.close = w.slot := by
      show w.slot.close = w.slot
      rw [ChoiceSlot.close, pending]
    simp only [ChoiceSlot.offer, closed]
    obtain ⟨lead, waits⟩ : (resume { w.taken f rest with
          slot := ⟨some ⟨w.slot.receipts.size, options.length⟩, w.slot.receipts.push .waiting⟩ }
        { f with todo := Act.opening w.slot.receipts.size options }).Doing
          (Act.opening w.slot.receipts.size options)
          fun t => w.Animates t ∨ t = .answer w.slot.receipts.size :=
      doing_resume role alone fault (List.cons_ne_nil _ _) (List.suffix_refl _)
    refine ⟨.offered _ options ⟨lead, waits⟩ rfl ?_, rfl⟩
    show ChoiceSlot.receipt ⟨_, w.slot.receipts.push .waiting⟩ w.slot.receipts.size = .waiting
    simp [ChoiceSlot.receipt, Array.getD_eq_getD_getElem?]

/-- A turn of the run's fiber while no selection is on its way to it. -/
theorem Desk.idles (desk : w.Desk none) (order : w.InOrder) (ready : w.ready = f :: rest)
    (role : f.role = .run r) :
    w.turn.Desk none ∧ ∃ es, w.turn.events = w.events ++ es ∧ ∀ i, Event.choiceMade i ∉ es := by
  have quiet (turned : w.turn.Desk none ∧ w.turn.events = w.events) :
      w.turn.Desk none ∧ ∃ es, w.turn.events = w.events ++ es ∧ ∀ i, Event.choiceMade i ∉ es :=
    ⟨turned.1, [], by rw [turned.2, List.append_nil], by simp⟩
  cases doomed : f.doomed with
  | true =>
    obtain ⟨bare, events⟩ := turn_doomed order ready role doomed
    exact ⟨bare, _, events, by simp⟩
  | false =>
    cases desk with
    | offered receiver options doing pending waiting =>
      exact quiet (offered_turn order ready role doomed doing pending waiting)
    | bare pending plain =>
      have attended := order.staged.attended
      have leads : w.leads = [f.leading r] := leads_taken attended ready role
      have plain : f.todo.any Act.isReply = false :=
        plain (f.leading r) (leads ▸ List.mem_singleton_self _)
      have closed : w.plot.pending = false := by simp [plot, ChoiceSlot.isPending, pending]
      rcases (turned_turn attended ready role).1 with plays | ⟨-, receiver, options, after, todo⟩
      · rcases plays.plain closed plain with ⟨options, after, todo, fault⟩ | plain'
        · exact quiet (turn_offer order ready role doomed fault todo pending)
        · obtain ⟨shut, plain, es, events, silent⟩ := plain'
          refine ⟨.bare ?_ plain, es, ?_, silent⟩
          · have shut : w.turn.slot.isPending = false := shut
            simpa [ChoiceSlot.isPending] using shut
          · rw [events_eq_story, events_eq_story]
            exact events
      · rw [todo] at plain
        cases plain

/-! ### Selections arrive -/

/-- The selection of `i` is on its way to the choice that the run is in. -/
structure Carries (w : World) (i : Nat) : Prop where
  choice : ∃ options, w.state.command = some (.choice options) ∧ i < options.length
  closed : w.slot.pending = none
  live : ∃ f ∈ w.fibers, f.isRun = true
  /-- Nothing but an animation keeps the fiber of the run from its answer. -/
  waits : ∀ b ∈ w.blocked, b.fiber.isRun = true → w.Animates b.wait
  arrives : ∀ f rest, w.ready = f :: rest → f.isRun = true → f.doomed = false →
    ∃ n, (w.turns n).state = w.state ∧ ((w.turns n).events = w.events ++ [.choiceMade i] ∨
      (w.turns n).events = w.events ∧ (w.turns n).Watches)

theorem Desk.arrives {i : Nat} (desk : w.Desk (some i)) (order : w.InOrder) {n : Nat}
    (nears : w.Nears n) :
    ∃ k, (w.turns k).state = w.state ∧ ((w.turns k).events = w.events ++ [.choiceMade i] ∨
      (w.turns k).events = w.events ∧ (w.turns k).Watches) := by
  induction n generalizing w with
  | zero =>
    obtain ⟨f, rest, -, -, -, less⟩ := nears
    exact absurd less (Nat.not_lt_zero _)
  | succ n ih =>
    obtain ⟨f, rest, ready, run, spared, less⟩ := nears
    obtain ⟨r, role⟩ := f.isRun_iff.mp run
    have turned (k : Nat) : w.turns (k + 1) = w.turn.turns k := by
      rw [turns, ready]
      rfl
    cases desk.forwards order ready role with
    | carries desk' state events next =>
      rcases next with ⟨f', rest', ready', run', spared', less'⟩ | watches
      · have order' : w.turn.InOrder := order.beat (.lull (.turn w))
        obtain ⟨k, last⟩ := ih desk' order'
          ⟨f', rest', ready', run', spared', Nat.lt_of_lt_of_le less' (Nat.le_of_lt_succ less)⟩
        rw [state, events] at last
        exact ⟨k + 1, turned k ▸ last⟩
      · exact ⟨1, turned 0 ▸ ⟨state, .inr ⟨events, watches⟩⟩⟩
    | tells _ state events => exact ⟨1, turned 0 ▸ ⟨state, .inl events⟩⟩
    | aborts doomed =>
      rw [spared] at doomed
      cases doomed

theorem Doing.live {acts : List Act} {waits : Wait → Prop} (doing : w.Doing acts waits) :
    ∃ f ∈ w.fibers, f.isRun = true := by
  obtain ⟨l, leads, -⟩ := doing.lead
  obtain ⟨f, member, role, -⟩ := exists_of_mem_leads (leads ▸ List.mem_singleton_self l)
  exact ⟨f, member, f.isRun_iff.mpr ⟨_, role⟩⟩

theorem Desk.carries {i : Nat} (desk : w.Desk (some i)) (order : w.InOrder) : w.Carries i := by
  have arrives (f : Fiber) (rest : List Fiber) (ready : w.ready = f :: rest) (run : f.isRun = true)
      (spared : f.doomed = false) :=
    desk.arrives order ⟨f, rest, ready, run, spared, Nat.lt_succ_self _⟩
  cases desk with
  | given receiver options i doing closed answered within =>
    obtain ⟨command, -⟩ := Doing.choice (a := .answer receiver options) doing order rfl
    exact ⟨⟨options, command, within⟩, closed, doing.live, doing.waits, arrives⟩
  | heard options i doing closed within =>
    have doing' : w.Doing ([.resync] ++ [.chosen i options]) w.Animates := doing
    obtain ⟨command, -⟩ := doing'.choice order rfl
    exact ⟨⟨options, command, within⟩, closed, doing.live, doing.waits, arrives⟩

/-- The run comes to tell of a selection. -/
theorem Desk.resumes {pick : Option Nat} {i : Nat} {options : List String} (desk : w.Desk pick)
    (order : w.InOrder) (comes : w.Comes f (.chosen i options)) :
    pick = some i ∧ w.state.command = some (.choice options) ∧ i < options.length ∧
      w.turn.state = w.state ∧ w.turn.events = w.events ++ [.choiceMade i] := by
  obtain ⟨rest, after, ready, todo⟩ := comes.cons
  obtain ⟨r, role⟩ := order.run_of_act (a := .chosen i options) ready (by simp [todo]) rfl
  have attended := order.staged.attended
  have leads : w.leads = [f.leading r] := leads_taken attended ready role
  have early {receiver : Nat} {options' : List String} {waits : Wait → Prop}
      (doing : w.Doing (Act.opening receiver options') waits) : False := by
    obtain ⟨-, a, after', todo', suffix⟩ := doing.head attended ready role
    obtain ⟨rfl, -⟩ := List.cons.inj (todo.symm.trans todo')
    rcases Act.suffix_opening suffix with ⟨opens, -⟩ | ⟨answer, -⟩
    · cases opens
    · cases answer
  cases desk with
  | bare closed plain =>
    have plain : f.todo.any Act.isReply = false :=
      plain (f.leading r) (leads ▸ List.mem_singleton_self _)
    rw [todo] at plain
    cases plain
  | offered _ _ doing | given _ _ _ doing => exact (early doing).elim
  | heard options' j doing closed within =>
    obtain ⟨fault, a, after', todo', suffix⟩ := doing.head attended ready role
    obtain ⟨rfl, rfl⟩ := List.cons.inj (todo.symm.trans todo')
    simp only [List.suffix_cons_iff, List.cons.injEq, reduceCtorEq, false_and, false_or,
      Act.chosen.injEq, List.suffix_nil, or_false] at suffix
    obtain ⟨⟨rfl, rfl⟩, rfl⟩ := suffix
    obtain ⟨command, -⟩ := order.choice (a := .chosen i options) leads fault
      (by simp [Fiber.leading, todo]) rfl
    obtain ⟨-, state, events⟩ := turn_chosen order ready role comes.spared fault todo closed
    exact ⟨rfl, command, within, state, events⟩

/-! ### Callbacks -/

theorem slot_runEffect (closed : w.slot.pending = none) (busy : w.state.executing = true)
    (e : Effect) : (w.runEffect e).slot = w.slot ∧ (w.runEffect e).state.executing = true := by
  cases e with
  | note | set | add | setChosen | view | panic => exact ⟨rfl, busy⟩
  | register kind => cases kind <;> exact ⟨rfl, busy⟩
  | execute n =>
    rcases execute_cases w (w.programs.getD n (.ofCommands [])) with
      ⟨e, rm, q, rejected, -⟩ | ⟨q, idle, -⟩
    · rw [runEffect, executeNumber, rejected]
      exact ⟨rfl, busy⟩
    · rw [busy] at idle
      cases idle
  | select i =>
    rw [runEffect, select_none closed]
    exact ⟨rfl, busy⟩

theorem slot_runEffects (closed : w.slot.pending = none) (busy : w.state.executing = true)
    (es : List Effect) : (w.runEffects es).1.slot = w.slot := by
  fun_induction runEffects w es with
  | case1 | case2 => rfl
  | case3 w e rest _ ih =>
    obtain ⟨slot, busy'⟩ := slot_runEffect closed busy e
    exact (ih (slot ▸ closed) busy').trans slot

/-- No callback runs while a choice is open. -/
theorem Desk.closed {pick : Option Nat} (desk : w.Desk pick) (order : w.InOrder) {a : Act}
    {after : List Act} {x : CallbackKind × Nat} (ready : w.ready = f :: rest)
    (role : f.role = .run r) (todo : f.todo = a :: after) (asks : a.asks? = some x) :
    w.slot.pending = none := by
  cases desk with
  | bare closed | given _ _ _ _ closed | heard _ _ _ closed => exact closed
  | offered receiver options doing =>
    obtain ⟨-, b, after', todo', suffix⟩ := doing.head order.staged.attended ready role
    obtain ⟨rfl, -⟩ := List.cons.inj (todo.symm.trans todo')
    rcases Act.suffix_opening suffix with ⟨opens, -⟩ | ⟨rfl, -⟩
    · rw [Act.asks?_eq_none opens] at asks
      cases asks
    · cases asks

theorem Calls.closed {x : World} (calls : w.Calls x f) (order : w.InOrder) {pick : Option Nat}
    (desk : w.Desk pick) : x.slot.pending = none := by
  cases calls with
  | asks ready spared fault todo asks =>
    obtain ⟨r, role⟩ := order.run_of_act ready (by simp [todo]) (Act.isAside_of_asks asks)
    exact desk.closed order ready role todo asks
  | @acts _ rest action _ effects n ready spared fault todo =>
    obtain ⟨r, role⟩ := order.run_of_act (a := .action action) ready (by simp [todo]) rfl
    have closed := desk.closed order ready role todo rfl
    obtain ⟨-, -, busy⟩ := taken_run order.staged.attended ready role
    rw [slot_runEffects (w := w.taken f rest) closed busy]
    exact closed

end World

end SceneScript
