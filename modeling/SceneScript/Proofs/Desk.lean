import Mathlib.Algebra.GroupWithZero.Nat
import SceneScript.Proofs.Screen
import SceneScript.Proofs.Sight
/-!
The desk over which the host hands a selection to the script. A choice puts an offer on it; a
selection takes the offer away and leaves an answer for the fiber that made it, and for no other.
-/

namespace SceneScript

namespace Act

/-- The options that were offered, for the acts that only an offer leads to. -/
def offered? : Act → Option (List String)
  | .answer _ options | .chosen _ options => some options
  | _ => none

def isReply (a : Act) : Bool := a.offered?.isSome

/-- Acts that open the box of a choice. -/
def opens : Act → Bool
  | .stage _ | .finish _ | .resync => true
  | _ => false

/-- How many turns it may take until an act of a choice is done. An answer, once it is there, is
still to be told. -/
def span : Act → Nat
  | .answer .. => 3
  | _ => 1

theorem isReply_eq_false_of_isAside {a : Act} (aside : a.isAside = true) : a.isReply = false := by
  cases a <;> first | rfl | cases aside

theorem asks?_eq_none {a : Act} (opens : a.opens = true) : a.asks? = none := by
  cases a <;> first | rfl | cases opens

theorem suffix_opening {a : Act} {after : List Act} {options : List String} {receiver : Nat}
    (todo : a :: after <:+ opening receiver options) :
    a.opens = true ∧ after ≠ [] ∨ a = .answer receiver options ∧ after = [] := by
  simp only [opening, Command.animate, List.cons_append, List.nil_append, List.suffix_cons_iff,
    List.cons.injEq, List.suffix_nil] at todo
  rcases todo with
    ⟨rfl, rfl⟩ | ⟨rfl, rfl⟩ | ⟨rfl, rfl⟩ | ⟨rfl, rfl⟩ | ⟨rfl, rfl⟩ | ⟨rfl, rfl⟩ | none
  · exact .inl ⟨rfl, List.cons_ne_nil _ _⟩
  · exact .inl ⟨rfl, List.cons_ne_nil _ _⟩
  · exact .inl ⟨rfl, List.cons_ne_nil _ _⟩
  · exact .inl ⟨rfl, List.cons_ne_nil _ _⟩
  · exact .inl ⟨rfl, List.cons_ne_nil _ _⟩
  · exact .inr ⟨rfl, rfl⟩
  · cases none

end Act

theorem Command.any_isReply_acts (c : Command) (settings : Settings) (page : Page) :
    (c.acts settings page).any Act.isReply = false := by
  cases c with
  | boxState opening => cases opening <;> rfl
  | image layer texture => cases texture <;> rfl
  | portrait place texture => cases texture <;> rfl
  | _ => rfl

namespace World

variable {w w' : World} {f : Fiber} {r : Run} {rest : List Fiber} {a : Act}
  {acts after : List Act} {waits : Wait → Prop}

/-! ### Selections -/

/-- Whoever made the offer is still there to hear of a selection. -/
def Attends (w : World) : Prop :=
  ∀ offer, w.slot.pending = some offer → w.slot.receipt offer.receiver = .waiting

/-- The offer is taken. -/
def taking (w : World) (offer : Offer) (i : Nat) : World :=
  { w with
    slot := { w.slot.mark offer.receiver (.answered i) with pending := none }
    state := { w.state with chosen := some i } }.wake fun b => b.wait == Wait.answer offer.receiver

theorem select_none (none : w.slot.pending = none) (i : Nat) :
    w.select i = (w.remark (.selectionRejected i .noPendingChoice), .error .noPendingChoice) := by
  rw [select, ChoiceSlot.select, none]

theorem select_beyond {offer : Offer} (pending : w.slot.pending = some offer) {i : Nat}
    (beyond : offer.available ≤ i) :
    w.select i = (w.remark (.selectionRejected i (.choiceOutOfRange i offer.available)),
      .error (.choiceOutOfRange i offer.available)) := by
  simp only [select, ChoiceSlot.select, pending, if_pos beyond]

theorem select_taking {offer : Offer} (pending : w.slot.pending = some offer)
    (attends : w.Attends) {i : Nat} (within : i < offer.available) :
    w.select i = (w.taking offer i, .ok ()) := by
  simp only [select, ChoiceSlot.select, pending, if_neg (Nat.not_le.mpr within),
    attends offer pending, if_pos, Option.map_some, Option.getD_some, taking]

/-- How selections are answered: in the range of the offer they succeed, and a failure says what is
wrong and leaves everything as it is. -/
structure Answers (w : World) (i : Nat) : Prop where
  accepts : (w.select i).2 = .ok () ↔ ∃ offer, w.slot.pending = some offer ∧ i < offer.available
  nothing : (w.select i).2 = .error .noPendingChoice ↔ w.slot.pending = none
  beyond : ∀ j n, (w.select i).2 = .error (.choiceOutOfRange j n) ↔
    j = i ∧ ∃ offer, w.slot.pending = some offer ∧ offer.available = n ∧ n ≤ i
  unchanged : ∀ e, (w.select i).2 = .error e → (w.select i).1 = w.remark (.selectionRejected i e)

theorem Attends.answers (attends : w.Attends) (i : Nat) : w.Answers i := by
  cases pending : w.slot.pending with
  | none =>
    have refused := select_none pending i
    refine ⟨?_, ?_, fun j n => ?_, fun e failed => ?_⟩
    · simp [refused, pending]
    · simp [refused, pending]
    · simp [refused, pending]
    · rw [refused] at failed ⊢
      cases failed
      rfl
  | some offer =>
    by_cases within : i < offer.available
    · have accepted := select_taking pending attends within
      refine ⟨?_, ?_, fun j n => ?_, fun e failed => ?_⟩
      · simp [accepted, pending, within]
      · simp [accepted, pending]
      · simp only [accepted, pending, reduceCtorEq, Option.some.injEq, false_iff]
        rintro ⟨-, _, rfl, rfl, beyond⟩
        exact absurd within (Nat.not_lt.mpr beyond)
      · rw [accepted] at failed
        cases failed
    · have refused := select_beyond pending (Nat.not_lt.mp within)
      refine ⟨?_, ?_, fun j n => ?_, fun e failed => ?_⟩
      · simp [refused, pending, Nat.not_lt.mp within]
      · simp [refused, pending]
      · simp only [refused, pending, Except.error.injEq, Failure.choiceOutOfRange.injEq,
          Option.some.injEq, exists_eq_left']
        constructor
        · rintro ⟨rfl, rfl⟩
          exact ⟨rfl, rfl, Nat.not_lt.mp within⟩
        · rintro ⟨rfl, rfl, -⟩
          exact ⟨rfl, rfl⟩
      · rw [refused] at failed ⊢
        cases failed
        rfl

/-! ### Work beside the run -/

/-- `w'` comes from `w` by work that has nothing to do with the run. -/
structure Beside (w w' : World) : Prop where
  rig : w'.rig = w.rig
  state : w'.state = w.state
  slot : w'.slot = w.slot
  leads : w'.leads.Perm w.leads
  story : w'.story = w.story
  waits : ∀ b ∈ w'.blocked, b.fiber.isRun = true →
    ∃ b' ∈ w.blocked, b'.fiber.isRun = true ∧ b'.wait = b.wait

theorem Beside.trans {w'' : World} (first : Beside w w') (second : Beside w' w'') :
    Beside w w'' where
  rig := second.rig.trans first.rig
  state := second.state.trans first.state
  slot := second.slot.trans first.slot
  leads := second.leads.trans first.leads
  story := second.story.trans first.story
  waits b member run := by
    obtain ⟨b', member', run', wait'⟩ := second.waits b member run
    obtain ⟨b'', member'', run'', wait''⟩ := first.waits b' member' run'
    exact ⟨b'', member'', run'', wait''.trans wait'⟩

theorem Keeps.beside (kept : Keeps True w w') : Beside w w' where
  rig := kept.rig
  state := (kept.script trivial).1
  slot := (kept.script trivial).2.1
  leads := kept.leads
  story := kept.story
  waits b member run := by
    obtain ⟨b', member', wait, calm⟩ := kept.blocked b member
    refine ⟨b', member', ?_, wait⟩
    rw [← Fiber.calm_isRun, calm]
    exact run

theorem beside_taken (ready : w.ready = f :: rest) (background : f.isRun = false) :
    Beside w (w.taken f rest) := by
  have plot : (w.taken f rest).plot = w.plot := by
    rw [← plot_resume_background background, resume_taken ready]
    rfl
  exact ⟨rfl, rfl, rfl, .of_eq (congrArg Plot.leads plot), congrArg Plot.story plot,
    fun b member run => ⟨b, member, run, rfl⟩⟩

theorem Left.beside (left : Left f w w') (background : f.isRun = false) : Beside w w' := by
  cases left with
  | gone => exact (Keeps.refl w).beside
  | goes follows =>
    have plot := plot_resume_background (w := w) (follows.isRun.trans background)
    exact ⟨rfl, rfl, rfl, .of_eq (congrArg Plot.leads plot), congrArg Plot.story plot,
      fun b member run => ⟨b, member, run, rfl⟩⟩
  | waits wait follows =>
    have idle := follows.isRun.trans background
    have plot := plot_park_background (w := w) wait idle
    refine ⟨rfl, rfl, rfl, .of_eq (congrArg Plot.leads plot), congrArg Plot.story plot,
      fun b member run => ?_⟩
    rcases List.mem_append.mp member with member | member
    · exact ⟨b, member, run, rfl⟩
    · rw [List.mem_singleton.mp member, idle] at run
      cases run

/-- The turn of a fiber in the background. -/
theorem beside_turn (order : w.InOrder) (ready : w.ready = f :: rest)
    (background : f.isRun = false) : Beside w w.turn := by
  have dutiful : f.Dutiful := order.crewed.dutiful f.calm (calm_mem_crew ready)
  obtain ⟨w₁, kept, left⟩ := advance_background (w.taken f rest) background dutiful
  obtain ⟨rig, state, slot, leads, story, waits⟩ :=
    ((beside_taken ready background).trans kept.beside).trans (left.beside background)
  rw [turn_cons ready]
  exact ⟨rig, state, slot, leads, story, waits⟩

theorem Beside.events (beside : Beside w w') : w'.events = w.events := by
  rw [events_eq_story, events_eq_story, beside.story]

/-! ### The fiber of the run in a choice -/

/-- The fiber of the run still has these acts to do, or the last of them, and waits for nothing but
what they wait for. -/
structure Doing (w : World) (acts : List Act) (waits : Wait → Prop) : Prop where
  lead : ∃ l, w.leads = [l] ∧ l.fault = none ∧ l.todo ≠ [] ∧ l.todo <:+ acts
  waits : ∀ b ∈ w.blocked, b.fiber.isRun = true → waits b.wait

theorem Doing.beside (doing : w.Doing acts waits) (beside : Beside w w') : w'.Doing acts waits where
  lead := by
    obtain ⟨l, leads, going⟩ := doing.lead
    exact ⟨l, List.perm_singleton.mp (leads ▸ beside.leads), going⟩
  waits b member run := by
    obtain ⟨b', member', run', wait⟩ := beside.waits b member run
    exact wait ▸ doing.waits b' member' run'

theorem Doing.head (doing : w.Doing acts waits) (attended : w.plot.Attended)
    (ready : w.ready = f :: rest) (role : f.role = .run r) :
    f.fault = none ∧ ∃ a after, f.todo = a :: after ∧ a :: after <:+ acts := by
  obtain ⟨l, leads, fault, left, todo⟩ := doing.lead
  obtain rfl : l = f.leading r :=
    (List.cons.inj (leads.symm.trans (leads_taken attended ready role))).1
  obtain ⟨a, after, some⟩ := List.exists_cons_of_ne_nil left
  have some : f.todo = a :: after := some
  exact ⟨fault, a, after, some, some ▸ todo⟩

theorem isRun_eq_false_of_leads (alone : w.leads = []) (member : f ∈ w.fibers) :
    f.isRun = false := by
  rw [← isSome_lead?, List.filterMap_eq_nil_iff.mp alone f member]
  rfl

theorem doing_resume (role : f.role = .run r) (alone : w.leads = []) (fault : f.fault = none)
    (left : f.todo ≠ []) (todo : f.todo <:+ acts) : (w.resume f).Doing acts waits where
  lead := ⟨_, congrArg Plot.leads (plot_resume role alone), fault, left, todo⟩
  waits b member run := by
    have parked : b.fiber ∈ w.fibers := List.mem_append_right _ (List.mem_map_of_mem member)
    rw [isRun_eq_false_of_leads alone parked] at run
    cases run

theorem doing_park {wait : Wait} (role : f.role = .run r) (alone : w.leads = [])
    (fault : f.fault = none) (left : f.todo ≠ []) (todo : f.todo <:+ acts) (waiting : waits wait) :
    (w.park wait f).Doing acts waits where
  lead := ⟨_, congrArg Plot.leads (plot_park wait role alone), fault, left, todo⟩
  waits b member run := by
    rcases List.mem_append.mp member with member | member
    · have parked : b.fiber ∈ w.fibers := List.mem_append_right _ (List.mem_map_of_mem member)
      rw [isRun_eq_false_of_leads alone parked] at run
      cases run
    · rw [List.mem_singleton.mp member]
      exact waiting

/-- The fiber of the run is next, and its choice takes it fewer turns than that. -/
def Nears (w : World) (n : Nat) : Prop :=
  ∃ f rest, w.ready = f :: rest ∧ f.isRun = true ∧ f.doomed = false ∧
    (f.todo.map Act.span).sum < n

/-- The fiber of the run waits for the end of an animation, and none has ended. -/
def Watches (w : World) : Prop :=
  w.permits = 0 ∧ ∃ b ∈ w.blocked, b.fiber.isRun = true ∧ b.wait = .permit

/-- In its turn the fiber of the run did an act that opens the box of its choice. -/
structure Proceeds (w : World) (acts : List Act) (waits : Wait → Prop) (n : Nat) (w' : World) :
    Prop where
  doing : w'.Doing acts waits
  rig : w'.rig = w.rig
  slot : w'.slot = w.slot
  state : w'.state = w.state
  events : w'.events = w.events
  next : w'.Nears n ∨ w'.Watches

theorem events_record (w : World) {d : Deed} (silent : d.event? = none) :
    (w.record d).events = w.events := by
  have none : [(⟨w.actor, d⟩ : Entry)].filterMap Entry.event? = [] :=
    List.filterMap_cons_none silent
  rw [events, entries_record, List.filterMap_append, none, List.append_nil]
  rfl

theorem events_emit (w : World) {e : Event} (told : e ≠ .countdownTimedOut) :
    (w.emit e).events = w.events ++ [e] := by
  have some : [(⟨w.actor, .event e⟩ : Entry)].filterMap Entry.event? = [e] := rfl
  rw [events, emit, entries_record, List.filterMap_append, some, List.filter_append,
    List.filter_cons_of_pos (by simpa using told)]
  rfl

theorem Proceeds.resume {w₂ : World} {n : Nat} (role : f.role = .run r) (alone : w₂.leads = [])
    (spared : f.doomed = false) (fault : f.fault = none) (left : f.todo ≠ [])
    (todo : f.todo <:+ acts) (rig : w₂.rig = w.rig) (slot : w₂.slot = w.slot)
    (state : w₂.state = w.state) (events : w₂.events = w.events)
    (less : (f.todo.map Act.span).sum < n) :
    Proceeds w acts waits n { w₂.resume f with actor := none } := by
  obtain ⟨lead, waits⟩ : (w₂.resume f).Doing acts waits := doing_resume role alone fault left todo
  exact ⟨⟨lead, waits⟩, rig, slot, state, events,
    .inl ⟨f, _, rfl, f.isRun_iff.mpr ⟨r, role⟩, spared, less⟩⟩

theorem Proceeds.opens (order : w.InOrder) (ready : w.ready = f :: rest) (role : f.role = .run r)
    (spared : f.doomed = false) (fault : f.fault = none) (todo : f.todo = a :: after)
    (suffix : a :: after <:+ acts) (left : after ≠ []) (opens : a.opens = true)
    (permit : w.rig.gatedStage = true → waits .permit) :
    Proceeds w acts waits (f.todo.map Act.span).sum w.turn := by
  obtain ⟨alone, -, -⟩ := taken_run order.staged.attended ready role
  have later : after <:+ acts := (List.suffix_cons a after).trans suffix
  have foreign (target : Target) (scope : Nat) : (Role.tween target scope).allows a = false := by
    cases a <;> first | rfl | cases opens
  have less : (after.map Act.span).sum < (f.todo.map Act.span).sum := by
    rw [todo, List.map_cons, List.sum_cons]
    cases a <;> first | exact Nat.lt_add_of_pos_left Nat.one_pos | cases opens
  rw [turn_perform order ready todo spared foreign fault]
  cases a with
  | stage call =>
    have leads : ((w.taken f rest).stage call).leads = [] := alone
    exact .resume role leads spared fault left later rfl rfl rfl (events_record _ rfl) less
  | resync =>
    exact .resume (f := Fiber.setCursor { f with todo := after } .own w.feed.subscribe) role
      alone spared fault left later rfl rfl rfl rfl less
  | finish animation =>
    unfold perform performFinish
    dsimp only
    split
    · rename_i held
      obtain ⟨gated, permits⟩ : w.rig.gatedStage = true ∧ w.permits = 0 := by
        simpa [taken] using held
      have same : Fiber.first { f with todo := after } [.finish animation] = f := by
        cases f
        simp_all [Fiber.first]
      rw [same]
      obtain ⟨lead, waiting⟩ : ((w.taken f rest).park .permit f).Doing acts waits :=
        doing_park role alone fault (by simp [todo]) (todo ▸ suffix) (permit gated)
      have parked : (⟨.permit, f⟩ : Parked) ∈ w.blocked ++ [⟨.permit, f⟩] :=
        List.mem_append_right _ List.mem_cons_self
      exact ⟨⟨lead, waiting⟩, rfl, rfl, rfl, rfl,
        .inr ⟨permits, _, parked, f.isRun_iff.mpr ⟨r, role⟩, rfl⟩⟩
    · split
      · exact .resume role alone spared fault left later rfl rfl rfl (events_record _ rfl) less
      · exact .resume role alone spared fault left later rfl rfl rfl (events_record _ rfl) less
  | _ => cases opens

/-! ### The desk -/

/-- Where the stage takes its time, a fiber may wait for the end of an animation. -/
def Animates (w : World) (t : Wait) : Prop := w.rig.gatedStage = true ∧ t = .permit

theorem animates_of_rig (rig : w'.rig = w.rig) : w'.Animates = w.Animates := by
  unfold Animates
  rw [rig]

/-- Where a selection stands; `some i` if it was made and the fiber of the run has yet to tell. -/
inductive Desk (w : World) : Option Nat → Prop where
  | bare : w.slot.pending = none → (∀ l ∈ w.leads, l.todo.any Act.isReply = false) → Desk w none
  | offered (receiver : Nat) (options : List String) :
      w.Doing (Act.opening receiver options) (fun t => w.Animates t ∨ t = .answer receiver) →
      w.slot.pending = some ⟨receiver, options.length⟩ → w.slot.receipt receiver = .waiting →
      Desk w none
  | given (receiver : Nat) (options : List String) (i : Nat) :
      w.Doing (Act.opening receiver options) w.Animates → w.slot.pending = none →
      w.slot.receipt receiver = .answered i → i < options.length → Desk w (some i)
  | heard (options : List String) (i : Nat) :
      w.Doing [.resync, .chosen i options] w.Animates → w.slot.pending = none →
      i < options.length → Desk w (some i)

variable {pick : Option Nat}

theorem Desk.beside (desk : w.Desk pick) (beside : Beside w w') : w'.Desk pick := by
  have slot := beside.slot
  have same := animates_of_rig beside.rig
  cases desk with
  | bare pending plain =>
    exact .bare (slot ▸ pending) fun l member => plain l (beside.leads.mem_iff.mp member)
  | offered receiver options doing pending waiting =>
    exact .offered receiver options (same ▸ doing.beside beside) (slot ▸ pending) (slot ▸ waiting)
  | given receiver options i doing pending answered within =>
    exact .given receiver options i (same ▸ doing.beside beside) (slot ▸ pending)
      (slot ▸ answered) within
  | heard options i doing pending within =>
    exact .heard options i (same ▸ doing.beside beside) (slot ▸ pending) within

theorem Desk.attends (desk : w.Desk pick) : w.Attends := by
  intro offer some
  cases desk with
  | offered receiver options doing pending waiting =>
    rw [pending] at some
    cases some
    exact waiting
  | bare pending | given _ _ _ _ pending | heard _ _ _ pending =>
    rw [pending] at some
    cases some

/-- Without a run there is no offer. -/
theorem Desk.idle (desk : w.Desk pick) (alone : w.leads = []) :
    pick = none ∧ w.slot.pending = none := by
  cases desk with
  | bare pending => exact ⟨rfl, pending⟩
  | offered _ _ doing | given _ _ _ doing | heard _ _ doing =>
    obtain ⟨l, leads, -⟩ := doing.lead
    rw [alone] at leads
    cases leads

theorem Desk.taking (desk : w.Desk pick) {offer : Offer} (some : w.slot.pending = some offer)
    {i : Nat} (within : i < offer.available) :
    pick = none ∧ (w.taking offer i).Desk (Option.some i) := by
  cases desk with
  | bare pending | given _ _ _ _ pending | heard _ _ _ pending =>
    rw [pending] at some
    cases some
  | offered receiver options doing pending waiting =>
    obtain rfl := Option.some.inj (pending.symm.trans some)
    refine ⟨rfl, .given receiver options i ⟨?_, fun b member run => ?_⟩ rfl ?_ within⟩
    · obtain ⟨l, leads, going⟩ := doing.lead
      have woken : Keeps True _ (w.taking ⟨receiver, options.length⟩ i) := keeps_wake _ _
      exact ⟨l, List.perm_singleton.mp (leads ▸ woken.leads), going⟩
    · obtain ⟨member, still⟩ := List.mem_filter.mp member
      rcases doing.waits b member run with permit | answer
      · exact permit
      · simp [answer] at still
    · have bound : receiver < w.slot.receipts.size := by
        by_contra outside
        rw [ChoiceSlot.receipt, Array.getD_eq_getD_getElem?, Array.getElem?_eq_none
          (Nat.not_lt.mp outside)] at waiting
        cases waiting
      show (w.slot.mark receiver (.answered i)).receipt receiver = .answered i
      simp [ChoiceSlot.receipt, ChoiceSlot.mark, Array.getD_eq_getD_getElem?, bound]

theorem Desk.setChosen (desk : w.Desk pick) (index : Option Nat) :
    (w.setChosen index).Desk pick := by
  cases desk with
  | bare pending plain => exact .bare pending plain
  | offered receiver options doing pending waiting =>
    exact .offered receiver options ⟨doing.lead, doing.waits⟩ pending waiting
  | given receiver options i doing pending answered within =>
    exact .given receiver options i ⟨doing.lead, doing.waits⟩ pending answered within
  | heard options i doing pending within =>
    exact .heard options i ⟨doing.lead, doing.waits⟩ pending within

end World

end SceneScript
