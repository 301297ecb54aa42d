import SceneScript.Proofs.Choosing
/-!
The history of a host and its choices. Every selection that was accepted is told of by the choice
that was open at the time, unless the run is aborted first, and no other word comes in between.
-/

namespace SceneScript

/-- What host and script tell each other: the events of runs, the selections that were accepted, and
what the host says was chosen. -/
inductive Happening where
  | event (e : Event)
  | picked (index : Nat)
  | set (index : Option Nat)
deriving DecidableEq, Inhabited, Repr

namespace Happening

def event? : Happening → Option Event
  | event e => some e
  | _ => none

def isDeed : Happening → Bool
  | set _ => false
  | _ => true

def word? : Happening → Option (Option Nat)
  | picked i => some (some i)
  | set index => some index
  | event _ => none

/-- `Follows last a`: after `last`, `a` may be next. A selection is for the choice that the run has
just come to, and the run tells of it next or is aborted. -/
inductive Follows : Option Happening → Happening → Prop where
  | picks (place i : Nat) : Follows (some (event (.stepped place .choice))) (picked i)
  | tells (i : Nat) : Follows (some (picked i)) (event (.choiceMade i))
  | aborts (i : Nat) : Follows (some (picked i)) (event (.aborted World.cancellation))
  | goes {last : Option Happening} {e : Event} : (∀ i, last ≠ some (picked i)) →
      (∀ i, e ≠ .choiceMade i) → Follows last (event e)

def deeds (h : List Happening) : List Happening := h.filter isDeed

def lastDeed (h : List Happening) : Option Happening := (deeds h).getLast?

/-- What was chosen last, as far as the host knows. -/
def lastWord (h : List Happening) : Option (Option Nat) := (h.filterMap word?).getLast?

def Orderly (h : List Happening) : Prop :=
  ∀ pre a post, deeds h = pre ++ a :: post → Follows pre.getLast? a

/-- The selection that the run has not told of yet. -/
def underWay (h : List Happening) : Option Nat :=
  match lastDeed h with
  | some (picked i) => some i
  | _ => none

variable {h : List Happening} {a : Happening} {i : Nat}

theorem underWay_eq_some : underWay h = some i ↔ lastDeed h = some (picked i) := by
  unfold underWay
  split <;> simp_all

theorem underWay_eq_none : underWay h = none ↔ ∀ i, lastDeed h ≠ some (picked i) := by
  unfold underWay
  split <;> simp_all

theorem deeds_concat (deed : a.isDeed = true) : deeds (h ++ [a]) = deeds h ++ [a] := by
  rw [deeds, List.filter_append, List.filter_cons_of_pos deed]
  rfl

theorem lastDeed_concat (deed : a.isDeed = true) : lastDeed (h ++ [a]) = some a := by
  rw [lastDeed, deeds_concat deed, List.getLast?_concat]

theorem Orderly.concat (orderly : Orderly h) (deed : a.isDeed = true)
    (follows : Follows (lastDeed h) a) : Orderly (h ++ [a]) := by
  intro pre b post split
  rw [deeds_concat deed] at split
  rcases List.eq_nil_or_concat post with rfl | ⟨post', c, rfl⟩
  · obtain ⟨rfl, same⟩ := List.append_inj' split rfl
    obtain rfl := (List.cons.inj same).1
    exact follows
  · rw [List.concat_eq_append, ← List.cons_append, ← List.append_assoc] at split
    exact orderly pre b post' (List.append_inj' split rfl).1

/-- Events that tell of no selection, while none is on its way. -/
theorem Orderly.events (orderly : Orderly h) (none : underWay h = none) {es : List Event}
    (silent : ∀ i, Event.choiceMade i ∉ es) :
    Orderly (h ++ es.map event) ∧ underWay (h ++ es.map event) = Option.none := by
  induction es generalizing h with
  | nil => simpa using ⟨orderly, none⟩
  | cons e es ih =>
    have follows : Follows (lastDeed h) (event e) :=
      .goes (underWay_eq_none.mp none) fun i same => silent i (same ▸ List.mem_cons_self)
    have still : underWay (h ++ [event e]) = Option.none := by
      rw [underWay, lastDeed_concat rfl]
    rw [List.map_cons, List.append_cons]
    exact ih (orderly.concat rfl follows) still fun i member =>
      silent i (List.mem_cons_of_mem _ member)

theorem events_deeds (h : List Happening) : (deeds h).filterMap event? = h.filterMap event? := by
  rw [deeds, List.filterMap_filter]
  exact List.filterMap_congr fun a _ => by cases a <;> rfl

theorem lastDeed_of_events {e : Event} (none : underWay h = none)
    (last : (h.filterMap event?).getLast? = some e) : lastDeed h = some (event e) := by
  rw [← events_deeds] at last
  rcases List.eq_nil_or_concat (deeds h) with empty | ⟨pre, a, some⟩
  · rw [empty] at last
    cases last
  have deed : lastDeed h = Option.some a := by
    rw [lastDeed, some, List.concat_eq_append, List.getLast?_concat]
  rw [some, List.concat_eq_append, List.filterMap_append] at last
  cases a with
  | event e' =>
    rw [deed]
    simpa [event?] using last
  | picked i => exact absurd deed (underWay_eq_none.mp none i)
  | set x =>
    have member : set x ∈ deeds h := by simp [some]
    cases (List.mem_filter.mp member).2

theorem events_map (es : List Event) : (es.map event).filterMap event? = es := by
  rw [List.filterMap_map]
  exact List.filterMap_some

end Happening

namespace World

open Happening

variable {w w' : World} {f : Fiber} {r : Run} {rest : List Fiber} {h : List Happening} {m : Move}

/-! ### The history -/

def happens (w : World) : Move → List Happening
  | .host (.select i) =>
    match (w.select i).2 with
    | .ok () => [.picked i]
    | .error _ => []
  | .host (.setChosen index) => [.set index]
  | m => ((w.move m).events.drop w.events.length).map .event

def history (w : World) : List Move → List Happening
  | [] => []
  | m :: ms => w.happens m ++ (w.move m).history ms

/-- What the desk has to do with the history. -/
structure Handing (h : List Happening) (w : World) : Prop where
  orderly : Orderly h
  events : h.filterMap event? = w.events
  desk : w.Desk (underWay h)
  chosen : ∀ i, underWay h = some i → lastWord h = some w.state.chosen

/-- The run may have told of something, and the history with it. -/
def Onward (h : List Happening) (w w' : World) : Prop :=
  ∃ es, w'.events = w.events ++ es ∧ Handing (h ++ es.map .event) w'

theorem Handing.same (handing : Handing h w) (desk : w'.Desk (underWay h))
    (state : w'.state = w.state) (events : w'.events = w.events) : Handing h w' :=
  ⟨handing.orderly, events ▸ handing.events, desk, state ▸ handing.chosen⟩

theorem Handing.still (handing : Handing h w) (desk : w'.Desk (underWay h))
    (state : w'.state = w.state) (events : w'.events = w.events) : Onward h w w' := by
  refine ⟨[], by rw [events, List.append_nil], ?_⟩
  rw [List.map_nil, List.append_nil]
  exact handing.same desk state events

theorem Handing.beside (handing : Handing h w) (beside : Beside w w') : Onward h w w' :=
  handing.still (handing.desk.beside beside) beside.state beside.events

theorem Handing.told (handing : Handing h w) {es : List Event} (desk : w'.Desk none)
    (events : w'.events = w.events ++ es) (orderly : Orderly (h ++ es.map .event))
    (none : underWay (h ++ es.map .event) = Option.none) : Onward h w w' := by
  refine ⟨es, events, orderly, ?_, none ▸ desk, by simp [none]⟩
  rw [List.filterMap_append, events_map, handing.events, events]

theorem Handing.silent (handing : Handing h w) (none : underWay h = Option.none) {es : List Event}
    (desk : w'.Desk Option.none) (events : w'.events = w.events ++ es)
    (silent : ∀ i, Event.choiceMade i ∉ es) : Onward h w w' := by
  obtain ⟨orderly, still⟩ := handing.orderly.events none silent
  exact handing.told desk events orderly still

theorem Handing.turn (handing : Handing h w) (order : w.InOrder) : Onward h w w.turn := by
  cases ready : w.ready with
  | nil =>
    rw [World.turn, ready]
    exact handing.still handing.desk rfl rfl
  | cons f rest =>
    cases run : f.run? with
    | none =>
      have background : f.isRun = false := by simp [Fiber.isRun, run]
      exact handing.beside (beside_turn order ready background)
    | some r =>
      have role := role_of_run? run
      have desk := handing.desk
      cases way : underWay h with
      | none =>
        rw [way] at desk
        obtain ⟨desk', es, events, silent⟩ := desk.idles order ready role
        exact handing.silent way desk' events silent
      | some i =>
        have last := underWay_eq_some.mp way
        -- The run tells of the selection, or of its end, and nothing is on its way any more.
        have ends {e : Event} (desk' : w.turn.Desk none) (events : w.turn.events = w.events ++ [e])
            (follows : Follows (lastDeed h) (.event e)) : Onward h w w.turn :=
          handing.told desk' events (handing.orderly.concat rfl follows)
            (by rw [List.map_singleton, underWay, lastDeed_concat rfl])
        rw [way] at desk
        cases desk.forwards order ready role with
        | carries desk' state events => exact handing.still (way ▸ desk') state events
        | tells desk' state events => exact ends desk' events (last ▸ .tells i)
        | aborts _ desk' events => exact ends desk' events (last ▸ .aborts i)

theorem Handing.lulls (handing : Handing h w) (order : w.InOrder) (lulls : Lulls w w') :
    Onward h w w' := by
  have run : w'.InOrder ∧ Onward h w w' := by
    induction lulls with
    | refl => exact ⟨order, handing.still handing.desk rfl rfl⟩
    | @tail x x' _ lull ih =>
      obtain ⟨order', es, events, handing'⟩ := ih
      refine ⟨order'.beat (.lull lull), ?_⟩
      have next : Onward (h ++ es.map .event) x x' := by
        cases lull with
        | turn => exact handing'.turn order'
        | publish delta keys => exact handing'.beside (keeps_publish x delta keys).beside
        | reach time => exact handing'.beside (keeps_reach x time).beside
      obtain ⟨es', events', last⟩ := next
      refine ⟨es ++ es', by rw [events', events, List.append_assoc], ?_⟩
      rw [List.map_append, ← List.append_assoc]
      exact last
  exact run.2

/-! ### Steps of the host -/

theorem Handing.execute (handing : Handing h w) (order : w.InOrder) (n : Nat) :
    Onward h w (w.apply (.execute n)).1 := by
  have attended := order.staged.attended
  rcases execute_cases_plot w n order.actor attended with
    ⟨e, failed, -⟩ | ⟨q, q', idle, -, -, -, -, plot⟩
  · rcases execute_cases w (w.programs.getD n (.ofCommands [])) with
      ⟨e, rm, q, rejected, -⟩ | ⟨q, -, -, -, accepted⟩
    · have same : (w.apply (.execute n)).1 =
          { w.remark rm with programs := w.programs.setIfInBounds n q } := by
        show (w.executeNumber n).1 = _
        rw [executeNumber, rejected]
        rfl
      rw [same]
      obtain ⟨rig, state, slot, leads, story, waits⟩ := (keeps_remark w rm).beside
      exact handing.beside ⟨rig, state, slot, leads, story, waits⟩
    · have done : (w.apply (.execute n)).2 = .number w.runs := by
        show reply .number (w.executeNumber n).2 = _
        rw [executeNumber, accepted]
        rfl
      rw [done] at failed
      cases failed
  · have alone : w.leads = [] := by
      by_contra busy
      have executing : w.state.executing = true := attended.2.mpr busy
      rw [idle] at executing
      cases executing
    obtain ⟨none, pending⟩ := handing.desk.idle alone
    have none_told (i : Nat) : Event.choiceMade i ∉ [.started w.runs] := by simp
    refine handing.silent none (.bare ?_ fun l member => ?_) ?_ none_told
    · have shut : (w.apply (.execute n)).1.slot.isPending = w.slot.isPending :=
        congrArg Plot.pending plot
      simpa [ChoiceSlot.isPending, pending] using shut
    · have leads : (w.apply (.execute n)).1.leads = _ := congrArg Plot.leads plot
      obtain rfl := List.mem_singleton.mp (leads ▸ member)
      rfl
    · have story : (w.apply (.execute n)).1.story = _ := congrArg Plot.story plot
      rw [events_eq_story, events_eq_story, story]
      exact List.filterMap_append

theorem Handing.setChosen (handing : Handing h w) (index : Option Nat) :
    Handing (h ++ [.set index]) (w.setChosen index) := by
  have deeds : deeds (h ++ [.set index]) = deeds h := by simp [Happening.deeds, isDeed]
  have way : underWay (h ++ [.set index]) = underWay h := by
    rw [underWay, lastDeed, deeds]
    rfl
  refine ⟨?_, ?_, ?_, fun i some => ?_⟩
  · rw [Orderly, deeds]
    exact handing.orderly
  · rw [List.filterMap_append, handing.events]
    exact List.append_nil _
  · rw [way]
    exact handing.desk.setChosen index
  · rw [lastWord, List.filterMap_append]
    exact List.getLast?_concat

theorem Handing.select (handing : Handing h w) (order : w.InOrder) (i : Nat) :
    Handing (h ++ w.happens (.host (.select i))) (w.select i).1 := by
  have refused {e : Failure}
      (rejected : w.select i = (w.remark (.selectionRejected i e), .error e)) :
      Handing (h ++ w.happens (.host (.select i))) (w.select i).1 := by
    obtain beside : Beside w (w.remark (.selectionRejected i e)) := (keeps_remark w _).beside
    rw [happens, rejected, List.append_nil]
    exact handing.same (handing.desk.beside beside) beside.state beside.events
  cases pending : w.slot.pending with
  | none => exact refused (select_none pending i)
  | some offer =>
    by_cases within : i < offer.available
    · obtain ⟨none, options, -, -, stepped⟩ := handing.desk.choice order pending
      have last : lastDeed h = some (.event (.stepped w.state.pointer .choice)) :=
        lastDeed_of_events none (handing.events ▸ stepped)
      have way : underWay (h ++ [.picked i]) = some i :=
        underWay_eq_some.mpr (lastDeed_concat rfl)
      rw [happens, select_taking pending handing.desk.attends within]
      refine ⟨handing.orderly.concat rfl (last ▸ .picks _ i), ?_, ?_, fun j some => ?_⟩
      · rw [List.filterMap_append, handing.events]
        exact List.append_nil _
      · rw [way]
        exact (handing.desk.taking pending within).2
      · rw [lastWord, List.filterMap_append]
        exact List.getLast?_concat
    · exact refused (select_beyond pending (Nat.not_lt.mp within))

theorem Handing.move (handing : Handing h w) (order : w.InOrder) (m : Move) :
    Handing (h ++ w.happens m) (w.move m) := by
  have onward (onward : Onward h w (w.move m)) :
      Handing (h ++ ((w.move m).events.drop w.events.length).map .event) (w.move m) := by
    obtain ⟨es, events, next⟩ := onward
    rwa [events, List.drop_left]
  cases m with
  | turn => exact onward (handing.turn order)
  | host s =>
    cases s with
    | select i => exact handing.select order i
    | setChosen index => exact handing.setChosen index
    | execute n => exact onward (handing.execute order n)
    | tick | burst | sleep => exact onward (handing.lulls order (lulls_apply w rfl))
    | _ =>
      refine onward (handing.beside (Keeps.beside ?_))
      exact keeps_brief w rfl rfl

theorem handing_after (handing : Handing h w) (order : w.InOrder) (ms : List Move) :
    Handing (h ++ w.history ms) (w.after ms) := by
  induction ms generalizing h w with
  | nil => simpa [history, after] using handing
  | cons m ms ih =>
    rw [history, ← List.append_assoc]
    exact ih (handing.move order m) (order.beats (beats_move w m))

theorem handing_opening (o : Opening) : Handing [] o.world where
  orderly := fun pre a post none => by simp [deeds] at none
  events := rfl
  desk := .bare rfl (by simp [leads, fibers, Opening.world, new])
  chosen := fun i some => by cases some

/-! ### Every selection of every host -/

/-- What the host may rely on after the history `h`, about the selections it made and those it makes
next. -/
structure HandedOver (h : List Happening) (w : World) : Prop where
  events : h.filterMap Happening.event? = w.events
  /-- A selection that is accepted comes right after the step of its choice. Right after it the
  choice is told of, or the run is aborted. -/
  orderly : ∀ pre a post, deeds h = pre ++ a :: post → Follows pre.getLast? a
  offered : ∀ offer, w.slot.pending = some offer → ∃ options,
    w.state.command = some (.choice options) ∧ offer.available = options.length ∧
      lastDeed h = some (.event (.stepped w.state.pointer .choice))
  answers : ∀ i, w.Answers i
  /-- Inside a callback no choice is open. -/
  inside : ∀ x f, w.Calls x f → x.slot.pending = none ∧ ∀ i, x.Answers i
  carried : ∀ i, lastDeed h = some (.picked i) → w.Carries i ∧ lastWord h = some w.state.chosen
  resumes : ∀ f i options, w.Comes f (.chosen i options) → lastDeed h = some (.picked i) ∧
    w.state.command = some (.choice options) ∧ i < options.length ∧ w.turn.state = w.state ∧
      w.turn.events = w.events ++ [.choiceMade i]

/-- Every selection that is accepted is handed to the choice that was open, and to no other. -/
theorem selections_are_handed_over (o : Opening) (ms : List Move) :
    HandedOver (o.world.history ms) (o.world.after ms) := by
  have order := inOrder_after o ms
  have handing : Handing (o.world.history ms) (o.world.after ms) :=
    handing_after (handing_opening o) (inOrder_opening o) ms
  generalize o.world.after ms = w at order handing
  generalize o.world.history ms = h at handing
  have desk := handing.desk
  refine ⟨handing.events, handing.orderly, fun offer some => ?_, desk.attends.answers,
    fun x f calls => ?_, fun i last => ?_, fun f i options comes => ?_⟩
  · obtain ⟨none, options, command, available, stepped⟩ := desk.choice order some
    exact ⟨options, command, available, lastDeed_of_events none (handing.events ▸ stepped)⟩
  · have closed := calls.closed order desk
    have attends : x.Attends := fun offer open' => by
      rw [closed] at open'
      cases open'
    exact ⟨closed, attends.answers⟩
  · have way := underWay_eq_some.mpr last
    rw [way] at desk
    exact ⟨desk.carries order, handing.chosen i way⟩
  · obtain ⟨way, resumed⟩ := desk.resumes order comes
    exact ⟨underWay_eq_some.mp way, resumed⟩

/-- The host picks while the box is still opening, and changes its mind about what was chosen. -/
example :
    let o : Opening := ⟨default, { (default : Rig) with gatedStage := true }, 8, default, default,
      [[.choice ["stay", "leave"]]]⟩
    o.world.history (.host (.execute 0) :: List.replicate 6 .turn ++
        [.host (.select 2), .host (.select 1), .host (.select 0), .host (.setChosen none),
          .host (.finishAnimation 1)] ++ List.replicate 5 .turn) =
      [.event (.started 0), .event (.stepped 0 .choice), .picked 1, .set none,
        .event (.choiceMade 1)] := by
  rfl

end World

end SceneScript
