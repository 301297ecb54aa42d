import SceneScript.Proofs.Cancel
import SceneScript.Proofs.SceneChange
/-!
Loads, the flag that keeps them apart, the mask over the host's input, and the board. The flag is up
exactly while a load is past the check. A load that falls lets go of the flag but not of the mask,
and one whose scene could not be entered leaves the board as it covered it.
-/

namespace SceneScript

/-- What becomes of the feed when no fiber has a turn. -/
inductive Feed.Moves (kept : Nat) (feed : Feed) : Feed → Prop where
  | stays : Moves kept feed feed
  | publishes (delta : Span) (keys : Keys) : Moves kept feed (feed.publish delta keys)
  | drops : kept < feed.sources → Moves kept feed { feed with sources := feed.sources - 1 }

namespace World

variable {w w' : World} {f : Fiber} {job : SceneJob}

/-! ### Work of the host -/

theorem curtain_publish (w : World) (delta : Span) (keys : Keys) :
    (w.publish delta keys).curtain = { w.curtain with feed := w.feed.publish delta keys } := by
  unfold publish
  dsimp only
  exact curtain_chores ((chores_record _ rfl).trans (chores_wake _ _))

theorem curtain_reach (w : World) (time : Span) : (w.reach time).curtain = w.curtain :=
  curtain_chores (chores_reach w time)

theorem curtain_brief (w : World) {s : HostStep} (brief : s.isBrief = true)
    (other : s ≠ .dropClock) : (w.apply s).1.curtain = w.curtain := by
  cases s with
  | tick | burst | sleep => cases brief
  | dropClock => exact absurd rfl other
  | setVar | failScenes | setChosen | look => rfl
  | execute n => exact curtain_chores (chores_executeNumber w n rfl)
  | select index => exact curtain_chores (chores_select w index)
  | abort | abortLoad => exact curtain_chores (chores_abortFiber w _)
  | finishAnimation n => exact curtain_chores (chores_grantPermits w n)
  | release => exact curtain_chores (chores_grantRelease w rfl)
  | cancelSideEffects => exact curtain_chores (chores_cancelSideEffects w)
  | play channel clip pitch => exact curtain_chores (chores_play w channel clip pitch fun _ => rfl)
  | fadeOut channel span => exact curtain_chores (chores_fadeOut w channel span fun _ => rfl)
  | stopChannel channel => exact curtain_chores (chores_stopChannel w channel rfl)
  | load | boardIn | boardOut => exact curtain_chores (chores_spawnLoad w rfl)

/-- `w'` comes from `w` by work of the host alone. -/
structure Hosted (w w' : World) : Prop where
  keeps : Keeps False w w'
  feed : Feed.Moves w.rig.keptSources w.feed w'.feed
  curtain : w'.curtain = { w.curtain with feed := w'.feed }

theorem Hosted.of_curtain (kept : Keeps False w w') (same : w'.curtain = w.curtain) :
    Hosted w w' := by
  have feed : w'.feed = w.feed := congrArg Curtain.feed same
  exact ⟨kept, feed ▸ .stays, by rw [feed]; exact same⟩

theorem hosted_dropClock (w : World) : Hosted w w.dropClock := by
  have kept : Keeps False w w.dropClock := keeps_of_isBrief w (s := .dropClock) rfl
  unfold dropClock at kept ⊢
  split at kept
  · rename_i spare
    rw [if_pos spare]
    exact ⟨kept, .drops spare, rfl⟩
  · rename_i last
    rw [if_neg last]
    exact .of_curtain kept rfl

theorem beat_cases (beat : Beat w w') : w' = w.turn ∨ Hosted w w' := by
  cases beat with
  | lull lull =>
    cases lull with
    | turn => exact .inl rfl
    | publish delta keys =>
      exact .inr ⟨keeps_publish w delta keys, .publishes delta keys, curtain_publish w delta keys⟩
    | reach time => exact .inr (.of_curtain (keeps_reach w time) (curtain_reach w time))
  | @brief s brief =>
    by_cases drops : s = .dropClock
    · subst drops
      exact .inr (hosted_dropClock w)
    · exact .inr (.of_curtain (keeps_of_isBrief w brief) (curtain_brief w brief drops))

/-! ### Other fibers' turns -/

theorem entries_turn (order : w.InOrder) {rest : List Fiber} (ready : w.ready = f :: rest) :
    ∃ es : List Entry, w.turn.entries = w.entries ++ es ∧ ∀ e ∈ es, e.author = some f.id := by
  obtain ⟨-, same | ⟨g, rest', w₁, x, ready', kept, left, heq⟩⟩ :=
    turn_cases w order.crewed order.staged.attended
  · exact ⟨[], by rw [same, List.append_nil], by simp⟩
  obtain ⟨rfl, rfl⟩ := List.cons.inj (ready.symm.trans ready')
  obtain ⟨es, grown, own⟩ := kept.entries
  refine ⟨es, ?_, fun e member => (own e member).1⟩
  rw [heq]
  exact left.crew.2.1.trans grown

/-- What a fiber tells of itself stays as it is while others have their turns. -/
theorem tale_beat {α : Type} {g : Deed → Option α} {id : Nat} (order : w.InOrder)
    (beat : Beat w w') (other : ∀ f rest, w.ready = f :: rest → w' = w.turn → f.id ≠ id) :
    tale g id w'.entries = tale g id w.entries := by
  rcases beat_cases beat with rfl | hosted
  · cases ready : w.ready with
    | nil => rw [turn, ready]
    | cons f rest =>
      obtain ⟨es, grown, own⟩ := entries_turn order ready
      rw [grown]
      refine tale_append_none fun e member author => ?_
      exact absurd (Option.some.inj ((own e member).symm.trans author)) (other f rest ready rfl)
  · obtain ⟨es, grown, own⟩ := hosted.keeps.entries
    rw [grown]
    refine tale_append_none fun e member author => ?_
    rw [(own e member).1, order.actor] at author
    cases author

/-- A fiber stays as it is while others have their turns. -/
theorem mem_crew_beat (order : w.InOrder) (beat : Beat w w') (member : f ∈ w.crew)
    (other : ∀ g rest, w.ready = g :: rest → w' = w.turn → g.id ≠ f.id) : f ∈ w'.crew := by
  rcases beat_cases beat with rfl | hosted
  · obtain ⟨-, same | ⟨g, rest, w₁, x, ready, kept, left, heq⟩⟩ :=
      turn_cases w order.crewed order.staged.attended
    · rwa [same]
    have away : f ∈ (w.taken g rest).crew := by
      have among : f ∈ g.calm :: (w.taken g rest).crew := by
        simpa [crew, fibers, taken, ready] using member
      rcases List.mem_cons.mp among with rfl | away
      · exact absurd rfl (other g rest ready rfl)
      · exact away
    have stays : f ∈ w₁.crew := by
      obtain ⟨new, perm, -⟩ := kept.crew
      exact perm.mem_iff.mpr (List.mem_append_left _ away)
    rw [heq]
    show f ∈ x.crew
    cases left with
    | gone => exact stays
    | goes => exact List.mem_cons_of_mem _ stays
    | waits wait => exact (crew_park _ _ _).mem_iff.mpr (List.mem_cons_of_mem _ stays)
  · obtain ⟨new, perm, -⟩ := hosted.keeps.crew
    exact perm.mem_iff.mpr (List.mem_append_left _ member)

theorem rig_beat (order : w.InOrder) (beat : Beat w w') : w'.rig = w.rig := by
  rcases beat_cases beat with rfl | hosted
  · obtain ⟨-, same | ⟨f, rest, w₁, x, ready, kept, left, heq⟩⟩ :=
      turn_cases w order.crewed order.staged.attended
    · rw [same]
    · rw [heq]
      cases left <;> exact kept.rig
  · exact hosted.keeps.rig

/-! ### What a load leaves on the screen -/

/-- Who masked the host's input last, or lifted the mask. -/
def mask? (w : World) : Option (Option Nat × Bool) := w.masks.getLast?

structure Screened (w : World) : Prop where
  sources : w.rig.keptSources ≤ w.feed.sources
  card : w.holders.card = if w.loading then 1 else 0
  loads : ∀ f ∈ w.crew, f.holdsScene = true → ∃ job after, f.Loads job after (w.board f.id)
  masked : ∀ f ∈ w.crew, f.holdsScene = true → w.mask? = some (some f.id, true)
  stranded : w.loading = false → ∀ a, w.mask? = some (a, true) →
    ∃ id < w.nextFiber, a = some id ∧ ∀ f ∈ w.crew, f.id ≠ id

theorem keptSources_pos (w : World) : 0 < w.rig.keptSources := by
  unfold Rig.keptSources
  dsimp only
  omega

theorem Screened.sources_pos (h : w.Screened) : 0 < w.feed.sources :=
  Nat.lt_of_lt_of_le w.keptSources_pos h.sources

theorem Screened.along (h : w.Screened) (later : Later w w') (rig : w'.rig = w.rig)
    (feed : Feed.Moves w.rig.keptSources w.feed w'.feed)
    (curtain : w'.curtain = { w.curtain with feed := w'.feed })
    (board : ∀ f ∈ w.crew, f.holdsScene = true → w'.board f.id = w.board f.id) :
    w'.Screened := by
  have loading : w'.loading = w.loading := congrArg Curtain.loading curtain
  have masks : w'.masks = w.masks := congrArg Curtain.masks curtain
  have holders : w'.holders = w.holders := congrArg Curtain.holders curtain
  have same {f : Fiber} (member : f ∈ w'.crew) (holds : f.holdsScene = true) : f ∈ w.crew :=
    (mem_holders.mp (holders ▸ mem_holders.mpr ⟨member, holds⟩)).1
  refine ⟨?_, ?_, fun f member holds => ?_, fun f member holds => ?_, fun idle a last => ?_⟩
  · have sources := h.sources
    rw [rig]
    generalize w'.feed = feed' at feed ⊢
    cases feed with
    | stays | publishes => exact sources
    | drops spare => exact Nat.le_sub_one_of_lt spare
  · rw [holders, loading]
    exact h.card
  · rw [board f (same member holds) holds]
    exact h.loads f (same member holds) holds
  · rw [mask?, masks]
    exact h.masked f (same member holds) holds
  · rw [mask?, masks] at last
    obtain ⟨id, below, rfl, gone⟩ := h.stranded (loading ▸ idle) a last
    refine ⟨id, Nat.lt_of_lt_of_le below later.nextFiber, rfl, fun g member => ?_⟩
    rcases later.crew g member with ⟨f, among, old⟩ | hired
    · exact old.id ▸ gone f among
    · have young := hired.id_ge
      omega

theorem holders_taken {rest : List Fiber} (ready : w.ready = f :: rest)
    (holds : f.holdsScene = true) :
    w.holders = f.calm ::ₘ (w.taken f rest).holders :=
  holders_cons_self (.of_eq (by simp [crew, fibers, taken, ready])) holds

/-- The turn of a fiber whose load is under way. -/
theorem Screened.fares (h : w.Screened) (order : w.InOrder) {rest : List Fiber}
    (ready : w.ready = f :: rest) (holds : f.holdsScene = true) :
    (w.taken f rest).holders = 0 ∧ w.loading = true ∧ w.mask? = some (some f.id, true) ∧
      ∃ job after, Fares (w.taken f rest) f job after ((w.taken f rest).advance f) := by
  have member := calm_mem_crew ready
  obtain ⟨job, after, todo, clear⟩ := h.loads f.calm member holds
  have card := h.card
  rw [holders_taken ready holds, Multiset.card_cons] at card
  have loading : w.loading = true := by
    by_contra idle
    simp [idle] at card
  rw [loading] at card
  obtain ⟨-, fresh, below⟩ := order.crewed.taken ready
  have dutiful : f.Dutiful := order.crewed.dutiful f.calm member
  refine ⟨Multiset.card_eq_zero.mp (by simpa using card), loading, h.masked f.calm member holds,
    job, after, fares_advance rfl h.sources_pos dutiful fresh below ⟨todo, clear⟩⟩

/-- A load that has fallen or lifted the mask leaves no other behind. -/
theorem screened_of_over (sources : w.rig.keptSources ≤ w.feed.sources) (idle : w.loading = false)
    (alone : w.holders = 0) (stranded : ∀ a, w.mask? = some (a, true) →
      ∃ id < w.nextFiber, a = some id ∧ ∀ f ∈ w.crew, f.id ≠ id) : w.Screened := by
  have none (f : Fiber) (member : f ∈ w.crew) (holds : f.holdsScene = true) : False := by
    have among : f ∈ w.holders := mem_holders.mpr ⟨member, holds⟩
    rw [alone] at among
    exact Multiset.notMem_zero f among
  have card : w.holders.card = if w.loading then 1 else 0 := by simp [alone, idle]
  exact ⟨sources, card, fun f member holds => (none f member holds).elim,
    fun f member holds => (none f member holds).elim, fun _ => stranded⟩

theorem screened_of_holder {after : List Act} (sources : w.rig.keptSources ≤ w.feed.sources)
    (loading : w.loading = true) (alone : w.holders = {f.calm})
    (loads : f.Loads job after (w.board f.id)) (masked : w.mask? = some (some f.id, true)) :
    w.Screened := by
  have only (g : Fiber) (member : g ∈ w.crew) (holds : g.holdsScene = true) : g = f.calm := by
    have among : g ∈ w.holders := mem_holders.mpr ⟨member, holds⟩
    rw [alone] at among
    exact Multiset.mem_singleton.mp among
  refine ⟨sources, by simp [alone, loading], ?_, ?_, by simp [loading]⟩
  · intro g member holds
    obtain rfl := only g member holds
    exact ⟨job, after, loads.todo, loads.after⟩
  · intro g member holds
    obtain rfl := only g member holds
    exact masked

theorem Fares.screened {x : World} {after : List Act} (fares : Fares w f job after x)
    (rig : x.rig = w.rig) (nextFiber : w.nextFiber ≤ x.nextFiber) (below : f.id < w.nextFiber)
    (sources : w.rig.keptSources ≤ w.feed.sources) (alone : w.holders = 0)
    (loading : w.loading = true) (masked : w.mask? = some (some f.id, true)) : x.Screened := by
  have fed (feed : x.feed = w.feed) : x.rig.keptSources ≤ x.feed.sources := by rwa [rig, feed]
  cases fares with
  | goes f' id loads curtain =>
    have holders : x.holders = f'.calm ::ₘ w.holders := congrArg Curtain.holders curtain
    have masks : x.masks = w.masks := congrArg Curtain.masks curtain
    refine screened_of_holder (fed (congrArg Curtain.feed curtain))
      ((congrArg Curtain.loading curtain).trans loading) (by rw [holders, alone]; rfl)
      (id ▸ loads) ?_
    rw [mask?, masks, id]
    exact masked
  | lifts todo curtain =>
    have masks : x.masks = w.masks ++ [(some f.id, false)] := congrArg Curtain.masks curtain
    refine screened_of_over (fed (congrArg Curtain.feed curtain)) (congrArg Curtain.loading curtain)
      ((congrArg Curtain.holders curtain).trans alone) fun a last => ?_
    simp [mask?, masks] at last
  | falls fallen curtain gone =>
    have masks : x.masks = w.masks := congrArg Curtain.masks curtain
    refine screened_of_over (fed (congrArg Curtain.feed curtain)) (congrArg Curtain.loading curtain)
      ((congrArg Curtain.holders curtain).trans alone) fun a last => ?_
    rw [mask?, masks, ← mask?, masked] at last
    obtain rfl : some f.id = a := (Prod.mk.inj (Option.some.inj last)).1
    refine ⟨f.id, Nat.lt_of_lt_of_le below nextFiber, rfl, fun g member same => gone ?_⟩
    exact List.mem_map.mpr ⟨g, member, same⟩

/-! ### Loads at the check -/

theorem Comes.cons {a : Act} (comes : w.Comes f a) :
    ∃ rest after, w.ready = f :: rest ∧ f.todo = a :: after := by
  obtain ⟨ready, -, todo⟩ := comes
  rw [List.head?_eq_some_iff] at ready todo
  obtain ⟨rest, ready⟩ := ready
  obtain ⟨after, todo⟩ := todo
  exact ⟨rest, after, ready, todo⟩

section

variable {a : Act} {rest : List Fiber} {after : List Act} (order : w.InOrder)
  (ready : w.ready = f :: rest) (todo : f.todo = a :: after) (spared : f.doomed = false)
  (foreign : ∀ target scope, (Role.tween target scope).allows a = false)
include order ready todo foreign

theorem isCancelled_taken : (w.taken f rest).isCancelled f = false := by
  have member := calm_mem_crew ready
  have dutiful : f.Dutiful := order.crewed.dutiful f.calm member
  exact isCancelled_eq_false _ dutiful (by simp [todo]) foreign

include spared

/-- The turn of a fiber that comes to an act which no tween has to do. -/
theorem turn_perform (fault : f.fault = none) :
    w.turn = { (w.taken f rest).perform { f with todo := after } a with actor := none } :=
  turn_going ready spared (isCancelled_taken order ready todo foreign) fault todo

theorem turn_unwind {e : Failure} (fault : f.fault = some e) :
    w.turn = { (w.taken f rest).unwind { f with todo := after } e a with actor := none } :=
  turn_skipping ready spared (isCancelled_taken order ready todo foreign) fault todo

end

theorem turn_load (order : w.InOrder) (comes : w.Comes f (.load job)) (fault : f.fault = none) :
    ∃ rest after, w.ready = f :: rest ∧ f.todo = .load job :: after ∧ w.turn =
      { (w.taken f rest).performLoad { f with todo := after } job with actor := none } := by
  obtain ⟨rest, after, ready, todo⟩ := comes.cons
  refine ⟨rest, after, ready, todo, ?_⟩
  exact turn_perform order ready todo comes.spared (fun _ _ => rfl) fault

theorem turn_rejected (order : w.InOrder) (comes : w.Comes f (.load job)) (fault : f.fault = none)
    {gated : Bool} (rig : w.rig.scenes = .board gated) (busy : w.loading = true) :
    w.turn = { w with
      ready := { f with todo := f.todo.tail, fault := some .sceneLoadInProgress } :: w.ready.tail
      chronicle := w.chronicle.push ⟨some f.id, .remark (.sceneBusy job.scene)⟩ } := by
  obtain ⟨rest, after, ready, todo, turned⟩ := turn_load order comes fault
  have rejects : (w.taken f rest).performLoad { f with todo := after } job =
      ((w.taken f rest).remark (.sceneBusy job.scene)).resume
        (Fiber.fail { f with todo := after } .sceneLoadInProgress) := by
    unfold performLoad
    rw [show (w.taken f rest).rig.scenes = .board gated from rig]
    exact if_pos busy
  rw [turned, rejects, ready, todo]
  have actor := order.actor
  cases w
  cases actor
  rfl

theorem turn_admitted (order : w.InOrder) (admits : w.Admits f job) :
    ∃ rest after, w.ready = f :: rest ∧ f.todo = .load job :: after ∧ w.turn =
      { ({ w.taken f rest with loading := true }.maskBoard true).resume
          (Fiber.first { f with todo := after } job.acts) with actor := none } := by
  obtain ⟨gated, rig⟩ := admits.board
  obtain ⟨rest, after, ready, todo, turned⟩ := turn_load order admits.toComes admits.fault
  refine ⟨rest, after, ready, todo, ?_⟩
  rw [turned, performLoad, show (w.taken f rest).rig.scenes = .board gated from rig]
  dsimp only
  rw [if_neg (by simp [show (w.taken f rest).loading = false from admits.free])]

theorem Screened.idle (h : w.Screened) (free : w.loading = false) {g : Fiber}
    (member : g ∈ w.crew) :
    g.holdsScene = false := by
  have none : w.holders = 0 := Multiset.card_eq_zero.mp (by simpa [free] using h.card)
  refine Bool.eq_false_iff.mpr fun holds => ?_
  have among : g ∈ w.holders := mem_holders.mpr ⟨member, holds⟩
  rw [none] at among
  exact Multiset.notMem_zero g among

theorem Screened.admitted (h : w.Screened) (order : w.InOrder) (admits : w.Admits f job) :
    w.turn.Screened ∧ w.turn.loading = true ∧ w.turn.masks = w.masks ++ [(some f.id, true)] := by
  obtain ⟨rest, after, ready, todo, turned⟩ := turn_admitted order admits
  have idle : f.holdsScene = false :=
    h.idle admits.free (g := f.calm) (calm_mem_crew ready)
  have clear : after.any Fiber.isRelease = false := by
    rw [Fiber.holdsScene, todo, List.any_cons, Bool.or_eq_false_iff] at idle
    exact idle.2
  have alone : (w.taken f rest).holders = 0 := by
    have same := congrArg Curtain.holders (curtain_taken ready idle)
    refine same.trans (Multiset.card_eq_zero.mp ?_)
    have card := h.card
    rw [admits.free] at card
    exact card
  have loads (shown : Option Color) :
      (Fiber.first { f with todo := after } job.acts).Loads job after shown := by
    refine ⟨⟨job.acts, rfl, ?_⟩, clear⟩
    rw [Fiber.first, admits.fault]
    exact job.leg_acts _ _
  have curtain := curtain_resume_holder ({ w.taken f rest with loading := true }.maskBoard true)
    (loads none).holdsScene
  have masks : w.turn.masks = w.masks ++ [(some f.id, true)] := by
    rw [turned]
    exact masks_maskBoard _ true
  have loading : w.turn.loading = true := by
    rw [turned]
    rfl
  have holders : w.turn.holders = {(Fiber.first { f with todo := after } job.acts).calm} := by
    rw [turned]
    refine (congrArg Curtain.holders curtain).trans ?_
    show _ ::ₘ (w.taken f rest).holders = _
    rw [alone]
    rfl
  have sources : w.turn.rig.keptSources ≤ w.turn.feed.sources := by
    rw [turned]
    exact h.sources
  exact ⟨screened_of_holder sources loading holders (loads _) (by simp [mask?, masks, Fiber.first]),
    loading, masks⟩

/-! ### Every turn -/

theorem Screened.turn (h : w.Screened) (order : w.InOrder) (tended : w.Tended) :
    w.turn.Screened := by
  have beat : Beat w w.turn := .lull (.turn w)
  have rig := rig_beat order beat
  cases ready : w.ready with
  | nil =>
    have still : w.turn = w := by rw [World.turn, ready]
    rw [still]
    exact h
  | cons f rest =>
    have below := (order.crewed.taken ready).2.2
    cases holds : f.holdsScene with
    | true =>
      obtain ⟨alone, loading, masked, job, after, fares⟩ := h.fares order ready holds
      have later := (beat.later order tended).nextFiber
      rw [turn_cons ready] at rig later ⊢
      obtain ⟨sources, card, loads, masked', stranded⟩ :=
        fares.screened (w := w.taken f rest) rig later below h.sources alone loading masked
      exact ⟨sources, card, loads, masked', stranded⟩
    | false =>
      by_cases admitted : ∃ job, w.Admits f job
      · obtain ⟨job, admits⟩ := admitted
        exact (h.admitted order admits).1
      · have same := curtain_turn ready holds fun job admits => admitted ⟨job, admits⟩
        have feed : w.turn.feed = w.feed := congrArg Curtain.feed same
        refine h.along (beat.later order tended) rig (feed ▸ .stays) (by rw [feed]; exact same) ?_
        intro g member holds'
        have other : f.id ≠ g.id := by
          intro id
          have among := calm_mem_crew ready
          obtain rfl := order.crewed.eq_of_id among member id
          rw [Fiber.calm_holdsScene, holds] at holds'
          cases holds'
        refine congrArg List.getLast? (tale_beat order beat fun f' rest' ready' _ => ?_)
        obtain ⟨rfl, -⟩ := List.cons.inj (ready.symm.trans ready')
        exact other

theorem Screened.beat (h : w.Screened) (order : w.InOrder) (tended : w.Tended)
    (beat : Beat w w') : w'.Screened := by
  rcases beat_cases beat with rfl | hosted
  · exact h.turn order tended
  · refine h.along (beat.later order tended) hosted.keeps.rig hosted.feed hosted.curtain ?_
    intro g _ _
    obtain ⟨es, grown, own⟩ := hosted.keeps.entries
    rw [board, grown, tale_append_none fun e member author => ?_]
    · rfl
    rw [(own e member).1, order.actor] at author
    cases author

theorem screened_after (o : Opening) (ms : List Move) : (o.world.after ms).Screened := by
  have opened : o.world.Screened := by
    refine screened_of_over ?_ rfl ?_ fun a last => ?_
    · exact Nat.le_succ _
    · simp [holders, crew, fibers, Opening.world, new]
    · simp [mask?, masks, entries, Opening.world, new] at last
  refine ((inOrder_opening o).along (beats_after o.world ms)
    (P := fun w => w.Tended ∧ w.Screened) ⟨tended_after o [], opened⟩ fun order beat kept => ?_).2.2
  exact ⟨kept.1.later (beat.later order kept.1), kept.2.beat order kept.1 beat⟩

theorem Screened.feed_turn (h : w.Screened) (order : w.InOrder) : w.turn.feed = w.feed := by
  cases ready : w.ready with
  | nil => rw [World.turn, ready]
  | cons f rest =>
    cases holds : f.holdsScene with
    | true =>
      obtain ⟨-, -, -, job, after, fares⟩ := h.fares order ready holds
      rw [turn_cons ready]
      cases fares with
      | goes f' id loads curtain => exact congrArg Curtain.feed curtain
      | lifts todo curtain => exact congrArg Curtain.feed curtain
      | falls fallen curtain => exact congrArg Curtain.feed curtain
    | false =>
      by_cases admitted : ∃ job, w.Admits f job
      · obtain ⟨job, admits⟩ := admitted
        obtain ⟨rest, after, -, -, turned⟩ := turn_admitted order admits
        rw [turned]
        rfl
      · exact congrArg Curtain.feed
          (curtain_turn ready holds fun job admits => admitted ⟨job, admits⟩)

/-! ### The flag and the mask -/

theorem mem_crew_of_mem_fibers (member : f ∈ w.fibers) : f.calm ∈ w.crew :=
  List.mem_map_of_mem member

theorem countP_fibers (w : World) : w.fibers.countP Fiber.holdsScene = w.holders.card := by
  rw [holders, Multiset.coe_card, ← List.countP_eq_length_filter, crew, List.countP_map]
  rfl

/-- The flag of the load under way and the mask over the host's input, in every world and at every
beat that follows. -/
structure Guarded (w : World) : Prop where
  /-- The flag is up exactly while a load is past the check, and no two are. -/
  one : w.fibers.countP Fiber.holdsScene = if w.loading then 1 else 0
  masked : ∀ f ∈ w.fibers, f.holdsScene = true → w.mask? = some (some f.id, true)
  /-- Without a load the input is masked only if the fiber that masked it is gone. -/
  stranded : w.loading = false → ∀ a, w.mask? = some (a, true) →
    ∃ id < w.nextFiber, a = some id ∧ ∀ f ∈ w.fibers, f.id ≠ id
  admits : ∀ f job, w.Admits f job →
    w.turn.loading = true ∧ w.turn.masks = w.masks ++ [(some f.id, true)]
  /-- A load that is turned away fails, and nothing else happens but a remark. -/
  rejects : ∀ f job gated, w.Comes f (.load job) → f.fault = none →
    w.rig.scenes = .board gated → w.loading = true → w.turn = { w with
      ready := { f with todo := f.todo.tail, fault := some .sceneLoadInProgress } :: w.ready.tail
      chronicle := w.chronicle.push ⟨some f.id, .remark (.sceneBusy job.scene)⟩ }
  /-- A load goes on, or is released and lifts the mask, or falls and leaves it on. It falls only if
  its fiber was asked to stop or its time overflows. -/
  ends : ∀ f rest, w.ready = f :: rest → f.holdsScene = true →
    w.turn.loading = true ∧ w.turn.masks = w.masks ∨
    f.todo.head? = some .release ∧ w.turn.loading = false ∧
      w.turn.masks = w.masks ++ [(some f.id, false)] ∨
    (f.doomed = true ∨ w.Overruns f) ∧ w.turn.loading = false ∧ w.turn.masks = w.masks
  /-- Nobody else touches the flag or the mask. -/
  others : ∀ w', Beat w w' → w'.loading = w.loading ∧ w'.masks = w.masks ∨
    w' = w.turn ∧ ∃ f, w.ready.head? = some f ∧
      (f.holdsScene = true ∨ ∃ job, w.Admits f job)

theorem Screened.ends (h : w.Screened) (order : w.InOrder) {rest : List Fiber}
    (ready : w.ready = f :: rest) (holds : f.holdsScene = true) :
    w.turn.loading = true ∧ w.turn.masks = w.masks ∨
    f.todo.head? = some .release ∧ w.turn.loading = false ∧
      w.turn.masks = w.masks ++ [(some f.id, false)] ∨
    (f.doomed = true ∨ w.Overruns f) ∧ w.turn.loading = false ∧ w.turn.masks = w.masks := by
  obtain ⟨-, loading, -, job, after, fares⟩ := h.fares order ready holds
  rw [turn_cons ready]
  cases fares with
  | goes f' id loads curtain =>
    exact .inl ⟨(congrArg Curtain.loading curtain).trans loading, congrArg Curtain.masks curtain⟩
  | lifts todo curtain =>
    have head : f.todo.head? = some .release := by rw [todo, List.head?_cons]
    exact .inr (.inl ⟨head, congrArg Curtain.loading curtain, congrArg Curtain.masks curtain⟩)
  | falls fallen curtain =>
    exact .inr (.inr ⟨fallen, congrArg Curtain.loading curtain, congrArg Curtain.masks curtain⟩)

theorem others_of_beat (beat : Beat w w') : w'.loading = w.loading ∧ w'.masks = w.masks ∨
    w' = w.turn ∧ ∃ f, w.ready.head? = some f ∧
      (f.holdsScene = true ∨ ∃ job, w.Admits f job) := by
  rcases beat_cases beat with rfl | hosted
  · cases ready : w.ready with
    | nil =>
      have still : w.turn = w := by rw [World.turn, ready]
      rw [still]
      exact .inl ⟨rfl, rfl⟩
    | cons f rest =>
      by_cases part : f.holdsScene = true ∨ ∃ job, w.Admits f job
      · exact .inr ⟨rfl, f, rfl, part⟩
      · obtain ⟨idle, shut⟩ := not_or.mp part
        have same := curtain_turn ready (by simpa using idle) fun job admits => shut ⟨job, admits⟩
        exact .inl ⟨congrArg Curtain.loading same, congrArg Curtain.masks same⟩
  · exact .inl ⟨congrArg Curtain.loading hosted.curtain, congrArg Curtain.masks hosted.curtain⟩

/-- No two loads are ever past the check, and one that is turned away does nothing. The host's input
is masked while a load runs, and after it if the load fell. -/
theorem loads_are_guarded (o : Opening) (ms : List Move) : (o.world.after ms).Guarded := by
  have screened := screened_after o ms
  have order := inOrder_after o ms
  generalize o.world.after ms = w at screened order ⊢
  refine ⟨?_, ?_, ?_, ?_, ?_, ?_, ?_⟩
  · rw [countP_fibers]
    exact screened.card
  · intro f member holds
    exact screened.masked f.calm (mem_crew_of_mem_fibers member) holds
  · intro idle a last
    obtain ⟨id, below, author, gone⟩ := screened.stranded idle a last
    exact ⟨id, below, author, fun f member => gone f.calm (mem_crew_of_mem_fibers member)⟩
  · intro f job admits
    exact (screened.admitted order admits).2
  · intro f job gated comes fault rig busy
    exact turn_rejected order comes fault rig busy
  · intro f rest ready holds
    exact screened.ends order ready holds
  · intro w' beat
    exact others_of_beat beat

/-- A load that is aborted before its first frame leaves the host's input masked for good. -/
theorem aborted_load_masks :
    let o : Opening := ⟨default, { (default : Rig) with scenes := .board false }, 8, default, default, []⟩
    let w := o.world.after
      [.host (.load ⟨"town", .black, ⟨40⟩, false⟩), .turn, .host (.abortLoad 0), .turn]
    w.loading = false ∧ w.mask? = some (some 0, true) := by
  decide +kernel

/-! ### The board when a load returns -/

theorem turn_release (order : w.InOrder) (comes : w.Comes f .release) :
    ∃ rest after, w.ready = f :: rest ∧ f.todo = .release :: after ∧ w.turn =
      { (w.taken f rest).performRelease { f with todo := after } with actor := none } := by
  obtain ⟨rest, after, ready, todo⟩ := comes.cons
  refine ⟨rest, after, ready, todo, ?_⟩
  rcases Option.eq_none_or_eq_some f.fault with fault | ⟨e, fault⟩
  · exact turn_perform order ready todo comes.spared (fun _ _ => rfl) fault
  · exact turn_unwind order ready todo comes.spared (fun _ _ => rfl) fault

/-- When a load returns, the board is clear if it succeeded and covered if its scene could not be
entered; there is no other way to fail. -/
theorem board_at_release (o : Opening) (ms : List Move) {f : Fiber}
    (comes : (o.world.after ms).Comes f .release) :
    let w := o.world.after ms
    (∃ color, w.board f.id = some color ∧ (f.fault = none ∧ color.a = 0 ∨
      ∃ text, f.fault = some (.scene text) ∧ color.a = 1)) ∧
    w.turn.board f.id = w.board f.id ∧
    w.turn.ready = { f with todo := f.todo.tail, boardCursor := none } :: w.ready.tail := by
  intro w
  have screened : w.Screened := screened_after o ms
  have order : w.InOrder := inOrder_after o ms
  obtain ⟨rest, after, ready, todo, turned⟩ := turn_release order comes
  have member := calm_mem_crew ready
  have holds : f.holdsScene = true := by simp [Fiber.holdsScene, todo, Fiber.isRelease]
  refine ⟨?_, ?_, ?_⟩
  · obtain ⟨job, after', ⟨pend, left, leg⟩, -⟩ := screened.loads f.calm member holds
    obtain ⟨a, pend, rfl⟩ := List.exists_cons_of_ne_nil leg.ne_nil
    obtain ⟨rfl, -⟩ := List.cons.inj (todo.symm.trans left)
    rcases leg.of_release with ⟨fault, shown⟩ | ⟨text, fault, shown⟩
    · exact ⟨_, shown, .inl ⟨fault, rfl⟩⟩
    · exact ⟨_, shown, .inr ⟨text, fault, rfl⟩⟩
  · rw [turned]
    refine (board_record (World.record _ _) f.id rfl).trans ?_
    exact board_record (w.taken f rest) f.id rfl
  · rw [turned, ready, todo]
    rfl

theorem board_at_release_clear :
    let o : Opening := ⟨default, { (default : Rig) with scenes := .board false }, 8, default, default, []⟩
    let w := o.world.after (.host (.load ⟨"town", .black, ⟨0⟩, false⟩) :: List.replicate 7 .turn)
    ∃ f color, w.Comes f .release ∧ f.fault = none ∧ w.board f.id = some color ∧ color.a = 0 := by
  intro o w
  obtain ⟨f, comes, fault⟩ : ∃ f, w.Comes f .release ∧ f.fault = none := ⟨_, ⟨rfl, rfl, rfl⟩, rfl⟩
  obtain ⟨⟨color, shown, clear | ⟨text, failed, -⟩⟩, -⟩ := board_at_release o _ comes
  · exact ⟨f, color, comes, fault, shown, clear.2⟩
  · rw [fault] at failed
    cases failed

/-- A load whose scene cannot be entered returns with the board still covered. -/
theorem failed_load_covers :
    let o : Opening := ⟨default, { (default : Rig) with scenes := .board false }, 8, default, default, []⟩
    let w := o.world.after ([.host (.failScenes true),
      .host (.load ⟨"nowhere", .black, ⟨0⟩, false⟩)] ++ List.replicate 7 .turn)
    ∃ f color e, w.Comes f .release ∧ f.fault = some e ∧ w.board f.id = some color ∧
      color.a ≠ 0 := by
  refine ⟨_, .black, _, ⟨rfl, rfl, rfl⟩, rfl, rfl, ?_⟩
  decide

end World

end SceneScript
