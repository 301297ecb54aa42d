import SceneScript.Proofs.Course
/-!
Chores, the single changes that the work of fibers and of the host comes down to, told apart by the
part of the world they are made to. Each operation is taken to pieces once, and a view of the world
that shows none of the parts it is made to is the same after it (`Chores.view`).
-/

namespace SceneScript

/-- Parts of a world that only some operations are made to. -/
inductive Part where
  | stage
  /-- The masks over the host's input. -/
  | masks
  | mixer
  | board
  /-- The flag of the load under way. -/
  | loading
  /-- The fibers whose load is under way. -/
  | holders
  | releases
  /-- The bodies of callbacks and the variables. -/
  | stock
deriving DecidableEq

def Deed.part? : Deed → Option Part
  | .stage _ => some .stage
  | .scene (.blocked _) => some .masks
  | _ => none

namespace Fiber

@[simp] theorem calm_holdsScene (f : Fiber) : f.calm.holdsScene = f.holdsScene := rfl

@[simp] theorem holdsScene_first (f : Fiber) (acts : List Act) :
    (f.first acts).holdsScene = (acts.any isRelease || f.holdsScene) := List.any_append

@[simp] theorem holdsScene_setCursor (f : Fiber) (lane : Lane) (c : Cursor) :
    (f.setCursor lane c).holdsScene = f.holdsScene := by
  cases lane <;> rfl

end Fiber

theorem Command.any_isRelease_acts (c : Command) (settings : Settings) (page : Page) :
    (c.acts settings page).any Fiber.isRelease = false := by
  cases c with
  | boxState opening => cases opening <;> rfl
  | image layer texture => cases texture <;> rfl
  | portrait place texture => cases texture <;> rfl
  | _ => rfl

/-- Acts that can make calls on the stage; some of them because a run can end with them. -/
def Act.isLoud : Act → Bool
  | .stage _ | .finish _ | .sweep _ | .stride _ | .timer _ | .count .. | .branch .. | .switch _
  | .action _ => true
  | _ => false

namespace World

/-- A change to one of the parts that are `free`, or to what is in no part. -/
inductive Chore (free : Part → Prop) (w : World) : World → Prop where
  | tells (d : Deed) : d.part? = none → Chore free w (w.record d)
  | shows {d : Deed} (p : Part) : d.part? = some p → free p → Chore free w (w.record d)
  | minds (now : Span) (state : Execution) (slot : ChoiceSlot) (programs : Array Program)
      (flags : Flags) (scope : Nat) (timers : Array Timer) (permits runs loads : Nat)
      (actor : Option Nat) :
      Chore free w
        { w with now, state, slot, programs, flags, scope, timers, permits, runs, loads, actor }
  | counts (registry : Registry) :
      registry.predicates.map (·.body) = w.registry.predicates.map (·.body) →
      registry.selectors.map (·.body) = w.registry.selectors.map (·.body) →
      registry.actions = w.registry.actions → Chore free w { w with registry }
  | stocks (registry : Registry) (vars : Vars) : free .stock →
      Chore free w { w with registry, vars }
  | mixes (mixer : Mixer) : free .mixer → Chore free w { w with mixer }
  | paints (boardColor : Color) : free .board → Chore free w { w with boardColor }
  | holds (loading : Bool) : loading = w.loading ∨ free .loading → Chore free w { w with loading }
  | spends (releases : Nat) : free .releases → Chore free w { w with releases }
  | moves (ready : List Fiber) (blocked : List Parked) (nextFiber : Nat) : free .holders ∨
      ((crew { w with ready, blocked }).filter Fiber.holdsScene).Perm
        (w.crew.filter Fiber.holdsScene) →
      Chore free w { w with ready, blocked, nextFiber }

abbrev Chores (free : Part → Prop) : World → World → Prop := Relation.ReflTransGen (Chore free)

variable {free : Part → Prop} {w w' : World} {f : Fiber}

theorem Chores.view {α : Type} (view : World → α)
    (blind : ∀ {w w'}, Chore free w w' → view w' = view w) (chores : Chores free w w') :
    view w' = view w := by
  induction chores with
  | refl => rfl
  | tail _ chore ih => exact (blind chore).trans ih

theorem feed_chores (chores : Chores free w w') : w'.feed = w.feed :=
  chores.view World.feed fun chore => by cases chore <;> rfl

theorem loading_chores (shut : ¬ free .loading) (chores : Chores free w w') :
    w'.loading = w.loading := by
  refine chores.view World.loading fun chore => ?_
  cases chore with
  | holds loading same => exact same.resolve_right shut
  | _ => rfl

/-! ### The chronicle -/

theorem chores_record (w : World) {d : Deed} (aside : d.part? = none) :
    Chores free w (w.record d) := .single (.tells d aside)

theorem chores_remark (w : World) (r : Remark) : Chores free w (w.remark r) := chores_record w rfl

theorem chores_emit (w : World) (e : Event) : Chores free w (w.emit e) := chores_record w rfl

theorem chores_note (w : World) (n : Note) : Chores free w (w.note n) := chores_record w rfl

theorem chores_stage (w : World) (c : StageCall) (stage : free .stage) :
    Chores free w (w.stage c) := .single (.shows .stage rfl stage)

theorem chores_noteReply (w : World) (r : Option Reply) : Chores free w (w.noteReply r) := by
  cases r with
  | none => exact .refl
  | some => exact chores_record w rfl

theorem chores_lagged (w : World) (missed : Nat) : Chores free w (w.lagged missed) := by
  unfold lagged
  split
  · exact .refl
  · exact chores_remark _ _

/-! ### Fibers -/

theorem chores_wake (w : World) (p : Parked → Bool) : Chores free w (w.wake p) :=
  .single (.moves _ _ w.nextFiber (.inr ((crew_wake w p).filter _)))

theorem chores_abort (w : World) (id : Nat) : Chores free w (w.abort id) := by
  refine .trans (.single (.moves _ _ w.nextFiber (.inr (.of_eq ?_)))) (chores_wake _ _)
  simp only [crew, fibers, List.map_append, List.map_map]
  congr 2 <;> exact List.map_congr_left fun f _ => Fiber.calm_doom id _

theorem chores_abortFiber (w : World) (f : Option Fiber) : Chores free w (w.abortFiber f).1 := by
  cases f with
  | none => exact .refl
  | some f => exact chores_abort w f.id

theorem filter_holdsScene_cons {crew : List Fiber} (crew' : w.crew.Perm (f.calm :: crew))
    (idle : f.holdsScene = false) :
    (w.crew.filter Fiber.holdsScene).Perm (crew.filter Fiber.holdsScene) := by
  have perm := crew'.filter Fiber.holdsScene
  rwa [List.filter_cons_of_neg (by simpa [Fiber.holdsScene] using idle)] at perm

theorem chores_join {ready : List Fiber} {blocked : List Parked} (nextFiber : Nat)
    (crew : (crew { w with ready, blocked }).Perm (f.calm :: w.crew))
    (idle : f.holdsScene = true → free .holders) :
    Chores free w { w with ready, blocked, nextFiber } := by
  refine .single (.moves _ _ _ ?_)
  cases holds : f.holdsScene with
  | true => exact .inl (idle holds)
  | false => exact .inr (filter_holdsScene_cons crew holds)

theorem chores_resume (w : World) (idle : f.holdsScene = true → free .holders) :
    Chores free w (w.resume f) := chores_join w.nextFiber (.refl _) idle

theorem chores_park (w : World) (wait : Wait) (idle : f.holdsScene = true → free .holders) :
    Chores free w (w.park wait f) :=
  chores_join w.nextFiber (crew_park w wait f) idle

theorem chores_spawn (w : World) (role : Role) (cursor : Option Cursor) {todo : List Act}
    (idle : todo.any Fiber.isRelease = false) : Chores free w (w.spawn role cursor todo) := by
  refine chores_join (f := .start w.nextFiber role cursor todo) _ ?_ fun holds => ?_
  · simp only [crew, fibers, List.map_append, List.append_assoc, List.map_cons, List.map_nil]
    exact List.perm_middle
  · simp [Fiber.holdsScene, Fiber.start, idle] at holds

theorem chores_reach (w : World) (time : Span) : Chores free w (w.reach time) :=
  .trans (.single (.minds ..)) (chores_wake _ _)

theorem chores_grantPermits (w : World) (n : Nat) : Chores free w (w.grantPermits n) :=
  .trans (.single (.minds ..)) (chores_wake _ _)

theorem chores_raise (w : World) (flag : Nat) : Chores free w (w.raise flag) :=
  .trans (.single (.minds ..)) (chores_wake _ _)

/-! ### Effects in the background -/

theorem chores_stopCountdown (w : World) : Chores free w w.stopCountdown := by
  unfold stopCountdown
  split
  · exact chores_raise _ _
  · exact .refl

theorem chores_freshScope (w : World) : Chores free w w.freshScope := .single (.minds ..)

theorem chores_renewScope (w : World) : Chores free w w.renewScope := by
  unfold renewScope
  dsimp only
  split
  · exact ((chores_freshScope w).trans (chores_raise _ _)).trans (chores_stopCountdown _)
  · exact chores_freshScope w

theorem chores_cancelSideEffects (w : World) : Chores free w w.cancelSideEffects :=
  (((chores_freshScope w).trans (chores_raise _ _)).trans (chores_stopCountdown _)).trans
    (chores_remark _ _)

theorem chores_startCountdown (w : World) (c : Countdown) (stage : free .stage) :
    Chores free w (w.startCountdown c) := by
  have told : Chores free w (((w.stopCountdown.stage (.playAnimation .timerTextEnter)).stage
      (.setTimerText c.text)).remark (.countdownStarted c)) :=
    (((chores_stopCountdown w).trans (chores_stage _ _ stage)).trans (chores_stage _ _ stage)).trans
      (chores_remark _ _)
  unfold startCountdown
  dsimp only
  exact (told.tail (.minds ..)).trans (chores_spawn _ _ _ rfl)

theorem chores_timeOut (w : World) (stop : Nat) (stage : free .stage) :
    Chores free w (w.timeOut stop) := by
  unfold timeOut
  split
  · exact .refl
  · exact (((chores_raise _ _).trans (chores_remark _ _)).trans (chores_stage _ _ stage)).trans
      (chores_emit _ _)

/-! ### Sound -/

theorem chores_modifyStrip (w : World) (channel : Channel) (f : Strip → Strip)
    (mixer : free .mixer) : Chores free w (w.modifyStrip channel f) := .single (.mixes _ mixer)

theorem chores_setFade (w : World) (channel : Channel) (task : Option Nat) (mixer : free .mixer) :
    Chores free w (w.setFade channel task) := .single (.mixes _ mixer)

theorem chores_cancelFade (w : World) (channel : Channel) (mixer : free .mixer) :
    Chores free w (w.cancelFade channel) := by
  unfold cancelFade
  split
  · exact (chores_setFade _ _ _ mixer).trans (chores_abort _ _)
  · exact .refl

theorem chores_silence (w : World) (channel : Channel) (mixer : free .mixer) :
    Chores free w (w.silence channel) :=
  ((chores_modifyStrip _ _ _ mixer).trans (chores_remark _ _)).trans (chores_record _ rfl)

theorem chores_stopChannel (w : World) (channel : Channel) (mixer : free .mixer) :
    Chores free w (w.stopChannel channel) :=
  ((chores_cancelFade _ _ mixer).trans (chores_modifyStrip _ _ _ mixer)).trans (chores_remark _ _)

theorem chores_play (w : World) (channel : Channel) (clip : Clip) (pitch : Float32)
    (mixer : w.rig.mixed = true → free .mixer) : Chores free w (w.play channel clip pitch) := by
  unfold play
  split
  · rename_i mixed
    have sounded (w : World) : Chores free w
        (((w.modifyStrip channel fun s => s.play clip pitch).remark
          (.clipPlayed channel clip pitch)).record (.sound (.played channel clip))) :=
      ((chores_modifyStrip _ _ _ (mixer mixed)).trans (chores_remark _ _)).trans
        (chores_record _ rfl)
    dsimp only
    split
    · exact (chores_cancelFade w channel (mixer mixed)).trans (sounded _)
    · exact sounded w
  · exact chores_record w rfl

theorem chores_fadeOut (w : World) (channel : Channel) (span : Span)
    (mixer : w.rig.mixed = true → free .mixer) : Chores free w (w.fadeOut channel span).1 := by
  unfold fadeOut
  split
  · rename_i mixed
    split
    · exact chores_remark _ _
    · refine (chores_cancelFade w channel (mixer mixed)).trans ?_
      dsimp only
      split
      · exact (chores_spawn _ _ _ rfl).trans (chores_setFade _ _ _ (mixer mixed))
      · exact (chores_remark _ _).trans (chores_silence _ _ (mixer mixed))
  · split
    · exact .refl
    · exact chores_record w rfl

/-! ### Scenes -/

theorem chores_setBoard (w : World) (color : Color) (board : free .board) :
    Chores free w (w.setBoard color) :=
  .trans (.single (.paints color board)) (chores_record _ rfl)

theorem chores_maskBoard (w : World) (blocked : Bool) (masks : free .masks) :
    Chores free w (w.maskBoard blocked) :=
  .trans (.single (.shows .masks rfl masks)) (chores_remark _ _)

theorem chores_enterScene (w : World) (scene : String) : Chores free w (w.enterScene scene).1 := by
  unfold enterScene
  split
  · exact .refl
  split
  · exact .refl
  · exact chores_remark _ _

theorem chores_spendRelease (w : World) (releases : w.rig.scenes = .board true → free .releases) :
    Chores free w w.spendRelease := by
  unfold spendRelease
  split
  · rename_i gated
    exact .single (.spends _ (releases gated))
  · exact .refl

theorem chores_yieldScene (w : World) (f : Fiber)
    (loading : f.holdsScene = true → w.loading = true → free .loading) :
    Chores free w (w.yieldScene f) := by
  unfold yieldScene
  split
  · rename_i holds
    refine .single (.holds false ?_)
    cases busy : w.loading with
    | false => exact .inl rfl
    | true => exact .inr (loading holds busy)
  · exact .refl

theorem chores_grantRelease (w : World) (releases : free .releases) :
    Chores free w w.grantRelease := .trans (.single (.spends _ releases)) (chores_wake _ _)

theorem chores_spawnLoad (w : World) {acts : List Act} (idle : acts.any Fiber.isRelease = false) :
    Chores free w (w.spawnLoad acts).1 := .trans (.single (.minds ..)) (chores_spawn _ _ _ idle)

/-! ### Choices and runs -/

theorem chores_closeSlot (w : World) : Chores free w w.closeSlot := by
  have closed : Chores free w { w with slot := w.slot.close } := .single (.minds ..)
  unfold closeSlot
  dsimp only
  split
  · exact closed.trans (chores_wake _ _)
  · exact closed

theorem chores_select (w : World) (index : Nat) : Chores free w (w.select index).1 := by
  unfold select
  split
  · exact .trans (.single (.minds ..)) (chores_wake _ _)
  · exact .trans (.single (.minds ..)) (chores_remark _ _)

theorem chores_settleIdle (w : World) (stage : free .stage) : Chores free w w.settleIdle := by
  have reset : Chores free w { w with state := w.state.reset } := .single (.minds ..)
  exact ((reset.trans (chores_closeSlot _)).trans (chores_stage _ _ stage)).trans
    (chores_stage _ _ stage)

theorem chores_launch (w : World) (q : Program) (stage : free .stage) :
    Chores free w (w.launch q) := by
  have begun : Chores free w w.begun := .single (.minds ..)
  have announced (w : World) (number : Nat) : Chores free w (w.announce number) :=
    ((chores_stage _ _ stage).trans (chores_stage _ _ stage)).trans (chores_emit _ _)
  exact ((begun.trans (chores_renewScope _)).trans (announced _ _)).trans (chores_spawn _ _ _ rfl)

theorem chores_executeNumber (w : World) (n : Nat) (stage : free .stage) :
    Chores free w (w.executeNumber n).1 := by
  rcases execute_cases w (w.programs.getD n (.ofCommands [])) with
    ⟨e, rm, q, refused, -⟩ | ⟨q, -, -, -, accepted⟩
  · rw [executeNumber, refused]
    exact (chores_remark w rm).tail (.minds ..)
  · rw [executeNumber, accepted]
    exact (chores_launch w q stage).tail (.minds ..)

theorem chores_concludeRun (w : World) (o : Outcome) (stage : free .stage) :
    Chores free w (w.concludeRun o) := by
  have settled := chores_settleIdle w stage
  cases o <;> exact (settled.trans (chores_remark _ _)).trans (chores_emit _ _)

/-- The scene is let go of first. -/
theorem chores_conclude_yielded (w : World) (f : Fiber) (o : Outcome) (stage : free .stage)
    (mixer : ∀ channel, f.role = .fade channel → free .mixer) :
    Chores free (w.yieldScene f) (w.conclude f o) := by
  unfold conclude
  dsimp only
  split
  · exact (chores_concludeRun _ _ stage).trans (chores_record _ rfl)
  · exact chores_remark _ _
  · rename_i role
    split
    · exact chores_setFade _ _ _ (mixer _ role)
    · exact .refl
  · exact .refl
  · exact chores_record _ rfl
  · exact .refl

theorem chores_conclude (w : World) (f : Fiber) (o : Outcome) (stage : free .stage)
    (loading : f.holdsScene = true → w.loading = true → free .loading)
    (mixer : ∀ channel, f.role = .fade channel → free .mixer) :
    Chores free w (w.conclude f o) :=
  (chores_yieldScene w f loading).trans (chores_conclude_yielded w f o stage mixer)

/-! ### Callbacks -/

theorem chores_runEffect (w : World) (e : Effect) (stage : free .stage) (stock : free .stock) :
    Chores free w (w.runEffect e) := by
  cases e with
  | note | view => exact chores_note _ _
  | set | add => exact .single (.stocks w.registry _ stock)
  | setChosen => exact .single (.minds ..)
  | panic => exact .refl
  | register => exact .trans (.single (.stocks _ w.vars stock)) (chores_note _ _)
  | execute n => exact (chores_executeNumber w n stage).trans (chores_note _ _)
  | select index => exact (chores_select w index).trans (chores_note _ _)

theorem chores_runEffects (w : World) (es : List Effect) (stage : free .stage)
    (stock : free .stock) : Chores free w (w.runEffects es).1 := by
  fun_induction runEffects w es with
  | case1 | case2 => exact .refl
  | case3 w e rest _ ih => exact (chores_runEffect w e stage stock).trans ih

/-- That a callback was called one more time does not show in its body. -/
theorem map_body_modify {α : Type} (cs : Array (Registered α)) (i : Nat) :
    (cs.modify i fun c => { c with calls := c.calls + 1 }).map (·.body) = cs.map (·.body) := by
  apply Array.ext (by simp)
  intro j _ _
  rw [Array.getElem_map, Array.getElem_map, Array.getElem_modify]
  split <;> rfl

theorem chores_callPredicate (w : World) (index : Nat) :
    Chores free w (w.callPredicate index).1 := by
  unfold callPredicate
  split
  · exact .refl
  · exact .single (.counts _ (map_body_modify _ index) rfl rfl)

theorem chores_callSelector (w : World) (index : Nat) :
    Chores free w (w.callSelector index).1 := by
  unfold callSelector
  split
  · exact .refl
  · exact .single (.counts _ rfl (map_body_modify _ index) rfl)

theorem chores_callAction (w : World) (index : Nat) (stage : free .stage) (stock : free .stock) :
    Chores free w (w.callAction index).1 := by
  unfold callAction
  split
  · exact .refl
  · exact chores_runEffects w _ stage stock

/-! ### Acts -/

/-- The parts that a fiber's work on an act is made to. -/
inductive Needs (w : World) (f : Fiber) : Act → Part → Prop where
  | shows (a : Act) : a.isLoud = true → Needs w f a .stage
  | stays (a : Act) : f.holdsScene = true → Needs w f a .holders
  | yields (a : Act) : f.holdsScene = true → w.loading = true → Needs w f a .loading
  | fades (a : Act) {channel : Channel} : f.role = .fade channel → Needs w f a .mixer
  | plays (channel : Channel) (clip : Clip) (pitch : Float32) : w.rig.mixed = true →
      Needs w f (.play channel clip pitch) .mixer
  | hushes (channel : Channel) (span : Span) : w.rig.mixed = true →
      Needs w f (.hush channel span) .mixer
  | hushesMusic (span : Span) : w.rig.mixed = true → Needs w f (.hushMusic span) .mixer
  | silences (channel : Channel) : Needs w f (.silence channel) .mixer
  | lowers (s : Sweep) {channel : Channel} : s.paint = .volume channel → Needs w f (.sweep s) .mixer
  | paints (s : Sweep) {color : Color} {start stop : Float32} : s.paint = .board color start stop →
      Needs w f (.sweep s) .board
  | acts (action : Nat) : Needs w f (.action action) .stock
  | loads (job : SceneJob) {gated : Bool} {p : Part} : w.rig.scenes = .board gated →
      w.loading = false → p ∈ [Part.masks, .loading, .holders] → Needs w f (.load job) p
  | enters (scene : String) : w.rig.scenes = .board true → Needs w f (.enterScene scene) .releases
  | lifts : Needs w f .release .masks
  | releases : w.loading = true → Needs w f .release .loading

section

variable (idle : f.holdsScene = true → free .holders)
include idle

theorem chores_first (w : World) {acts : List Act} (plain : acts.any Fiber.isRelease = false) :
    Chores free w (w.resume (f.first acts)) := by
  refine chores_resume w fun holds => idle ?_
  rwa [Fiber.holdsScene_first, plain, Bool.false_or] at holds

theorem chores_takeFrame {lane : Lane} {act : Act} {next : World → Fiber → Frame → World}
    (plain : Fiber.isRelease act = false)
    (goes : ∀ v f' fr, v.loading = w.loading → f'.holdsScene = f.holdsScene → f'.role = f.role →
      Chores free v (next v f' fr)) : Chores free w (w.takeFrame f lane act next) := by
  unfold takeFrame
  split
  · refine chores_park w .frame fun holds => idle ?_
    simpa [plain] using holds
  · exact chores_resume w idle
  · rename_i fr c missed _
    refine ((chores_lagged w missed).trans (chores_record _ rfl)).trans (goes _ _ fr ?_ ?_ ?_)
    · unfold lagged
      split <;> rfl
    · cases lane <;> rfl
    · cases lane <;> rfl

theorem chores_performReveal (w : World) (r : Reveal) : Chores free w (w.performReveal f r) := by
  unfold performReveal
  split
  · exact chores_resume w idle
  split
  · split
    · exact (chores_remark _ _).trans (chores_resume _ idle)
    · exact chores_resume w idle
  · exact chores_first idle w rfl

theorem chores_performConfirm (w : World) : Chores free w (w.performConfirm f) := by
  refine chores_takeFrame idle rfl fun v f' fr _ same _ => ?_
  split
  · exact chores_resume v (same ▸ idle)
  · exact chores_first (same ▸ idle) v rfl

theorem chores_performOffer (w : World) (options : List String) :
    Chores free w (w.performOffer f options) := by
  unfold performOffer
  split
  · exact chores_resume w idle
  · exact .trans (.single (.minds ..)) (chores_first idle _ rfl)

theorem chores_performAnswer (w : World) (receiver : Nat) (options : List String) :
    Chores free w (w.performAnswer f receiver options) := by
  unfold performAnswer
  split
  · exact chores_park w _ idle
  · exact .trans (.single (.minds ..)) (chores_first idle _ rfl)
  · exact chores_resume w idle

theorem chores_performChosen (w : World) (index : Nat) (options : List String) :
    Chores free w (w.performChosen f index options) :=
  ((chores_remark _ _).trans (chores_emit _ _)).trans (chores_first idle _ rfl)

theorem chores_performGoto (w : World) (label : String) :
    Chores free w (w.performGoto f label) := by
  unfold performGoto
  split
  · split
    · exact (chores_remark _ _).trans (chores_resume _ idle)
    · exact chores_resume w idle
  · exact chores_resume w idle

theorem chores_performHush (w : World) (channel : Channel) (span : Span)
    (mixer : w.rig.mixed = true → free .mixer) :
    Chores free w (w.performHush f channel span) := by
  have faded := chores_fadeOut w channel span mixer
  unfold performHush
  split
  · rename_i same
    rw [same] at faded
    exact faded.trans (chores_resume _ idle)
  · rename_i same
    rw [same] at faded
    exact (faded.trans (chores_remark _ _)).trans (chores_resume _ idle)

theorem chores_performHushMusic (w : World) (span : Span)
    (mixer : w.rig.mixed = true → free .mixer) :
    Chores free w (w.performHushMusic f span) := by
  have faded := chores_fadeOut w .bgm span mixer
  unfold performHushMusic
  split
  · rename_i same
    rw [same] at faded
    exact faded.trans (chores_resume _ idle)
  · rename_i same
    rw [same] at faded
    exact (faded.trans (chores_remark _ _)).trans (chores_resume _ idle)

theorem chores_performEnterScene (w : World) (scene : String)
    (releases : w.rig.scenes = .board true → free .releases) :
    Chores free w (w.performEnterScene f scene) := by
  have entered := (chores_spendRelease w releases).trans (chores_enterScene _ scene)
  unfold performEnterScene
  split
  · exact chores_park w _ idle
  split
  all_goals
    rename_i same
    rw [same] at entered
    exact entered.trans (chores_resume _ idle)

theorem chores_performFinish (w : World) (a : Animation) (stage : free .stage) :
    Chores free w (w.performFinish f a) := by
  unfold performFinish
  split
  · exact chores_park w _ idle
  · have spent : Chores free w
        (if w.rig.gatedStage then { w with permits := w.permits - 1 } else w) := by
      split
      · exact .single (.minds ..)
      · exact .refl
    exact (spent.trans (chores_stage _ _ stage)).trans (chores_resume _ idle)

theorem chores_performCount (w : World) (timer : Nat) (due : Option Span) (stage : free .stage) :
    Chores free w (w.performCount f timer due) := by
  unfold performCount
  split
  · exact chores_resume w idle
  dsimp only
  split
  · exact (chores_timeOut _ _ stage).trans (chores_resume _ idle)
  split
  · exact (chores_remark _ _).trans (chores_resume _ idle)
  split
  · exact .trans (.single (.minds ..)) ((chores_stage _ _ stage).trans (chores_first idle _ rfl))
  · exact chores_park w _ idle

theorem chores_performRelease (w : World) (masks : free .masks)
    (loading : w.loading = true → free .loading) :
    Chores free w (w.performRelease f) := by
  refine (chores_maskBoard w false masks).trans (.trans (.single (.holds false ?_))
    (chores_resume _ idle))
  cases busy : w.loading with
  | false => exact .inl busy.symm
  | true => exact .inr (loading busy)

theorem chores_afterCall {α : Type} (w : World) (kind : CallbackKind) (index : Nat) (a : Answer α)
    {next : α → Fiber} (idle' : ∀ x, (next x).holdsScene = true → free .holders)
    (ends : ∀ o, Chores free w (w.conclude f o)) :
    Chores free w (w.afterCall f kind index a next) := by
  cases a with
  | value x => exact chores_resume w (idle' x)
  | panicked text => exact ends _
  | unknown => exact chores_resume w idle

theorem chores_unwind (w : World) (e : Failure) {a : Act} (masks : a = .release → free .masks)
    (loading : a = .release → w.loading = true → free .loading)
    (mixer : ∀ channel, a = .silence channel → free .mixer) : Chores free w (w.unwind f e a) := by
  unfold unwind
  split
  · exact chores_performRelease idle w (masks rfl) (loading rfl)
  · exact (chores_remark _ _).trans (chores_resume _ idle)
  · exact ((chores_remark _ _).trans (chores_silence _ _ (mixer _ rfl))).trans
      (chores_resume _ idle)
  · exact chores_resume w idle

end

section

variable {a : Act} (needs : ∀ p, w.Needs f a p → free p) (loud : a.isLoud = true)
include needs loud

theorem chores_conclude_needs {v : World} {f' : Fiber} (loading : v.loading = w.loading)
    (holds : f'.holdsScene = f.holdsScene) (role : f'.role = f.role) (o : Outcome) :
    Chores free v (v.conclude f' o) := by
  refine chores_conclude v f' o (needs _ (.shows a loud)) (fun past busy => ?_) fun _ fade => ?_
  · exact needs _ (.yields a (holds ▸ past) (loading ▸ busy))
  · exact needs _ (.fades a (role ▸ fade))

end

theorem chores_performSweep {s : Sweep} (needs : ∀ p, w.Needs f (.sweep s) p → free p) :
    Chores free w (w.performSweep f s) := by
  have idle (holds : f.holdsScene = true) : free .holders := needs _ (.stays _ holds)
  have painted (w : World) (color : Color) (board : free .board) :
      Chores free w (w.setBoard color) := chores_setBoard w color board
  unfold performSweep
  split
  · refine .trans ?_ (chores_first idle _ rfl)
    cases paint : s.paint with
    | nothing => exact .refl
    | tint => exact chores_stage _ _ (needs _ (.shows _ rfl))
    | board => exact painted _ _ (needs _ (.paints s paint))
    | volume => exact chores_modifyStrip _ _ _ (needs _ (.lowers s paint))
  · refine .trans ?_ (chores_resume _ idle)
    cases paint : s.paint with
    | nothing | volume => exact .refl
    | tint => exact chores_stage _ _ (needs _ (.shows _ rfl))
    | board => exact painted _ _ (needs _ (.paints s paint))

theorem chores_performStride {s : Sweep} (needs : ∀ p, w.Needs f (.stride s) p → free p) :
    Chores free w (w.performStride f s) := by
  have idle (holds : f.holdsScene = true) : free .holders := needs _ (.stays _ holds)
  refine chores_takeFrame idle rfl fun v f' fr loading holds role => ?_
  split
  · exact chores_first (holds ▸ idle) v rfl
  · exact chores_conclude_needs needs rfl loading holds role _

theorem chores_performLoad {job : SceneJob} (needs : ∀ p, w.Needs f (.load job) p → free p) :
    Chores free w (w.performLoad f job) := by
  have idle (holds : f.holdsScene = true) : free .holders := needs _ (.stays _ holds)
  unfold performLoad
  split
  · exact (chores_record _ rfl).trans (chores_resume _ idle)
  · exact chores_resume w idle
  · rename_i gated rig
    split
    · exact (chores_remark _ _).trans (chores_resume _ idle)
    · rename_i away
      have past (p : Part) (among : p ∈ [Part.masks, .loading, .holders]) : free p :=
        needs p (.loads job rig (by simpa using away) among)
      refine .trans (.single (.holds true (.inr (past _ (by simp))))) ?_
      exact (chores_maskBoard _ true (past _ (by simp))).trans
        (chores_resume _ fun _ => past _ (by simp))

/-- A fiber's work on an act is made to what the act needs. -/
theorem chores_perform {a : Act} (needs : ∀ p, w.Needs f a p → free p) :
    Chores free w (w.perform f a) := by
  have idle (holds : f.holdsScene = true) : free .holders := needs _ (.stays a holds)
  have stage (loud : a.isLoud = true) : free .stage := needs _ (.shows a loud)
  have first {acts : List Act} (plain : acts.any Fiber.isRelease = false) :
      (f.first acts).holdsScene = true → free .holders := by
    rwa [Fiber.holdsScene_first, plain, Bool.false_or]
  -- The flag of the load is read again when a callback panics, and no callback lowers it.
  have called {α : Type} {v : World} {r : Option Reply} {kind : CallbackKind} {index : Nat}
      {an : Answer α} {next : α → Fiber} (called : Chores free w v)
      (steady : Chores (· ≠ .loading) w v)
      (idle' : ∀ x, (next x).holdsScene = true → free .holders) (loud : a.isLoud = true) :
      Chores free w ((v.noteReply r).afterCall f kind index an next) := by
    have same : (v.noteReply r).loading = w.loading :=
      loading_chores (fun shut => shut rfl) (steady.trans (chores_noteReply v r))
    exact (called.trans (chores_noteReply v r)).trans
      (chores_afterCall idle _ _ _ _ idle' fun o =>
        chores_conclude_needs needs loud same rfl rfl o)
  cases a with
  | remark r => exact (chores_remark w r).trans (chores_resume _ idle)
  | stage call => exact (chores_stage w call (stage rfl)).trans (chores_resume _ idle)
  | finish an => exact chores_performFinish idle w an (stage rfl)
  | resync | listen | loaded | watchBoard => exact chores_resume w idle
  | sweep s => exact chores_performSweep needs
  | stride s => exact chores_performStride needs
  | reveal r => exact chores_performReveal idle w r
  | confirm => exact chores_performConfirm idle w
  | offer options => exact chores_performOffer idle w options
  | answer receiver options => exact chores_performAnswer idle w receiver options
  | chosen index options => exact chores_performChosen idle w index options
  | branch predicate otherwise =>
    have calls {free : Part → Prop} : Chores free w _ := chores_callPredicate w predicate
    refine called calls calls (fun holds => ?_) rfl
    split
    · exact idle
    · exact first rfl
  | switch selector =>
    have calls {free : Part → Prop} : Chores free w _ := chores_callSelector w selector
    exact called calls calls (fun _ => first rfl) rfl
  | action action =>
    exact called (chores_callAction w action (stage rfl) (needs _ (.acts action)))
      (chores_callAction w action nofun nofun) (fun _ => idle) rfl
  | goto label => exact chores_performGoto idle w label
  | tween => exact (chores_spawn w _ _ rfl).trans (chores_resume _ idle)
  | play channel clip pitch =>
    exact (chores_play w channel clip pitch fun mixed => needs _ (.plays _ _ _ mixed)).trans
      (chores_resume _ idle)
  | hush channel span =>
    exact chores_performHush idle w channel span fun mixed => needs _ (.hushes _ _ mixed)
  | timer c => exact (chores_startCountdown w c (stage rfl)).trans (chores_resume _ idle)
  | stopTimer =>
    exact ((chores_remark w _).trans (chores_stopCountdown _)).trans (chores_resume _ idle)
  | count timer due => exact chores_performCount idle w timer due (stage rfl)
  | load job => exact chores_performLoad needs
  | hushMusic span =>
    exact chores_performHushMusic idle w span fun mixed => needs _ (.hushesMusic _ mixed)
  | switchScene => exact (chores_record w rfl).trans (chores_resume _ idle)
  | enterScene scene =>
    exact chores_performEnterScene idle w scene fun gated => needs _ (.enters _ gated)
  | release =>
    exact chores_performRelease idle w (needs _ .lifts) fun busy => needs _ (.releases busy)
  | clearBoard => exact chores_first (f := w.watchBoard f) idle w rfl
  | silence channel =>
    exact (chores_silence w channel (needs _ (.silences channel))).trans (chores_resume _ idle)

/-! ### Turns -/

/-- The parts that the turn of a fiber is made to. -/
inductive Engages (w : World) (f : Fiber) : Part → Prop where
  | shows : Engages w f .stage
  | stays : f.holdsScene = true → Engages w f .holders
  | yields : f.holdsScene = true → w.loading = true → Engages w f .loading
  | fades {channel : Channel} : f.role = .fade channel → Engages w f .mixer
  | performs {a : Act} {rest : List Act} {p : Part} : f.doomed = false → w.isCancelled f = false →
      f.fault = none → f.todo = a :: rest → w.Needs { f with todo := rest } a p → Engages w f p
  | lifts {rest : List Act} : f.todo = .release :: rest → Engages w f .masks
  | releases {rest : List Act} : f.todo = .release :: rest → w.loading = true →
      Engages w f .loading
  | silences {channel : Channel} {rest : List Act} : f.todo = .silence channel :: rest →
      Engages w f .mixer

section

variable (engages : ∀ p, w.Engages f p → free p)
include engages

theorem chores_conclude_engages (o : Outcome) : Chores free w (w.conclude f o) :=
  chores_conclude w f o (engages _ .shows) (fun past busy => engages _ (.yields past busy))
    fun _ fade => engages _ (.fades fade)

theorem chores_fetch : Chores free w (w.fetch f) := by
  unfold fetch
  split
  · split
    · exact chores_conclude_engages engages _
    · rename_i r _ _ c _
      have entered : Chores free w { w with state := w.state.enter r.pointer c } :=
        .single (.minds ..)
      exact ((entered.trans (chores_remark _ _)).trans (chores_emit _ _)).trans
        (chores_resume _ (by simp [Fiber.holdsScene, c.any_isRelease_acts]))
  · exact chores_conclude_engages engages _

theorem chores_advance : Chores free w (w.advance f) := by
  unfold advance
  split
  · exact chores_conclude_engages engages _
  rename_i spared
  split
  · unfold noteCancelled
    split
    · exact chores_remark w _
    · exact .refl
  rename_i going
  split
  · exact chores_fetch engages
  · exact chores_conclude_engages engages _
  · rename_i a rest todo fault
    exact chores_perform fun p needs => engages p
      (.performs (by simpa using spared) (by simpa using going) fault todo needs)
  · rename_i a rest e todo _
    have idle (holds : Fiber.holdsScene { f with todo := rest } = true) : free .holders := by
      refine engages _ (.stays ?_)
      rw [Fiber.holdsScene, todo, List.any_cons, show rest.any Fiber.isRelease = true from holds,
        Bool.or_true]
    refine chores_unwind idle w e ?_ ?_ ?_
    · rintro rfl
      exact engages _ (.lifts todo)
    · rintro rfl busy
      exact engages _ (.releases todo busy)
    · rintro channel rfl
      exact engages _ (.silences todo)

end

/-- The turn of a fiber is made to what the fiber engages. -/
theorem chores_turn {rest : List Fiber} (ready : w.ready = f :: rest)
    (engages : ∀ p, (w.taken f rest).Engages f p → free p) : Chores free w w.turn := by
  have crew : w.crew.Perm (f.calm :: (w.taken f rest).crew) :=
    .of_eq (by simp [World.crew, fibers, taken, ready])
  have taken : Chores free w { w with ready := rest } := by
    refine .single (.moves rest w.blocked w.nextFiber ?_)
    cases holds : f.holdsScene with
    | true => exact .inl (engages _ (.stays holds))
    | false => exact .inr (filter_holdsScene_cons crew holds).symm
  have advanced := chores_advance engages
  rw [turn_cons ready]
  exact ((taken.tail (.minds ..)).trans advanced).tail (.minds ..)

end World

end SceneScript
