import SceneScript.Proofs.Account
import SceneScript.Proofs.Curtain
/-!
A load leg by leg: what is left of it, the colour it gave to the board last, and what a turn of its
fiber makes of it (`fares_advance`). Past the check a load goes on, lifts its mask and is over, or
falls with its fiber: when the fiber is told to stop, or when its time overflows.
-/

namespace SceneScript

/-! ### The legs of a load -/

namespace SceneJob

def uncovering (job : SceneJob) : List Act :=
  [.sweep (.start .board (.board job.color 1 0) (job.span.without job.span.half)), .release]

def entering (job : SceneJob) : List Act :=
  .enterScene job.scene :: .remark (.sceneSwitched job.scene) :: job.uncovering

def covering (job : SceneJob) : List Act :=
  .watchBoard :: .sweep (.start .board (.board job.color 0 1) job.span.half) ::
    .switchScene job.scene :: job.entering

end SceneJob

/-- The sweep that a fiber is in, before a frame or waiting for one. -/
def Act.sweep? : Act → Option Sweep
  | .sweep s | .stride s => some s
  | _ => none

/-- `s` comes from `s₀` by taking frames. -/
structure Sweep.Of (s s₀ : Sweep) : Prop where
  lane : s.lane = s₀.lane
  paint : s.paint = s₀.paint
  span : s.span = s₀.span

theorem Sweep.Of.take {s s' s₀ : Sweep} {fr : Frame} (h : s.Of s₀) (taken : s.take? fr = some s') :
    s'.Of s₀ := by
  obtain ⟨elapsed, -, rfl⟩ := Option.map_eq_some_iff.mp taken
  exact ⟨h.lane, h.paint, h.span⟩

/-- What is left of a load up to its release, the error on its way, the colour that its fiber gave
to the board last, and whether the fiber holds its place in the feed yet. -/
inductive Leg (job : SceneJob) : List Act → Option Failure → Option Color → Bool → Prop where
  | hushes {shown : Option Color} {placed : Bool} :
      Leg job (.hushMusic job.span :: job.covering) none shown placed
  | watches {shown : Option Color} {placed : Bool} : Leg job job.covering none shown placed
  | covers {a : Act} {s : Sweep} {shown : Option Color} : a.sweep? = some s →
      s.Of (.start .board (.board job.color 0 1) job.span.half) →
      Leg job (a :: .switchScene job.scene :: job.entering) none shown true
  | switches :
      Leg job (.switchScene job.scene :: job.entering) none (some (job.color.withAlpha 1)) true
  | enters : Leg job job.entering none (some (job.color.withAlpha 1)) true
  | notes : Leg job (.remark (.sceneSwitched job.scene) :: job.uncovering) none
      (some (job.color.withAlpha 1)) true
  | uncovers {a : Act} {s : Sweep} {shown : Option Color} : a.sweep? = some s →
      s.Of (.start .board (.board job.color 1 0) (job.span.without job.span.half)) →
      Leg job [a, .release] none shown true
  | releases : Leg job [.release] none (some (job.color.withAlpha 0)) true
  /-- The scene could not be entered: the rest is skipped, and the board stays as it is. -/
  | fails {pend : List Act} (text : String) : pend ≠ [] →
      pend <:+ .remark (.sceneSwitched job.scene) :: job.uncovering →
      Leg job pend (some (.scene text)) (some (job.color.withAlpha 1)) true

theorem SceneJob.leg_acts (job : SceneJob) (shown : Option Color) (placed : Bool) :
    Leg job job.acts none shown placed := by
  have acts : job.acts =
      (if job.fadeMusic then [.hushMusic job.span] else []) ++ job.covering := rfl
  rw [acts]
  cases job.fadeMusic with
  | true => exact .hushes
  | false => exact .watches

theorem Leg.any_isRelease {job : SceneJob} {pend : List Act} {fault : Option Failure}
    {shown : Option Color} {placed : Bool} (h : Leg job pend fault shown placed) :
    pend.any Fiber.isRelease = true := by
  cases h with
  | fails text some suffix =>
    have last : pend.getLast some = .release := by
      rw [suffix.getLast some]
      rfl
    refine List.any_eq_true.mpr ⟨.release, ?_, rfl⟩
    rw [← last]
    exact List.getLast_mem some
  | _ => simp [SceneJob.covering, SceneJob.entering, SceneJob.uncovering, Fiber.isRelease]

theorem Leg.of_fault {job : SceneJob} {pend : List Act} {e : Failure} {shown : Option Color}
    {placed : Bool} (h : Leg job pend (some e) shown placed) : ∃ text, e = .scene text ∧
      pend <:+ .remark (.sceneSwitched job.scene) :: job.uncovering ∧
      shown = some (job.color.withAlpha 1) ∧ placed = true := by
  cases h with
  | fails text _ suffix => exact ⟨text, rfl, suffix, rfl, rfl⟩

theorem Leg.of_release {job : SceneJob} {rest : List Act} {fault : Option Failure}
    {shown : Option Color} {placed : Bool} (h : Leg job (.release :: rest) fault shown placed) :
    fault = none ∧ shown = some (job.color.withAlpha 0) ∨
      ∃ text, fault = some (.scene text) ∧ shown = some (job.color.withAlpha 1) := by
  generalize todo : .release :: rest = pend at h
  cases h with
  | covers sweep | uncovers sweep =>
    obtain ⟨rfl, -⟩ := List.cons.inj todo
    cases sweep
  | releases => exact .inl ⟨rfl, rfl⟩
  | fails text => exact .inr ⟨text, rfl, rfl⟩
  | _ => cases todo

theorem Leg.of_enterScene {job : SceneJob} {scene : String} {rest : List Act}
    {fault : Option Failure} {shown : Option Color} {placed : Bool}
    (h : Leg job (.enterScene scene :: rest) fault shown placed) :
    .enterScene scene :: rest = job.entering ∧ placed = true := by
  generalize todo : .enterScene scene :: rest = pend at h
  cases h with
  | covers sweep | uncovers sweep =>
    obtain ⟨rfl, -⟩ := List.cons.inj todo
    cases sweep
  | enters => exact ⟨rfl, rfl⟩
  | fails text some suffix =>
    have among := suffix.subset (todo ▸ List.mem_cons_self)
    simp [SceneJob.uncovering] at among
  | _ => cases todo

theorem Leg.ne_nil {job : SceneJob} {pend : List Act} {fault : Option Failure}
    {shown : Option Color} {placed : Bool} (h : Leg job pend fault shown placed) : pend ≠ [] := by
  rintro rfl
  simpa using h.any_isRelease

/-- The fiber is past the check of its load, with `after` to do when that is over. -/
structure Fiber.Loads (f : Fiber) (job : SceneJob) (after : List Act) (shown : Option Color) :
    Prop where
  todo : ∃ pend, f.todo = pend ++ after ∧ Leg job pend f.fault shown f.boardCursor.isSome
  after : after.any Fiber.isRelease = false

theorem Fiber.Loads.holdsScene {f : Fiber} {job : SceneJob} {after : List Act}
    {shown : Option Color}
    (h : f.Loads job after shown) : f.holdsScene = true := by
  obtain ⟨pend, todo, leg⟩ := h.todo
  rw [Fiber.holdsScene, todo, List.any_append, leg.any_isRelease]
  rfl

theorem Fiber.isSome_boardCursor_setCursor {f : Fiber} (lane : Lane) (c : Cursor)
    (placed : f.boardCursor.isSome = true) : (f.setCursor lane c).boardCursor.isSome = true := by
  cases lane with
  | own => exact placed
  | board => rfl

/-! ### The board as the fiber painted it -/

def Deed.board? : Deed → Option Color
  | .scene (.board color) => some color
  | _ => none

theorem Feed.pull_ne_closed {feed : Feed} (c : Cursor) (sources : 0 < feed.sources) :
    feed.pull c ≠ .closed := by
  unfold pull
  dsimp only
  split
  · simp
  · rw [if_neg (by omega)]
    simp

theorem Feed.of_pull_eq_frame {feed : Feed} {c c' : Cursor} {fr : Frame} {missed : Nat}
    (h : feed.pull c = .frame fr c' missed) :
    feed.frames[max c.taken (feed.frames.size - feed.depth)]? = some fr ∧
      c'.taken = max c.taken (feed.frames.size - feed.depth) + 1 := by
  unfold pull at h
  dsimp only at h
  split at h
  · rename_i fr' found
    cases h
    exact ⟨found, rfl⟩
  · split at h <;> cases h

namespace World

/-- The colour that a fiber gave to the board last. -/
def board (w : World) (id : Nat) : Option Color := (tale Deed.board? id w.entries).getLast?

variable {w w₁ : World} {f f' : Fiber} {job : SceneJob} {after : List Act}

theorem entries_record (w : World) (d : Deed) :
    (w.record d).entries = w.entries ++ [⟨w.actor, d⟩] := by
  simp [entries, record]

theorem tale_record {α : Type} {g : Deed → Option α} (w : World) (id : Nat) {d : Deed}
    (silent : g d = none) : tale g id (w.record d).entries = tale g id w.entries := by
  rw [entries_record, tale_append_none (by simp [silent])]

theorem board_record (w : World) (id : Nat) {d : Deed} (silent : d.board? = none) :
    (w.record d).board id = w.board id :=
  congrArg List.getLast? (tale_record w id silent)

theorem board_setBoard (w : World) {id : Nat} (color : Color) (actor : w.actor = some id) :
    (w.setBoard color).board id = some color := by
  rw [setBoard, board, entries_record, tale_append, actor, tale_own]
  simp [Deed.board?]

theorem masks_maskBoard (w : World) (blocked : Bool) :
    (w.maskBoard blocked).masks = w.masks ++ [(w.actor, blocked)] := by
  have masked := congrArg Curtain.masks (curtain_remark (w.record (.scene (.blocked blocked)))
    (.boardMask blocked))
  exact masked.trans (masks_record w _)

theorem curtain_resume_holder (w : World) (holds : f.holdsScene = true) :
    (w.resume f).curtain = { w.curtain with holders := f.calm ::ₘ w.holders } := by
  rw [curtain, holders_cons_self (f := f) (.refl _) holds]
  rfl

theorem curtain_park_holder (w : World) (wait : Wait) (holds : f.holdsScene = true) :
    (w.park wait f).curtain = { w.curtain with holders := f.calm ::ₘ w.holders } := by
  rw [curtain, holders_cons_self (crew_park w wait f) holds]
  rfl

/-! ### A turn of the load's fiber -/

/-- Some frame makes the time of the sweep the fiber is in overflow. -/
def Overruns (w : World) (f : Fiber) : Prop :=
  ∃ s fr, f.todo.head? = some (.stride s) ∧ fr ∈ w.feed.frames ∧ s.take? fr = none

/-- What the turn of a fiber makes of its load. -/
inductive Fares (w : World) (f : Fiber) (job : SceneJob) (after : List Act) (x : World) : Prop where
  | goes (f' : Fiber) : f'.id = f.id → f'.Loads job after (x.board f.id) →
      x.curtain = { w.curtain with holders := f'.calm ::ₘ w.holders } → Fares w f job after x
  | lifts : f.todo = .release :: after →
      x.curtain =
        { w.curtain with loading := false, masks := w.masks ++ [(some f.id, false)] } →
      Fares w f job after x
  | falls : f.doomed = true ∨ w.Overruns f → x.curtain = { w.curtain with loading := false } →
      f.id ∉ x.crew.map (·.id) → Fares w f job after x

theorem Fares.resume (id : f'.id = f.id) (curtain : w₁.curtain = w.curtain)
    (loads : f'.Loads job after (w₁.board f.id)) : Fares w f job after (w₁.resume f') := by
  refine .goes f' id loads ?_
  rw [curtain_resume_holder w₁ loads.holdsScene, curtain, show w₁.holders = w.holders from
    congrArg Curtain.holders curtain]

theorem Fares.park (wait : Wait) (id : f'.id = f.id) (curtain : w₁.curtain = w.curtain)
    (loads : f'.Loads job after (w₁.board f.id)) : Fares w f job after (w₁.park wait f') := by
  refine .goes f' id loads ?_
  rw [curtain_park_holder w₁ wait loads.holdsScene, curtain, show w₁.holders = w.holders from
    congrArg Curtain.holders curtain]

theorem keeps_conclude_any (w : World) (f : Fiber) (o : Outcome) :
    Keeps False w (w.conclude f o) := by
  cases run : f.run? with
  | none => exact conclude_background w o (by simp [Fiber.isRun, run])
  | some r => exact keeps_conclude w o (role_of_run? run)

theorem Fares.conclude (o : Outcome) (holds : f'.holdsScene = true)
    (fallen : f.doomed = true ∨ w.Overruns f)
    (curtain : w₁.curtain = w.curtain) (fresh : f.id ∉ w₁.crew.map (·.id))
    (below : f.id < w₁.nextFiber) : Fares w f job after (w₁.conclude f' o) := by
  refine .falls fallen ?_ (fresh_of_keeps (keeps_conclude_any w₁ f' o) fresh below)
  have yielded : (w₁.yieldScene f').curtain = { w₁.curtain with loading := false } := by
    rw [yieldScene, if_pos holds]
    rfl
  rw [curtain_conclude, yielded, curtain]

theorem isCancelled_eq_false (w : World) {a : Act} (dutiful : f.Dutiful) (member : a ∈ f.todo)
    (foreign : ∀ target scope, (Role.tween target scope).allows a = false) :
    w.isCancelled f = false := by
  cases role : f.role with
  | tween target scope =>
    have idle : f.isRun = false := by simp [Fiber.isRun, Fiber.run?, role]
    have allowed := dutiful idle a member
    rw [role, foreign] at allowed
    cases allowed
  | _ => simp [isCancelled, role]

theorem isCancelled_holder (w : World) (dutiful : f.Dutiful) (holds : f.holdsScene = true) :
    w.isCancelled f = false := by
  obtain ⟨a, member, release⟩ := List.any_eq_true.mp holds
  refine isCancelled_eq_false w dutiful member fun _ _ => ?_
  cases a with
  | release => rfl
  | _ => cases release

/-- A fiber that may wait for frames never sees the end of the feed. -/
theorem takeFrame_eq (w : World) (f : Fiber) (lane : Lane) (act : Act)
    (next : World → Fiber → Frame → World) (sources : 0 < w.feed.sources) :
    w.takeFrame f lane act next = w.park .frame (f.first [act]) ∨
      ∃ fr c missed, w.feed.pull ((f.cursorOn lane).getD w.feed.subscribe) = .frame fr c missed ∧
        w.takeFrame f lane act next =
          next ((w.lagged missed).record (.took fr)) (f.setCursor lane c) fr := by
  unfold takeFrame
  split
  · exact .inl rfl
  · rename_i closed
    exact absurd closed (Feed.pull_ne_closed _ sources)
  · rename_i fr c missed pulled
    exact .inr ⟨fr, c, missed, pulled, rfl⟩

section

variable (fault : f.fault = none) (placed : f.boardCursor.isSome = true)
  (clear : after.any Fiber.isRelease = false)
include fault placed clear

theorem loads_of_leg {pend : List Act} {shown : Option Color} (leg : Leg job pend none shown true) :
    Fiber.Loads { f with todo := pend ++ after } job after shown := by
  refine ⟨⟨pend, rfl, ?_⟩, clear⟩
  show Leg job pend f.fault shown f.boardCursor.isSome
  rwa [fault, placed]

theorem fares_sweep {s : Sweep} {pend : List Act} {color : Color} {start stop : Float32}
    (actor : w.actor = some f.id) (paint : s.paint = .board color start stop)
    (stays : ∀ shown, Leg job (.stride s :: pend) none shown true)
    (ends : Leg job pend none (some (color.withAlpha stop)) true) :
    Fares w f job after (w.performSweep { f with todo := pend ++ after } s) := by
  unfold performSweep
  rw [paint]
  split
  · exact .resume rfl (curtain_chores (chores_setBoard _ _ rfl))
      (loads_of_leg fault placed clear (stays _))
  · refine .resume rfl (curtain_chores (chores_setBoard _ _ rfl)) ⟨⟨pend, rfl, ?_⟩, clear⟩
    show Leg job pend f.fault _ f.boardCursor.isSome
    rw [fault, placed, paintLast, board_setBoard w _ actor]
    exact ends

theorem fares_stride {s : Sweep} {pend : List Act} (todo : f.todo = .stride s :: pend ++ after)
    (sources : 0 < w.feed.sources) (fresh : f.id ∉ w.crew.map (·.id)) (below : f.id < w.nextFiber)
    (stays : Leg job (.stride s :: pend) none (w.board f.id) true)
    (goes : ∀ s' fr shown, s.take? fr = some s' → Leg job (.sweep s' :: pend) none shown true) :
    Fares w f job after (w.performStride { f with todo := pend ++ after } s) := by
  unfold performStride
  rcases takeFrame_eq w { f with todo := pend ++ after } s.lane (.stride s) _ sources with
    heq | ⟨fr, c, missed, pulled, heq⟩
  · rw [heq]
    exact .park _ rfl rfl (loads_of_leg fault placed clear stays)
  rw [heq]
  have took : ((w.lagged missed).record (.took fr)).curtain = w.curtain :=
    curtain_chores ((chores_lagged w missed).trans (chores_record _ rfl))
  have kept : Keeps True w ((w.lagged missed).record (.took fr)) :=
    (keeps_lagged w missed).trans (keeps_record _ _ fun _ => rfl)
  obtain ⟨id, -, todo', fault'⟩ := setCursor_fields { f with todo := pend ++ after } s.lane c
  split
  · rename_i s' taken
    refine .resume id took ⟨⟨.sweep s' :: pend, by rw [Fiber.first, todo']; rfl, ?_⟩, clear⟩
    have placed' := Fiber.isSome_boardCursor_setCursor (f := { f with todo := pend ++ after })
      s.lane c placed
    show Leg job _ (Fiber.fault (Fiber.setCursor _ s.lane c)) _
      (Fiber.setCursor { f with todo := pend ++ after } s.lane c).boardCursor.isSome
    rw [fault', placed', show Fiber.fault { f with todo := pend ++ after } = none from fault]
    exact goes s' fr _ taken
  · rename_i overflows
    refine .conclude _ ?_ (.inr ⟨s, fr, by rw [todo]; rfl, ?_, overflows⟩) took
      (fresh_of_keeps kept fresh below) (Nat.lt_of_lt_of_le below kept.nextFiber)
    · have left : pend.any Fiber.isRelease = true := stays.any_isRelease
      rw [Fiber.holdsScene_setCursor, Fiber.holdsScene, List.any_append, left]
      rfl
    · exact Array.mem_of_getElem? (Feed.of_pull_eq_frame pulled).1

theorem fares_enterScene {scene : String} {pend : List Act}
    (stays : Leg job (.enterScene scene :: pend) none (w.board f.id) true)
    (goes : Leg job pend none (w.board f.id) true)
    (fails : ∀ text, Leg job pend (some (.scene text)) (w.board f.id) true) :
    Fares w f job after (w.performEnterScene { f with todo := pend ++ after } scene) := by
  have same (w : World) : (w.enterScene scene).1.board f.id = w.board f.id := by
    unfold enterScene
    split
    · rfl
    · split
      · rfl
      · exact board_record w f.id rfl
  have spent : w.spendRelease.board f.id = w.board f.id := by
    unfold spendRelease
    split <;> rfl
  have enters : Chores (·.isCurtained = false) w (w.spendRelease.enterScene scene).1 :=
    .trans (chores_spendRelease w fun _ => rfl) (chores_enterScene _ scene)
  have curtain := curtain_chores enters
  have shown := (same w.spendRelease).trans spent
  have failed : ∀ {w₁ e}, w.spendRelease.enterScene scene = (w₁, .error e) →
      ∃ text, e = .scene text := by
    intro w₁ e entered
    unfold enterScene at entered
    split at entered
    · cases entered
      exact ⟨_, rfl⟩
    · split at entered <;> cases entered
      exact ⟨_, rfl⟩
  unfold performEnterScene
  split
  · exact .park _ rfl rfl (loads_of_leg fault placed clear stays)
  split
  · rename_i w₁ entered
    rw [entered] at curtain shown
    refine .resume rfl curtain (loads_of_leg fault placed clear ?_)
    rwa [show w₁.board f.id = w.board f.id from shown]
  · rename_i w₁ e entered
    obtain ⟨text, rfl⟩ := failed entered
    rw [entered] at curtain shown
    refine .resume rfl curtain ⟨⟨pend, rfl, ?_⟩, clear⟩
    show Leg job pend (some (.scene text)) (w₁.board f.id) f.boardCursor.isSome
    rw [show w₁.board f.id = w.board f.id from shown, placed]
    exact fails text

end

theorem fares_release (actor : w.actor = some f.id) (todo : f.todo = .release :: after)
    (clear : after.any Fiber.isRelease = false) :
    Fares w f job after (w.performRelease { f with todo := after }) := by
  refine .lifts todo ?_
  unfold performRelease
  rw [curtain_resume _ (by exact clear)]
  show Curtain.mk false (w.maskBoard false).masks w.holders w.feed = _
  rw [masks_maskBoard, actor]
  rfl

theorem advance_perform {a : Act} {rest : List Act} (spared : f.doomed = false)
    (going : w.isCancelled f = false) (todo : f.todo = a :: rest) (fault : f.fault = none) :
    w.advance f = w.perform { f with todo := rest } a := by
  rw [advance, if_neg (by simp [spared]), if_neg (by simp [going]), todo, fault]

theorem advance_unwind {a : Act} {rest : List Act} {e : Failure} (spared : f.doomed = false)
    (going : w.isCancelled f = false) (todo : f.todo = a :: rest) (fault : f.fault = some e) :
    w.advance f = w.unwind { f with todo := rest } e a := by
  rw [advance, if_neg (by simp [spared]), if_neg (by simp [going]), todo, fault]

/-- The turn of a fiber that nothing keeps from its next act. -/
theorem turn_going {a : Act} {rest : List Fiber} (ready : w.ready = f :: rest)
    (spared : f.doomed = false) (going : w.isCancelled f = false) (fault : f.fault = none)
    (todo : f.todo = a :: after) :
    w.turn = { (w.taken f rest).perform { f with todo := after } a with actor := none } := by
  have going : (w.taken f rest).isCancelled f = false := going
  rw [turn_cons ready, advance_perform spared going todo fault]

/-- After a failure it does what it has to, or skips it. -/
theorem turn_skipping {a : Act} {rest : List Fiber} {e : Failure} (ready : w.ready = f :: rest)
    (spared : f.doomed = false) (going : w.isCancelled f = false) (fault : f.fault = some e)
    (todo : f.todo = a :: after) :
    w.turn = { (w.taken f rest).unwind { f with todo := after } e a with actor := none } := by
  have going : (w.taken f rest).isCancelled f = false := going
  rw [turn_cons ready, advance_unwind spared going todo fault]

section

variable (actor : w.actor = some f.id) (clear : after.any Fiber.isRelease = false)
include actor clear

theorem fares_perform (sources : 0 < w.feed.sources) (fresh : f.id ∉ w.crew.map (·.id))
    (below : f.id < w.nextFiber) {a : Act} {pend : List Act} (todo : f.todo = a :: pend ++ after)
    (fault : f.fault = none) (leg : Leg job (a :: pend) none (w.board f.id) f.boardCursor.isSome) :
    Fares w f job after (w.perform { f with todo := pend ++ after } a) := by
  generalize shown : w.board f.id = c at leg
  generalize placed : f.boardCursor.isSome = b at leg
  cases leg with
  | hushes =>
    have faded := curtain_chores (chores_fadeOut w .bgm job.span fun _ => rfl)
    have loads (shown : Option Color) :
        Fiber.Loads { f with todo := job.covering ++ after } job after shown :=
      ⟨⟨job.covering, rfl, fault ▸ .watches⟩, clear⟩
    show Fares w f job after (w.performHushMusic { f with todo := job.covering ++ after } job.span)
    unfold performHushMusic
    split
    · rename_i w₁ h
      rw [h] at faded
      exact .resume rfl faded (loads _)
    · rename_i w₁ e h
      rw [h] at faded
      exact .resume rfl ((curtain_remark _ _).trans faded) (loads _)
  | watches => exact .resume rfl rfl ⟨⟨_, rfl, fault ▸ .covers rfl ⟨rfl, rfl, rfl⟩⟩, clear⟩
  | @covers a s _ sweep same =>
    cases a with
    | sweep =>
      cases sweep
      exact fares_sweep fault placed clear actor same.paint (fun _ => .covers rfl same) .switches
    | stride =>
      cases sweep
      refine fares_stride fault placed clear todo sources fresh below (.covers rfl same) ?_
      exact fun s' fr shown taken => .covers rfl (same.take taken)
    | _ => cases sweep
  | switches =>
    refine .resume rfl (curtain_record w rfl) (loads_of_leg fault placed clear ?_)
    rw [board_record w f.id rfl, shown]
    exact .enters
  | enters =>
    refine fares_enterScene fault placed clear ?_ ?_ fun text => ?_
    all_goals rw [shown]
    · exact .enters
    · exact .notes
    · exact .fails text (by simp) (List.suffix_refl _)
  | notes =>
    refine .resume rfl (curtain_remark w _) (loads_of_leg fault placed clear ?_)
    exact .uncovers rfl ⟨rfl, rfl, rfl⟩
  | @uncovers a s _ sweep same =>
    cases a with
    | sweep =>
      cases sweep
      exact fares_sweep fault placed clear actor same.paint (fun _ => .uncovers rfl same) .releases
    | stride =>
      cases sweep
      refine fares_stride fault placed clear todo sources fresh below (.uncovers rfl same) ?_
      exact fun s' fr shown taken => .uncovers rfl (same.take taken)
    | _ => cases sweep
  | releases => exact fares_release actor todo clear

/-- After a failure everything is skipped but the release. -/
theorem fares_unwind {text : String} {a : Act} {pend : List Act}
    (todo : f.todo = a :: pend ++ after)
    (fault : f.fault = some (.scene text)) (placed : f.boardCursor.isSome = true)
    (suffix : a :: pend <:+ .remark (.sceneSwitched job.scene) :: job.uncovering)
    (shown : w.board f.id = some (job.color.withAlpha 1)) :
    Fares w f job after (w.unwind { f with todo := pend ++ after } (.scene text) a) := by
  have skips (left : pend ≠ []) :
      Fares w f job after (w.resume { f with todo := pend ++ after }) := by
    refine .resume rfl rfl ⟨⟨pend, rfl, ?_⟩, clear⟩
    show Leg job pend f.fault (w.board f.id) f.boardCursor.isSome
    rw [fault, placed, shown]
    exact .fails text left ((List.suffix_cons a pend).trans suffix)
  rcases List.suffix_cons_iff.mp suffix with same | suffix
  · obtain ⟨rfl, rfl⟩ := List.cons.inj same
    exact skips (by simp [SceneJob.uncovering])
  rcases List.suffix_cons_iff.mp suffix with same | suffix
  · obtain ⟨rfl, rfl⟩ := List.cons.inj same
    exact skips (by simp)
  rcases List.suffix_cons_iff.mp suffix with same | suffix
  · obtain ⟨rfl, rfl⟩ := List.cons.inj same
    exact fares_release actor todo clear
  · simp at suffix

end

/-- The fiber of a load goes on with it, ends it, or falls with it. -/
theorem fares_advance (actor : w.actor = some f.id) (sources : 0 < w.feed.sources)
    (dutiful : f.Dutiful) (fresh : f.id ∉ w.crew.map (·.id)) (below : f.id < w.nextFiber)
    (loads : f.Loads job after (w.board f.id)) : Fares w f job after (w.advance f) := by
  have holds := loads.holdsScene
  cases doomed : f.doomed with
  | true =>
    rw [advance, if_pos doomed]
    exact .conclude _ holds (.inl doomed) rfl fresh below
  | false =>
    have going := isCancelled_holder w dutiful holds
    obtain ⟨⟨pend, todo, leg⟩, clear⟩ := loads
    obtain ⟨a, rest, rfl⟩ := List.exists_cons_of_ne_nil leg.ne_nil
    cases fault : f.fault with
    | none =>
      rw [advance_perform doomed going todo fault]
      exact fares_perform actor clear sources fresh below todo fault (fault ▸ leg)
    | some e =>
      rw [advance_unwind doomed going todo fault]
      obtain ⟨text, rfl, suffix, shown, placed⟩ := Leg.of_fault (fault ▸ leg)
      exact fares_unwind actor clear todo fault placed suffix shown

end World

end SceneScript
