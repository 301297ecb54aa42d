import Mathlib.Algebra.GroupWithZero.Nat
import Mathlib.Algebra.Order.BigOperators.Group.List
import Mathlib.Algebra.Order.Group.Nat
import SceneScript.Proofs.Screen
/-!
The fade back from a new scene. Its frames are read from where the fiber stood when the scene was
entered: frames that came in while the scene was awaited are taken before any that came later.
-/

namespace SceneScript

/-! ### Reading the feed -/

namespace Feed

structure Grows (feed feed' : Feed) : Prop where
  frames : ∃ new : List Frame, feed'.frames.toList = feed.frames.toList ++ new
  depth : feed'.depth = feed.depth

/-- On the way from `c` to `c'` a reader took `taken`. Unless it fell behind, it took everything. -/
structure Reads (feed : Feed) (c c' : Cursor) (taken : List Frame) : Prop where
  le : c.taken ≤ c'.taken
  within : c' = c ∨ c'.taken ≤ feed.count
  order : taken.Sublist ((feed.frames.toList.take c'.taken).drop c.taken)
  steady : feed.count ≤ c.taken + feed.depth →
    taken = (feed.frames.toList.take c'.taken).drop c.taken

variable {feed feed' feed'' : Feed} {c c' : Cursor} {taken : List Frame} {fr : Frame}

theorem Grows.refl (feed : Feed) : feed.Grows feed := ⟨⟨[], (List.append_nil _).symm⟩, rfl⟩

theorem Grows.trans (first : feed.Grows feed') (second : feed'.Grows feed'') :
    feed.Grows feed'' := by
  obtain ⟨⟨new, frames⟩, depth⟩ := first
  obtain ⟨⟨new', frames'⟩, depth'⟩ := second
  exact ⟨⟨new ++ new', by rw [frames', frames, List.append_assoc]⟩, depth'.trans depth⟩

theorem Moves.grows {kept : Nat} (moves : Moves kept feed feed') : feed.Grows feed' := by
  cases moves with
  | stays | drops => exact ⟨⟨[], (List.append_nil _).symm⟩, rfl⟩
  | publishes delta keys => exact ⟨⟨[_], Array.toList_push⟩, rfl⟩

theorem length_frames (feed : Feed) : feed.frames.toList.length = feed.count :=
  Array.length_toList

theorem Grows.count_le (grows : feed.Grows feed') : feed.count ≤ feed'.count := by
  obtain ⟨new, frames⟩ := grows.frames
  rw [← length_frames, ← length_frames, frames, List.length_append]
  exact Nat.le_add_right _ _

theorem reads_start (feed : Feed) (c : Cursor) : feed.Reads c c [] := by
  have none : (feed.frames.toList.take c.taken).drop c.taken = [] := by
    rw [List.drop_take, Nat.sub_self, List.take_zero]
  exact ⟨Nat.le_refl _, .inl rfl, List.nil_sublist _, fun _ => none.symm⟩

theorem Reads.grows (h : feed.Reads c c' taken) (grows : feed.Grows feed') :
    feed'.Reads c c' taken := by
  have same : (feed'.frames.toList.take c'.taken).drop c.taken =
      (feed.frames.toList.take c'.taken).drop c.taken := by
    rcases h.within with rfl | within
    · rw [List.drop_take, List.drop_take, Nat.sub_self, List.take_zero, List.take_zero]
    · obtain ⟨new, frames⟩ := grows.frames
      rw [frames, List.take_append_of_le_length (by rwa [length_frames])]
  refine ⟨h.le, h.within.imp_right fun within => Nat.le_trans within grows.count_le, ?_, ?_⟩
  · rw [same]
    exact h.order
  · intro near
    rw [same]
    rw [grows.depth] at near
    exact h.steady (Nat.le_trans grows.count_le near)

/-- Taking one more frame. -/
theorem Reads.pull (h : feed.Reads c c' taken) {c'' : Cursor} {missed : Nat}
    (pulled : feed.pull c' = .frame fr c'' missed) : feed.Reads c c'' (taken ++ [fr]) := by
  obtain ⟨found, place⟩ := of_pull_eq_frame pulled
  generalize here : max c'.taken (feed.frames.size - feed.depth) = n at found place
  have past : c'.taken ≤ n := here ▸ Nat.le_max_left _ _
  have before : c.taken ≤ n := Nat.le_trans h.le past
  obtain ⟨bound, -⟩ := Array.getElem?_eq_some_iff.mp found
  have all : (feed.frames.toList.take c''.taken).drop c.taken =
      (feed.frames.toList.take n).drop c.taken ++ [fr] := by
    have found' : feed.frames.toList[n]? = some fr := by rw [Array.getElem?_toList, found]
    have length : (feed.frames.toList.take n).length = n := by
      rw [List.length_take, Array.length_toList, Nat.min_eq_left (Nat.le_of_lt bound)]
    rw [place, List.take_add_one, found', Option.toList_some,
      List.drop_append_of_le_length (by rwa [length])]
  refine ⟨by omega, .inr (place ▸ bound), ?_, fun near => ?_⟩
  · rw [all]
    exact (h.order.trans ((List.take_sublist_take_left past).drop _)).append_right _
  · have still : n = c'.taken := by
      have le := h.le
      unfold count at near
      omega
    rw [all, still, h.steady near]

theorem Reads.sublist (h : feed.Reads c c' taken) :
    taken.Sublist (feed.frames.toList.drop c.taken) :=
  h.order.trans ((List.take_sublist _ _).drop _)

/-- The first frame taken is the one that the reader stood before. -/
theorem Reads.head (h : feed.Reads c c' taken) (near : feed.count ≤ c.taken + feed.depth)
    (first : taken.head? = some fr) : feed.frames.toList[c.taken]? = some fr := by
  rw [h.steady near, List.drop_take] at first
  cases n : c'.taken - c.taken with
  | zero => simp [n] at first
  | succ k =>
    rw [n, List.head?_take, if_neg (Nat.succ_ne_zero k), List.head?_drop] at first
    exact first

end Feed

def totalDelta (frames : List Frame) : Span := ⟨(frames.map fun f => f.delta.nanos).sum⟩

theorem totalDelta_concat (frames : List Frame) (fr : Frame) :
    (totalDelta (frames ++ [fr])).nanos = (totalDelta frames).nanos + fr.delta.nanos := by
  simp [totalDelta]

theorem totalDelta_le {frames frames' : List Frame} (h : frames.Sublist frames') :
    totalDelta frames ≤ totalDelta frames' :=
  (h.map _).sum_le_sum fun _ _ => Nat.zero_le _

/-! ### The second half of a load -/

/-- How far the second half of a load has come with these frames. -/
inductive Back (job : SceneJob) (taken : List Frame) : List Act → Prop where
  | notes : taken = [] → Back job taken (.remark (.sceneSwitched job.scene) :: job.uncovering)
  | uncovers {a : Act} {s : Sweep} : a.sweep? = some s →
      s.Of (.start .board (.board job.color 1 0) (job.span.without job.span.half)) →
      s.elapsed = totalDelta taken → Back job taken [a, .release]
  | releases : job.span.without job.span.half ≤ totalDelta taken → Back job taken [.release]

theorem Back.any_isRelease {job : SceneJob} {taken : List Frame} {pend : List Act}
    (h : Back job taken pend) : pend.any Fiber.isRelease = true := by
  cases h <;> simp [SceneJob.uncovering, Fiber.isRelease]

theorem Back.of_release {job : SceneJob} {rest : List Act} {taken : List Frame}
    (h : Back job taken (.release :: rest)) :
    job.span.without job.span.half ≤ totalDelta taken := by
  cases h with
  | uncovers sweep => cases sweep
  | releases enough => exact enough

theorem Sweep.elapsed_take {s s' : Sweep} {fr : Frame} {taken : List Frame}
    (took : s.take? fr = some s') (elapsed : s.elapsed = totalDelta taken) :
    s'.elapsed = totalDelta (taken ++ [fr]) := by
  rw [(Sweep.of_take? took).2, elapsed]
  exact congrArg Span.mk (totalDelta_concat taken fr).symm

/-- The fiber has entered the scene of its load and taken these frames since, from the place `c`
on. -/
structure Fiber.Uncovers (f : Fiber) (job : SceneJob) (after : List Act) (feed : Feed) (c : Cursor)
    (taken : List Frame) : Prop where
  fault : f.fault = none
  todo : ∃ pend, f.todo = pend ++ after ∧ Back job taken pend
  reads : ∃ c', f.boardCursor = some c' ∧ feed.Reads c c' taken

namespace World

def took (w : World) (id : Nat) : List Frame := tale Deed.took? id w.entries

variable {w w' w₀ x : World} {f f' : Fiber} {job : SceneJob} {after : List Act} {c : Cursor}
  {taken base : List Frame}

theorem took_record (w : World) (id : Nat) {d : Deed} (silent : d.took? = none) :
    (w.record d).took id = w.took id := tale_record w id silent

theorem took_lagged (w : World) (id missed : Nat) : (w.lagged missed).took id = w.took id := by
  unfold lagged
  split
  · rfl
  · exact took_record w id rfl

/-- What a turn of the fiber makes of the second half. -/
inductive Ebbs (w : World) (f : Fiber) (job : SceneJob) (after : List Act) (c : Cursor)
    (base : List Frame) (x : World) : Prop where
  | goes (f' : Fiber) (taken : List Frame) : f'.calm ∈ x.crew → f'.id = f.id →
      f'.Uncovers job after x.feed c taken → x.took f.id = base ++ taken →
      Ebbs w f job after c base x
  | lifts : x.masks = w.masks ++ [(some f.id, false)] → Ebbs w f job after c base x
  | falls : f.id ∉ x.crew.map (·.id) → Ebbs w f job after c base x

theorem Ebbs.resume (id : f'.id = f.id) (uncovers : f'.Uncovers job after x.feed c taken)
    (took : x.took f.id = base ++ taken) : Ebbs w f job after c base (x.resume f') :=
  .goes f' taken (by simp [crew, fibers, World.resume]) id uncovers took

theorem Ebbs.park (wait : Wait) (id : f'.id = f.id)
    (uncovers : f'.Uncovers job after x.feed c taken)
    (took : x.took f.id = base ++ taken) : Ebbs w f job after c base (x.park wait f') :=
  .goes f' taken ((crew_park x wait f').mem_iff.mpr List.mem_cons_self) id uncovers took

section

variable {pend : List Act} {s : Sweep} {c' : Cursor} (fault : f.fault = none)
  (placed : f.boardCursor = some c') (reads : w.feed.Reads c c' taken)
  (took : w.took f.id = base ++ taken)
  (same : s.Of (.start .board (.board job.color 1 0) (job.span.without job.span.half)))
  (elapsed : s.elapsed = totalDelta taken)
include fault placed reads took same elapsed

theorem ebbs_sweep :
    Ebbs w f job after c base (w.performSweep { f with todo := .release :: after } s) := by
  have painted (d : Color) : (w.setBoard d).took f.id = base ++ taken :=
    (took_record { w with boardColor := d } f.id rfl).trans took
  unfold performSweep
  rw [same.paint]
  split
  · have back : Back job taken [.stride s, .release] := .uncovers rfl same elapsed
    exact .resume rfl ⟨fault, ⟨_, rfl, back⟩, c', placed, reads⟩ (painted _)
  · rename_i reached
    have enough : job.span.without job.span.half ≤ totalDelta taken := by
      rw [← elapsed]
      rw [same.span] at reached
      exact Nat.le_of_not_lt reached
    exact .resume rfl ⟨fault, ⟨[.release], rfl, .releases enough⟩, c', placed, reads⟩ (painted _)

theorem ebbs_stride (sources : 0 < w.feed.sources) (fresh : f.id ∉ w.crew.map (·.id))
    (below : f.id < w.nextFiber) (actor : w.actor = some f.id) :
    Ebbs w f job after c base (w.performStride { f with todo := .release :: after } s) := by
  unfold performStride
  rcases takeFrame_eq w { f with todo := .release :: after } s.lane (.stride s) _ sources with
    heq | ⟨fr, c'', missed, pulled, heq⟩
  · rw [heq]
    have back : Back job taken [.stride s, .release] := .uncovers rfl same elapsed
    exact .park _ rfl ⟨fault, ⟨_, rfl, back⟩, c', placed, reads⟩ took
  rw [heq]
  have kept : Keeps True w ((w.lagged missed).record (.took fr)) :=
    (keeps_lagged w missed).trans (keeps_record _ _ fun _ => rfl)
  split
  · rename_i s' next
    have stands : ({ f with todo := .release :: after } : Fiber).cursorOn s.lane = some c' := by
      rw [same.lane]
      exact placed
    rw [stands] at pulled
    have back : Back job (taken ++ [fr]) [.sweep s', .release] :=
      .uncovers rfl (same.take next) (Sweep.elapsed_take next elapsed)
    have feed : ((w.lagged missed).record (.took fr)).feed = w.feed := by
      have took : Chores (fun _ => True) w ((w.lagged missed).record (.took fr)) :=
        (chores_lagged w missed).trans (chores_record _ rfl)
      exact feed_chores took
    rw [show s.lane = .board from same.lane]
    refine .resume rfl ⟨fault, ⟨_, rfl, back⟩, c'', rfl, feed ▸ reads.pull pulled⟩ ?_
    have actor' : (w.lagged missed).actor = some f.id :=
      (keeps_lagged w missed : Keeps True _ _).actor.trans actor
    show tale Deed.took? f.id ((w.lagged missed).record (.took fr)).entries = _
    rw [entries_record, tale_append, actor', tale_own, ← List.append_assoc, ← took,
      ← took_lagged w f.id missed]
    rfl
  · have concluded := (kept.weaken False.elim).trans (keeps_conclude_any _
      (Fiber.setCursor { f with todo := .release :: after } s.lane c'') (.panicked overflowText))
    exact .falls (fresh_of_keeps concluded fresh below)

end

theorem Fiber.Uncovers.holdsScene {feed : Feed} (h : f.Uncovers job after feed c taken) :
    f.holdsScene = true := by
  obtain ⟨pend, todo, back⟩ := h.todo
  rw [Fiber.holdsScene, todo, List.any_append, back.any_isRelease]
  rfl

/-- A turn of the fiber in the second half of its load. -/
theorem ebbs_advance (actor : w.actor = some f.id) (sources : 0 < w.feed.sources)
    (dutiful : f.Dutiful) (fresh : f.id ∉ w.crew.map (·.id)) (below : f.id < w.nextFiber)
    (uncovers : f.Uncovers job after w.feed c taken) (took : w.took f.id = base ++ taken) :
    Ebbs w f job after c base (w.advance f) := by
  cases doomed : f.doomed with
  | true =>
    rw [advance, if_pos doomed]
    exact .falls (fresh_of_keeps (keeps_conclude_any w f _) fresh below)
  | false =>
    have going := isCancelled_holder w dutiful (Fiber.Uncovers.holdsScene uncovers)
    obtain ⟨fault, ⟨pend, todo, back⟩, c', placed, reads⟩ := uncovers
    cases back with
    | notes none =>
      rw [advance_perform doomed going todo fault]
      have back : Back job taken job.uncovering :=
        .uncovers rfl ⟨rfl, rfl, rfl⟩ (by rw [none]; rfl)
      exact .resume rfl ⟨fault, ⟨_, rfl, back⟩, c', placed, reads⟩
        ((took_record w f.id rfl).trans took)
    | @uncovers a s sweep same elapsed =>
      rw [advance_perform doomed going todo fault]
      cases a with
      | sweep =>
        cases sweep
        exact ebbs_sweep fault placed reads took same elapsed
      | stride =>
        cases sweep
        exact ebbs_stride fault placed reads took same elapsed sources fresh below actor
      | _ => cases sweep
    | releases enough =>
      rw [advance_perform doomed going todo fault]
      refine .lifts ?_
      rw [← actor]
      exact masks_maskBoard w false

/-! ### From the change of scene on -/

/-- What has become of a load since it entered its scene in `w`. -/
inductive Ebbing (w : World) (id : Nat) (job : SceneJob) (after : List Act) (c : Cursor)
    (x : World) : Prop where
  | under (f : Fiber) (taken : List Frame) : f ∈ x.crew → f.id = id →
      f.Uncovers job after x.feed c taken → x.took id = w.took id ++ taken →
      Ebbing w id job after c x
  | ended (masks : List (Option Nat × Bool)) : x.masks = w.masks ++ masks →
      (∃ m ∈ masks, m.1 = some id) → Ebbing w id job after c x
  | gone : id < x.nextFiber → (∀ g ∈ x.crew, g.id ≠ id) → Ebbing w id job after c x

theorem Later.masks (later : Later w w') : ∃ masks, w'.masks = w.masks ++ masks := by
  obtain ⟨es, grown, -⟩ := later.entries
  exact ⟨es.filterMap Entry.mask?, by rw [World.masks, grown, List.filterMap_append]; rfl⟩

theorem Screened.grows (h : w.Screened) (order : w.InOrder) (beat : Beat w w') :
    w.feed.Grows w'.feed := by
  rcases beat_cases beat with rfl | hosted
  · rw [h.feed_turn order]
    exact .refl _
  · exact hosted.feed.grows

theorem ebbing_ended {id : Nat} (later : Later w w') {masks : List (Option Nat × Bool)}
    (since : w.masks = w₀.masks ++ masks) (ended : ∃ m ∈ masks, m.1 = some id) :
    Ebbing w₀ id job after c w' := by
  obtain ⟨more, grown⟩ := later.masks
  obtain ⟨m, among, author⟩ := ended
  have member : m ∈ masks ++ more := List.mem_append_left _ among
  exact .ended (masks ++ more) (by rw [grown, since, List.append_assoc]) ⟨m, member, author⟩

theorem Ebbing.turn (h : Ebbing w₀ f.id job after c w) (order : w.InOrder) (screened : w.Screened)
    (later : Later w w.turn) {masks : List (Option Nat × Bool)}
    (since : w.masks = w₀.masks ++ masks) {rest : List Fiber} (ready : w.ready = f :: rest) :
    Ebbing w₀ f.id job after c w.turn := by
  have member := calm_mem_crew ready
  obtain ⟨-, fresh, below⟩ := order.crewed.taken ready
  cases h with
  | ended masks' since' ended => exact ebbing_ended later since' ended
  | gone _ gone => exact absurd rfl (gone f.calm member)
  | under g taken among same uncovers took =>
    obtain rfl := order.crewed.eq_of_id among member same
    obtain ⟨fault, todo, reads⟩ := uncovers
    have dutiful : f.Dutiful := order.crewed.dutiful f.calm member
    have ebbs := ebbs_advance (w := w.taken f rest) rfl screened.sources_pos dutiful fresh below
      ⟨fault, todo, reads⟩ took
    rw [turn_cons ready] at later ⊢
    cases ebbs with
    | goes f' taken' among' same' uncovers' took' =>
      obtain ⟨fault', todo', reads'⟩ := uncovers'
      exact .under f'.calm taken' among' same' ⟨fault', todo', reads'⟩ took'
    | lifts lifted =>
      refine .ended (masks ++ [(some f.id, false)]) ?_ ⟨_, List.mem_concat_self, rfl⟩
      rw [← List.append_assoc, ← since]
      exact lifted
    | falls fallen =>
      refine .gone (Nat.lt_of_lt_of_le below later.nextFiber) fun g among' same' => fallen ?_
      exact List.mem_map.mpr ⟨g, among', same'⟩

theorem Ebbing.beat {id : Nat} (h : Ebbing w₀ id job after c w) (order : w.InOrder)
    (screened : w.Screened) (later : Later w w') (beat : Beat w w')
    {masks : List (Option Nat × Bool)} (since : w.masks = w₀.masks ++ masks) :
    Ebbing w₀ id job after c w' := by
  by_cases own : ∃ f rest, w.ready = f :: rest ∧ w' = w.turn ∧ f.id = id
  · obtain ⟨f, rest, ready, rfl, rfl⟩ := own
    exact h.turn order screened later since ready
  have other (f : Fiber) (rest : List Fiber) (ready : w.ready = f :: rest) (turned : w' = w.turn) :
      f.id ≠ id := fun same => own ⟨f, rest, ready, turned, same⟩
  cases h with
  | under f taken member same uncovers took =>
    obtain ⟨fault, todo, c', placed, reads⟩ := uncovers
    refine .under f taken (mem_crew_beat order beat member (same ▸ other)) same
      ⟨fault, todo, c', placed, reads.grows (screened.grows order beat)⟩ ?_
    exact (tale_beat order beat other).trans took
  | ended masks' since' ended => exact ebbing_ended later since' ended
  | gone below gone =>
    refine .gone (Nat.lt_of_lt_of_le below later.nextFiber) fun g member same => ?_
    rcases later.crew g member with ⟨f, among, old⟩ | hired
    · exact gone f among (old.id.trans same)
    · have young := hired.id_ge
      omega

/-! ### The fade back -/

/-- In its turn the fiber, past the check of its load, enters the scene. -/
structure Enters (w : World) (f : Fiber) (scene : String) : Prop
    extends Comes w f (.enterScene scene) where
  holds : f.holdsScene = true
  fault : f.fault = none
  granted : w.waitsForRelease = false
  entered : (w.spendRelease.enterScene scene).2 = .ok ()

theorem enterScene_of_ok {scene : String} (entered : (w.enterScene scene).2 = .ok ()) :
    w.enterScene scene = (w.remark (.sceneLoaded scene), .ok ()) := by
  unfold enterScene at entered ⊢
  split at entered
  · cases entered
  split at entered
  · cases entered
  rename_i found named
  rw [if_neg found, if_neg named]

theorem sceneFails_spendRelease (w : World) : w.spendRelease.sceneFails = w.sceneFails := by
  unfold spendRelease
  split <;> rfl

theorem Enters.enterScene_taken {scene : String} (enters : w.Enters f scene) (rest : List Fiber) :
    ((w.taken f rest).spendRelease.enterScene scene).2 = .ok () := by
  have fails : (w.taken f rest).spendRelease.sceneFails = w.spendRelease.sceneFails :=
    (sceneFails_spendRelease _).trans (sceneFails_spendRelease w).symm
  rw [← enters.entered]
  unfold enterScene
  rw [fails]
  split
  · rfl
  · split <;> rfl

theorem Enters.turn {scene : String} (enters : w.Enters f scene) (order : w.InOrder) :
    ∃ rest, f.todo = .enterScene scene :: rest ∧ Fiber.calm { f with todo := rest } ∈ w.turn.crew ∧
      w.turn.took f.id = w.took f.id ∧ w.turn.masks = w.masks ∧ w.turn.feed = w.feed := by
  obtain ⟨others, rest, ready, todo⟩ := enters.toComes.cons
  have entered := enterScene_of_ok (enters.enterScene_taken others)
  have performed : (w.taken f others).perform { f with todo := rest } (.enterScene scene) =
      ((w.taken f others).spendRelease.remark (.sceneLoaded scene)).resume
        { f with todo := rest } := by
    show performEnterScene _ _ _ = _
    unfold performEnterScene
    rw [if_neg (by simp [show (w.taken f others).waitsForRelease = false from enters.granted]),
      entered]
  have turned := turn_perform order ready todo enters.spared (fun _ _ => rfl) enters.fault
  rw [performed] at turned
  have enters : Chores (·.isCurtained = false) (w.taken f others)
      ((w.taken f others).spendRelease.remark (.sceneLoaded scene)) :=
    .trans (chores_spendRelease _ fun _ => rfl) (chores_remark _ _)
  have curtain := curtain_chores enters
  have took : ((w.taken f others).spendRelease.remark (.sceneLoaded scene)).took f.id =
      w.took f.id := by
    refine (took_record _ f.id rfl).trans ?_
    unfold spendRelease
    split <;> rfl
  generalize (w.taken f others).spendRelease.remark (.sceneLoaded scene) = w₁ at turned curtain took
  refine ⟨rest, todo, ?_, ?_, ?_, ?_⟩
  · rw [turned]
    exact List.mem_cons_self
  · rw [turned]
    exact took
  · rw [turned]
    exact congrArg Curtain.masks curtain
  · rw [turned]
    exact congrArg Curtain.feed curtain

/-- The frames that a fiber took between `w` and `x`. -/
def takenSince (w x : World) (id : Nat) : List Frame := (x.took id).drop (w.took id).length

def publishedSince (w x : World) : List Frame := x.feed.frames.toList.drop w.feed.count

/-- The fade back of a load that entered its scene in `w` with its fiber standing at `c`, with the
fiber as it is in `x`. -/
structure FadesBack (w x : World) (g : Fiber) (half : Span) (c : Cursor) : Prop where
  order : (takenSince w x g.id).Sublist (x.feed.frames.toList.drop c.taken)
  /-- A fiber that had taken every frame takes none that came before the scene. -/
  fresh : w.feed.count ≤ c.taken → (takenSince w x g.id).Sublist (publishedSince w x)
  /-- Otherwise the first frame it takes had been there before, unless it fell behind since. -/
  stale : c.taken < w.feed.count → x.feed.count ≤ c.taken + x.feed.depth →
    ∀ fr, (takenSince w x g.id).head? = some fr → w.feed.frames[c.taken]? = some fr
  enough : g.todo.head? = some .release → half ≤ totalDelta (takenSince w x g.id)
  shown : w.feed.count ≤ c.taken → g.todo.head? = some .release →
    half ≤ totalDelta (publishedSince w x)

theorem fadesBack_of_uncovers {g : Fiber} (grows : w.feed.Grows x.feed)
    (uncovers : g.Uncovers job after x.feed c taken) (took : x.took g.id = w.took g.id ++ taken) :
    FadesBack w x g (job.span.without job.span.half) c := by
  have since : takenSince w x g.id = taken := by rw [takenSince, took, List.drop_left]
  obtain ⟨fault, ⟨pend, todo, back⟩, c', placed, reads⟩ := uncovers
  have fresh (caught : w.feed.count ≤ c.taken) : taken.Sublist (publishedSince w x) :=
    reads.sublist.trans (List.drop_sublist_drop_left _ caught)
  have enough (head : g.todo.head? = some .release) :
      job.span.without job.span.half ≤ totalDelta taken := by
    cases pend with
    | nil => cases back
    | cons a pend =>
      rw [todo] at head
      obtain rfl : a = .release := Option.some.inj head
      exact back.of_release
  refine ⟨?_, ?_, ?_, ?_, ?_⟩
  · rw [since]
    exact reads.sublist
  · rw [since]
    exact fresh
  · intro behind near fr first
    rw [since] at first
    have found := reads.head near first
    obtain ⟨new, frames⟩ := grows.frames
    have old : c.taken < w.feed.frames.toList.length := by rwa [Feed.length_frames]
    rwa [frames, List.getElem?_append_left old, Array.getElem?_toList] at found
  · rw [since]
    exact enough
  · intro caught head
    exact Nat.le_trans (enough head) (totalDelta_le (fresh caught))

theorem Screened.entering (h : w.Screened) {scene : String} (enters : w.Enters f scene) :
    ∃ job rest c, f.todo = SceneJob.entering job ++ rest ∧ f.boardCursor = some c := by
  obtain ⟨others, acts, ready, todo⟩ := enters.toComes.cons
  have member := calm_mem_crew ready
  obtain ⟨job, rest, ⟨pend, left, leg⟩, -⟩ := h.loads f.calm member enters.holds
  obtain ⟨a, pend, rfl⟩ := List.exists_cons_of_ne_nil leg.ne_nil
  obtain ⟨rfl, -⟩ := List.cons.inj (todo.symm.trans left)
  obtain ⟨entering, placed⟩ := leg.of_enterScene
  obtain ⟨c, placed⟩ := Option.isSome_iff_exists.mp placed
  exact ⟨job, rest, c, entering ▸ left, placed⟩

/-- Everything that follows the turn in which the fiber entered its scene. -/
theorem ebbing_after {scene : String} {rest : List Act} (enters : w.Enters f scene)
    (order : w.InOrder) (screened : w.Screened) (tended : w.Tended)
    (todo : f.todo = job.entering ++ rest) (placed : f.boardCursor = some c) (ms : List Move) :
    let x := w.turn.after ms
    (∃ masks, x.masks = w.masks ++ masks) ∧ w.feed.Grows x.feed ∧ x.Crewed ∧
      Ebbing w f.id job rest c x := by
  intro x
  have beat : Beat w w.turn := .lull (.turn w)
  have later := beat.later order tended
  obtain ⟨acts, todo', member, took, masks, feed⟩ := enters.turn order
  obtain ⟨-, rfl⟩ : _ ∧ _ := List.cons.inj (todo'.symm.trans todo)
  have start : Ebbing w f.id job rest c w.turn := by
    have back : Back job [] (.remark (.sceneSwitched job.scene) :: job.uncovering) := .notes rfl
    refine .under _ [] member rfl ⟨enters.fault, ⟨_, rfl, back⟩, c, placed, ?_⟩ ?_
    · exact Feed.reads_start _ c
    · rw [took, List.append_nil]
  have along := (order.beat beat).along (beats_after w.turn ms)
    (P := fun x => x.Tended ∧ x.Screened ∧ (∃ masks, x.masks = w.masks ++ masks) ∧
      w.feed.Grows x.feed ∧ Ebbing w f.id job rest c x)
    ⟨tended.later later, screened.beat order tended beat, later.masks, feed ▸ .refl _, start⟩
    fun order beat kept => by
      obtain ⟨tended, screened, ⟨masks, since⟩, grows, ebbing⟩ := kept
      have later := beat.later order tended
      obtain ⟨more, grown⟩ := later.masks
      exact ⟨tended.later later, screened.beat order tended beat,
        ⟨masks ++ more, by rw [grown, since, List.append_assoc]⟩,
        grows.trans (screened.grows order beat), ebbing.beat order screened later beat since⟩
  exact ⟨along.2.2.2.1, along.2.2.2.2.1, along.1.crewed, along.2.2.2.2.2⟩

/-- After the change of scene a load reads on from where it stood in the feed. Only if it had taken
every frame by then does the host see the whole fade back. -/
theorem fades_back_from_place (o : Opening) (before after : List Move) {f : Fiber} {scene : String}
    (enters : (o.world.after before).Enters f scene) :
    let w := o.world.after before
    let x := w.turn.after after
    ∃ job rest c, f.todo = SceneJob.entering job ++ rest ∧ f.boardCursor = some c ∧
      ∀ g ∈ x.fibers, g.id = f.id → (∀ m ∈ x.masks.drop w.masks.length, m.1 ≠ some f.id) →
        FadesBack w x g (job.span.without job.span.half) c := by
  intro w x
  have screened : w.Screened := screened_after o before
  obtain ⟨job, rest, c, todo, placed⟩ := screened.entering enters
  obtain ⟨⟨masks, since⟩, grows, crewed, ebbing⟩ := ebbing_after enters (inOrder_after o before)
    screened (tended_after o before) todo placed after
  refine ⟨job, rest, c, todo, placed, fun g member same still => ?_⟩
  rw [since, List.drop_left] at still
  cases ebbing with
  | under f' taken among same' uncovers took =>
    obtain rfl := crewed.eq_of_id (mem_crew_of_mem_fibers member) among (same.trans same'.symm)
    obtain ⟨fault, todo', reads⟩ := uncovers
    exact fadesBack_of_uncovers grows ⟨fault, todo', reads⟩ (same ▸ took)
  | ended masks' since' ended =>
    obtain rfl := List.append_cancel_left (since.symm.trans since')
    obtain ⟨m, among, author⟩ := ended
    exact absurd author (still m among)
  | gone _ gone => exact absurd same (gone g.calm (mem_crew_of_mem_fibers member))

theorem fades_back_from_place_caught_up :
    let o : Opening := ⟨default, { (default : Rig) with scenes := .board false }, 8, default, default, []⟩
    let burst : Move := .host (.burst [(⟨1⟩, .nothing)])
    let before := .host (.load ⟨"town", .black, ⟨2⟩, false⟩) :: List.replicate 3 .turn ++
      burst :: List.replicate 3 .turn
    let w := o.world.after before
    let x := w.turn.after (burst :: List.replicate 4 .turn)
    ∃ f, w.Enters f "town" ∧
      ∃ job rest c, f.todo = SceneJob.entering job ++ rest ∧ f.boardCursor = some c ∧
        ∀ g ∈ x.fibers, g.id = f.id → (∀ m ∈ x.masks.drop w.masks.length, m.1 ≠ some f.id) →
          FadesBack w x g (job.span.without job.span.half) c := by
  refine Exists.imp (fun f enters => ⟨enters, fades_back_from_place _ _ _ enters⟩) ?_
  exact ⟨_, ⟨rfl, rfl, rfl⟩, rfl, rfl, rfl, rfl⟩

/-- Frames that came in while the scene was awaited can make up the whole fade back: the load
returns though the host has published nothing since. -/
theorem pending_frames_fade_back :
    let o : Opening := ⟨default, { (default : Rig) with scenes := .board true }, 8, default, default, []⟩
    let burst : Move := .host (.burst [(⟨1⟩, .nothing)])
    let job : SceneJob := ⟨"town", .black, ⟨2⟩, false⟩
    let w := o.world.after (.host (.load job) :: List.replicate 3 .turn ++
      burst :: List.replicate 4 .turn ++ [burst, .host .release])
    let x := w.turn.after (List.replicate 4 .turn)
    ∃ f g, w.Enters f "town" ∧ f.todo = job.entering ∧ x.Comes g .release ∧ g.id = f.id ∧
      g.fault = none ∧ totalDelta (publishedSince w x) < job.span.without job.span.half := by
  refine ⟨_, _, ⟨⟨rfl, rfl, rfl⟩, rfl, rfl, rfl, rfl⟩, rfl, ⟨rfl, rfl, rfl⟩, rfl, rfl, ?_⟩
  show totalDelta [] < _
  decide

end World

end SceneScript
