import SceneScript.Proofs.Handover
import SceneScript.Proofs.Ticking
/-!
No fiber breaks down by itself. Whatever can go wrong in a turn rests on something that holds of every
world: a selection that arrives is one of the options, and the time that a sweep has gone through lies
behind the place of its fiber in the feed.
-/

namespace SceneScript

/-! ### Time in the feed -/

namespace Feed

variable {feed feed' : Feed} {c c' : Cursor} {fr : Frame} {missed : Nat}

/-- The time of all frames. -/
def total (feed : Feed) : Span := totalDelta feed.frames.toList

/-- The time of the frames that lie behind a cursor. -/
def timeAt (feed : Feed) (c : Cursor) : Span := totalDelta (feed.frames.toList.take c.taken)

theorem timeAt_le_total (feed : Feed) (c : Cursor) : feed.timeAt c ≤ feed.total :=
  totalDelta_le (List.take_sublist _ _)

theorem timeAt_subscribe (feed : Feed) : feed.timeAt feed.subscribe = feed.total := by
  rw [timeAt, subscribe, ← Array.length_toList, List.take_length]
  rfl

theorem Grows.timeAt_le (grows : feed.Grows feed') (c : Cursor) :
    feed.timeAt c ≤ feed'.timeAt c := by
  obtain ⟨new, frames⟩ := grows.frames
  refine totalDelta_le ?_
  rw [frames, List.take_append]
  exact List.sublist_append_left _ _

theorem Grows.total_le (grows : feed.Grows feed') : feed.total ≤ feed'.total := by
  obtain ⟨new, frames⟩ := grows.frames
  refine totalDelta_le ?_
  rw [frames]
  exact List.sublist_append_left _ _

theorem timeAt_pull (pulled : feed.pull c = .frame fr c' missed) :
    (feed.timeAt c).nanos + fr.delta.nanos ≤ (feed.timeAt c').nanos := by
  obtain ⟨found, place⟩ := of_pull_eq_frame pulled
  generalize here : max c.taken (feed.frames.size - feed.depth) = n at found place
  have found : feed.frames.toList[n]? = some fr := by simpa using found
  have next : feed.timeAt c' = totalDelta (feed.frames.toList.take n ++ [fr]) := by
    rw [timeAt, place, List.take_add_one, found]
    rfl
  have before : feed.timeAt c ≤ totalDelta (feed.frames.toList.take n) :=
    totalDelta_le (List.take_sublist_take_left (by omega))
  rw [next, totalDelta_concat]
  exact Nat.add_le_add_right before _

end Feed

/-! ### Fibers in pace -/

theorem Sweep.nanos_take {s s' : Sweep} {fr : Frame} (taken : s.take? fr = some s') :
    s'.elapsed.nanos = s.elapsed.nanos + fr.delta.nanos := by
  rw [(Sweep.of_take? taken).2]
  rfl

theorem Countdown.tick_of_running {c : Countdown} (running : c.isExpired = false) :
    c.remaining = c.tick.1.remaining + 1 := by
  cases c with
  | mk n =>
    cases n with
    | zero => cases running
    | succ n => rfl

/-- No sweep among the acts has seen a frame. -/
def Act.Unswept (acts : List Act) : Prop :=
  ∀ a ∈ acts, ∀ s, a.sweep? = some s → s.elapsed = .zero

/-- A fiber that has just begun. It holds no place in the feed but the newest, and the fiber of a run
has yet to fetch its first command. -/
structure Fiber.Fresh (f : Fiber) (feed : Feed) : Prop where
  unswept : Act.Unswept f.todo
  behind : ∀ lane c, f.cursorOn lane = some c → c.taken ≤ feed.count
  run : f.isRun = true → f.cursor.isSome = true ∧ f.todo = []
  scenes : ∀ scene, .enterScene scene ∉ f.todo

/-- What the sweeps of a fiber have gone through lies behind its place in the feed. -/
def Fiber.InPace (f : Fiber) (feed : Feed) : Prop :=
  ∀ a ∈ f.todo, ∀ s, a.sweep? = some s → s.elapsed ≤ feed.timeAt (f.place feed s.lane)

namespace Act

variable {a b : Act} {acts new : List Act} {s : Sweep}

theorem Unswept.append (first : Unswept acts) (second : Unswept new) : Unswept (acts ++ new) :=
  fun a among s sweep => (List.mem_append.mp among).elim (first a · s sweep) (second a · s sweep)

theorem unswept_of_all (none : acts.all (·.sweep?.isNone) = true) : Unswept acts := by
  intro a among s sweep
  have none := List.all_eq_true.mp none a among
  rw [sweep] at none
  cases none

theorem unswept_job (job : SceneJob) : Unswept job.acts := by
  have hush : Unswept (if job.fadeMusic then [.hushMusic job.span] else []) := by
    split <;> exact unswept_of_all rfl
  refine hush.append ?_
  simp [Unswept, sweep?, Sweep.start]

theorem unswept_acts (c : Command) (settings : Settings) (page : Page) :
    Unswept (c.acts settings page) := by
  cases c with
  | wait span => simp [Unswept, Command.acts, sweep?, Sweep.pause, Sweep.start]
  | flash color span hold =>
    simp [Unswept, Command.acts, Command.flashActs, sweep?, Sweep.pause, Sweep.start]
  | image _ texture | portrait _ texture =>
    cases texture <;> exact unswept_of_all rfl
  | boxState isOpen => cases isOpen <;> exact unswept_of_all rfl
  | _ => exact unswept_of_all rfl

/-- Acts that take the place of another one have seen no frame, or as much as it has. -/
theorem elapsed_of_puts (puts : a.Puts new) (other : ∀ s, a ≠ .stride s) (among : b ∈ new)
    (sweep : b.sweep? = some s) : a.sweep? = some s ∨ s.elapsed = .zero := by
  have still (none : Unswept new) : a.sweep? = some s ∨ s.elapsed = .zero :=
    .inr (none b among s sweep)
  cases a with
  | sweep s' =>
    rcases puts with rfl | ⟨-, rfl⟩
    · cases among
    · obtain rfl := List.mem_singleton.mp among
      exact .inl sweep
  | stride s' => exact absurd rfl (other s')
  | finish | confirm | branch | enterScene =>
    rcases puts with rfl | rfl <;> exact still (unswept_of_all rfl)
  | load job =>
    rcases puts with rfl | rfl
    · exact still (unswept_of_all rfl)
    · exact still (unswept_job job)
  | reveal =>
    rcases puts with rfl | ⟨-, _, _, rfl⟩
    · cases among
    · exact still (by simp [Unswept, sweep?, Sweep.pause, Sweep.start])
  | answer | count =>
    rcases puts with rfl | ⟨_, rfl⟩ <;> exact still (unswept_of_all rfl)
  | offer | switch =>
    obtain ⟨_, rfl⟩ := puts
    exact still (unswept_of_all rfl)
  | clearBoard =>
    obtain ⟨_, _, _, _, rfl⟩ := puts
    exact still (by simp [Unswept, sweep?, Sweep.start])
  | _ =>
    obtain rfl : new = _ := puts
    exact still (unswept_of_all rfl)

end Act

namespace Fiber

variable {f g : Fiber} {feed feed' : Feed} {lane : Lane} {s : Sweep}

theorem inPace_of_unswept (unswept : Act.Unswept f.todo) : f.InPace feed := fun a among s sweep => by
  rw [unswept a among s sweep]
  exact Nat.zero_le _

theorem Fresh.of_calm (h : f.Fresh feed) (calm : g.calm = f.calm) : g.Fresh feed := by
  have same : g.calm.Fresh feed := by
    rw [calm]
    exact ⟨h.unswept, h.behind, h.run, h.scenes⟩
  exact ⟨same.unswept, same.behind, same.run, same.scenes⟩

theorem Fresh.grows (h : f.Fresh feed) (grows : feed.Grows feed') : f.Fresh feed' :=
  { h with behind := fun lane c placed => Nat.le_trans (h.behind lane c placed) grows.count_le }

/-- Fibers of the background begin with their newest place in the feed, or with none. -/
theorem fresh_start (id : Nat) {role : Role} {cursor : Option Cursor} {todo : List Act}
    (newest : ∀ c, cursor = some c → c.taken ≤ feed.count) (idle : ∀ r, role ≠ .run r)
    (unswept : Act.Unswept todo) (scenes : ∀ scene, .enterScene scene ∉ todo) :
    (Fiber.start id role cursor todo).Fresh feed where
  unswept := unswept
  behind lane c placed := by
    cases lane with
    | own => exact newest c placed
    | board => cases placed
  run running := by
    obtain ⟨r, same⟩ := (isRun_iff _).mp running
    exact absurd same (idle r)
  scenes := scenes

theorem newest (feed : Feed) : ∀ c, some feed.subscribe = some c → c.taken ≤ feed.count := by
  rintro c same
  obtain rfl := Option.some.inj same
  exact Nat.le_refl _

theorem InPace.grows (h : f.InPace feed) (grows : feed.Grows feed') : f.InPace feed' := by
  intro a among s sweep
  refine Nat.le_trans (h a among s sweep) ?_
  unfold place
  cases f.cursorOn s.lane with
  | some c => exact grows.timeAt_le c
  | none =>
    show feed.timeAt feed.subscribe ≤ feed'.timeAt feed'.subscribe
    rw [Feed.timeAt_subscribe, Feed.timeAt_subscribe]
    exact grows.total_le

theorem InPace.of_calm (h : f.InPace feed) (calm : g.calm = f.calm) : g.InPace feed := by
  have todo : g.calm.todo = f.calm.todo := congrArg Fiber.todo calm
  have place (lane : Lane) : g.calm.place feed lane = f.calm.place feed lane := by rw [calm]
  intro a among s sweep
  have before := h a (todo ▸ among) s sweep
  rw [show f.place feed s.lane = g.place feed s.lane from (place s.lane).symm] at before
  exact before

/-- A fiber that holds its place, takes a new one or gives it up does not go back. -/
theorem timeAt_place (moved : g.cursorOn lane = f.cursorOn lane ∨
      g.cursorOn lane = some feed.subscribe ∨ g.cursorOn lane = none) :
    feed.timeAt (f.place feed lane) ≤ feed.timeAt (g.place feed lane) := by
  rcases moved with same | here | gone
  · rw [place, place, same]
    exact Nat.le_refl _
  · rw [place.eq_def g, here, Option.getD_some, Feed.timeAt_subscribe]
    exact Feed.timeAt_le_total _ _
  · rw [place.eq_def g, gone, Option.getD_none, Feed.timeAt_subscribe]
    exact Feed.timeAt_le_total _ _

end Fiber

/-! ### Who joins -/

namespace Backstage

variable {b b' b'' : Backstage} {f g : Fiber}

def InPace (b : Backstage) : Prop := ∀ f ∈ b.hands, f.InPace b.feed

/-- Whoever is there now was there before, or has just begun. -/
structure Joins (b b' : Backstage) : Prop where
  grows : b.feed.Grows b'.feed
  hands : ∀ g ∈ b'.hands, (∃ f ∈ b.hands, g.calm = f.calm) ∨ g.Fresh b'.feed

theorem Joins.of_hands (hands : b'.hands = b.hands) (feed : b'.feed = b.feed) : Joins b b' where
  grows := feed ▸ .refl _
  hands := fun g among => .inl ⟨g, hands ▸ among, rfl⟩

theorem Joins.refl (b : Backstage) : Joins b b := .of_hands rfl rfl

theorem Joins.trans (first : Joins b b') (second : Joins b' b'') : Joins b b'' where
  grows := first.grows.trans second.grows
  hands g among := by
    rcases second.hands g among with ⟨f, among', calm⟩ | fresh
    · rcases first.hands f among' with ⟨f', among'', calm'⟩ | fresh
      · exact .inl ⟨f', among'', calm.trans calm'⟩
      · exact .inr ((fresh.of_calm calm).grows second.grows)
    · exact .inr fresh

theorem joins_join (b : Backstage) (fresh : f.Fresh b.feed) : Joins b (b.join f) where
  grows := .refl _
  hands g among := by
    rcases Multiset.mem_cons.mp among with rfl | among
    · exact .inr fresh
    · exact .inl ⟨g, among, rfl⟩

theorem joins_doom (b : Backstage) (id : Nat) : Joins b (b.doom id) where
  grows := .refl _
  hands g among := by
    obtain ⟨f, before, rfl⟩ := Multiset.mem_map.mp among
    exact .inl ⟨f, before, Fiber.calm_doom id f⟩

theorem joins_write (b : Backstage) (e : Entry) : Joins b (b.write e) := .of_hands rfl rfl

theorem joins_cancel (b : Backstage) (c : Channel) : Joins b (b.cancel c) := by
  unfold cancel
  split
  · have slot : Joins b (b.setFade c none) := .of_hands rfl rfl
    exact slot.trans (joins_doom _ _)
  · exact .refl b

theorem joins_yield (b : Backstage) (f : Fiber) : Joins b (b.yield f) := by
  unfold yield
  split
  · split <;> exact .of_hands rfl rfl
  · exact .refl b

theorem InPace.joins (h : b.InPace) (joins : Joins b b') : b'.InPace := by
  intro g among
  rcases joins.hands g among with ⟨f, among, calm⟩ | fresh
  · exact ((h f among).of_calm calm).grows joins.grows
  · exact Fiber.inPace_of_unswept fresh.unswept

theorem InPace.join (h : b.InPace) (pace : f.InPace b.feed) : (b.join f).InPace := by
  intro g among
  rcases Multiset.mem_cons.mp among with rfl | among
  · exact pace
  · exact h g among

end Backstage

namespace World

open Backstage

variable {w x : World} {f g : Fiber} {a : Act} {rest : List Fiber} {after : List Act}

theorem joins_play (w : World) (c : Channel) (clip : Clip) (pitch : Float32) :
    Joins w.backstage (w.play c clip pitch).backstage := by
  rw [backstage_play]
  split
  · have quiets : Joins w.backstage (if c.isLooping then w.backstage.cancel c else w.backstage) := by
      split
      · exact joins_cancel _ c
      · exact .refl _
    exact quiets.trans (.of_hands rfl rfl)
  · exact .refl _

theorem joins_fadeOut (w : World) (c : Channel) (span : Span) :
    Joins w.backstage (w.fadeOut c span).1.backstage := by
  rw [backstage_fadeOut]
  split
  · refine (joins_cancel w.backstage c).trans ?_
    split
    · have slot : Joins (w.backstage.cancel c)
          ((w.backstage.cancel c).setFade c (some w.nextFiber)) := .of_hands rfl rfl
      refine slot.trans (joins_join _ (Fiber.fresh_start _ ?_ (by simp) ?_ (by simp)))
      · have feed : (w.backstage.cancel c).feed = w.feed := by
          unfold Backstage.cancel
          split <;> rfl
        exact feed ▸ Fiber.newest w.feed
      · simp [Act.Unswept, Act.sweep?, Sweep.start]
    · exact .of_hands rfl rfl
  · exact .refl _

theorem joins_startCountdown (w : World) (c : Countdown) :
    Joins w.backstage (w.startCountdown c).backstage := by
  rw [backstage_startCountdown]
  refine .trans ?_ (joins_join _ (Fiber.fresh_start _ (by simp) (by simp)
    (Act.unswept_of_all rfl) (by simp)))
  exact .of_hands rfl rfl

theorem joins_work (w : World) (a : Act) : Joins w.backstage (w.work a).backstage := by
  cases a with
  | sweep s =>
    show Joins w.backstage (if s.elapsed < s.span then w.paint s.share s.paint else w).backstage
    split
    · cases s.paint <;> exact .of_hands rfl rfl
    · exact .refl _
  | tween target span start stop =>
    rw [work, backstage_spawn]
    exact joins_join _ (Fiber.fresh_start _ (Fiber.newest w.feed) (by simp)
      (by simp [Act.Unswept, Act.sweep?, Sweep.start]) (by simp))
  | play c clip pitch => exact joins_play w c clip pitch
  | hush c span => exact joins_fadeOut w c span
  | hushMusic span => exact joins_fadeOut w .bgm span
  | silence c =>
    rw [work, backstage_silence]
    exact .of_hands rfl rfl
  | timer c => exact joins_startCountdown w c
  | stopTimer =>
    rw [work, backstage_stopCountdown]
    exact .of_hands rfl rfl
  | count i due =>
    rw [work, backstage_countDown]
    exact .of_hands rfl rfl
  | _ => exact .refl _

theorem joins_amend (w : World) (a : Act) : Joins w.backstage (w.amend a).backstage := by
  cases a with
  | silence c =>
    rw [amend, backstage_silence]
    exact .of_hands rfl rfl
  | _ => exact .refl _

theorem joins_pulse (play : w.InPlay) {p : Pulse} (untaken : p ≠ .turn) :
    Joins w.backstage (w.pulse p).backstage := by
  have grows : w.feed.Grows (w.pulse p).feed := play.grows p
  generalize heq : (w.pulse p).backstage = b
  have grows : w.feed.Grows b.feed := heq ▸ grows
  cases heq ▸ pulse_hosts w untaken with
  | stays feed now => exact ⟨grows, fun g among => .inl ⟨g, among, rfl⟩⟩
  | executes q =>
    have renewed := backstage_renewScope w
    generalize w.renewScope.backstage = b' at renewed
    refine .trans (.of_hands (by rw [renewed]) (by rw [renewed])) (joins_join b' ?_)
    have feed : b'.feed = w.feed := by rw [renewed]; rfl
    refine ⟨Act.unswept_of_all rfl, fun lane c placed => ?_, fun _ => ⟨rfl, rfl⟩, by simp [Fiber.start]⟩
    cases lane with
    | own => exact feed ▸ Fiber.newest w.feed c placed
    | board => cases placed
  | cancels =>
    rw [backstage_cancelSideEffects]
    exact .of_hands rfl rfl
  | plays => exact joins_play w _ _ _
  | fades => exact joins_fadeOut w _ _
  | stops =>
    rw [backstage_stopChannel]
    exact (joins_cancel _ _).trans (.of_hands rfl rfl)
  | loads _ unswept ready =>
    refine joins_join _ (Fiber.fresh_start _ (by simp) (by simp) unswept fun scene among => ?_)
    cases ready _ among
  | aborts => exact joins_doom _ _

/-! ### A fiber stays in pace -/

/-- A fiber that takes no frame keeps its place, takes the newest one or gives it up. -/
theorem cursorOn_goes {f' : Fiber} (cursor : f'.cursor = a.place w.feed f.cursor)
    (board : f'.boardCursor = a.boardPlace w.feed f.boardCursor) (lane : Lane) :
    f'.cursorOn lane = f.cursorOn lane ∨ f'.cursorOn lane = some w.feed.subscribe ∨
      f'.cursorOn lane = none := by
  cases lane with
  | own =>
    show f'.cursor = f.cursor ∨ f'.cursor = _ ∨ _
    rw [cursor]
    cases a with
    | resync => exact .inr (.inl rfl)
    | _ => exact .inl rfl
  | board =>
    show f'.boardCursor = f.boardCursor ∨ f'.boardCursor = _ ∨ f'.boardCursor = none
    rw [board]
    cases a with
    | watchBoard | clearBoard => exact .inr (.inl rfl)
    | release => exact .inr (.inr rfl)
    | _ => exact .inl rfl

section

variable {f' : Fiber} (pace : f.InPace w.feed) (todo : f.todo = a :: after)

include pace todo

theorem inPace_goes (onward : a.Onward { f with todo := after } f')
    (cursor : f'.cursor = a.place w.feed f.cursor)
    (board : f'.boardCursor = a.boardPlace w.feed f.boardCursor)
    (strides : ∀ s, a = .stride s → f'.todo = .stride s :: after ∨ f'.todo = after) :
    f'.InPace w.feed := by
  intro b among s sweep
  refine Nat.le_trans ?_ (Fiber.timeAt_place (cursorOn_goes cursor board s.lane))
  have old (among : b ∈ a :: after) : s.elapsed ≤ w.feed.timeAt (f.place w.feed s.lane) :=
    pace b (todo ▸ among) s sweep
  by_cases stride : ∃ s', a = .stride s'
  · obtain ⟨s', rfl⟩ := stride
    rcases strides s' rfl with same | less
    · exact old (same ▸ among)
    · exact old (List.mem_cons_of_mem _ (less ▸ among))
  · rcases onward.goes with ⟨-, new, todo', puts⟩ | ⟨-, less⟩
    · rw [todo'] at among
      rcases List.mem_append.mp among with among | among
      · rcases Act.elapsed_of_puts puts (fun s' same => stride ⟨s', same⟩) among sweep with
          own | zero
        · exact pace a (todo ▸ List.mem_cons_self) s own
        · rw [zero]
          exact Nat.zero_le _
      · exact old (List.mem_cons_of_mem _ among)
    · rw [less] at among
      exact old (List.mem_cons_of_mem _ among)

theorem inPace_takes {lane : Lane} {fr : Frame} {c : Cursor} {missed : Nat}
    (takes : a.lane? = some lane) (pulled : w.feed.pull (f.place w.feed lane) = .frame fr c missed)
    (onward : a.Onward { f with todo := after } f')
    (cursor : f'.cursor = if lane = .own then some c else f.cursor)
    (board : f'.boardCursor = if lane = .board then some c else f.boardCursor)
    (strides : ∀ s, a = .stride s → ∃ s', s.take? fr = some s' ∧ f'.todo = .sweep s' :: after) :
    f'.InPace w.feed := by
  have forth := Feed.timeAt_pull pulled
  have here : f'.place w.feed lane = c := by
    cases lane <;> simp [Fiber.place, Fiber.cursorOn, cursor, board]
  have place (other : Lane) :
      w.feed.timeAt (f.place w.feed other) ≤ w.feed.timeAt (f'.place w.feed other) := by
    by_cases same : other = lane
    · rw [same, here]
      exact Nat.le_trans (Nat.le_add_right _ _) forth
    · refine Fiber.timeAt_place (.inl ?_)
      cases lane <;> cases other <;> simp_all [Fiber.cursorOn]
  have old {b : Act} {s : Sweep} (among : b ∈ after) (sweep : b.sweep? = some s) :
      s.elapsed ≤ w.feed.timeAt (f'.place w.feed s.lane) :=
    Nat.le_trans (pace b (todo ▸ List.mem_cons_of_mem _ among) s sweep) (place s.lane)
  intro b among s sweep
  cases a with
  | stride s₀ =>
    obtain ⟨s', taken, todo'⟩ := strides s₀ rfl
    obtain rfl : s₀.lane = lane := Option.some.inj takes
    rw [todo'] at among
    rcases List.mem_cons.mp among with rfl | among
    · obtain rfl : s' = s := Option.some.inj sweep
      have before : s₀.elapsed.nanos ≤ (w.feed.timeAt (f.place w.feed s₀.lane)).nanos :=
        pace (.stride s₀) (todo ▸ List.mem_cons_self) s₀ rfl
      have lane' : s'.lane = s₀.lane := (Sweep.Of.take ⟨rfl, rfl, rfl⟩ taken).lane
      show s'.elapsed.nanos ≤ _
      rw [lane', here, Sweep.nanos_take taken]
      omega
    · exact old among sweep
  | confirm =>
    rcases onward.goes with ⟨-, new, todo', rfl | rfl⟩ | ⟨-, less⟩
    · rw [todo'] at among
      exact old among sweep
    · rw [todo'] at among
      rcases List.mem_cons.mp among with rfl | among
      · cases sweep
      · exact old among sweep
    · rw [less] at among
      exact old among sweep
  | _ => cases takes

end

theorem inPace_turn (pace : w.backstage.InPace) (order : w.InOrder) : w.turn.backstage.InPace := by
  cases ready : w.ready with
  | nil =>
    rw [World.turn, ready]
    exact pace
  | cons f rest =>
    have hands : w.hands = f ::ₘ (w.taken f rest).hands :=
      congrArg Backstage.hands (backstage_taken ready)
    have others : (w.taken f rest).backstage.InPace := fun g among =>
      pace g (show g ∈ w.hands from hands ▸ Multiset.mem_cons_of_mem among)
    have own : f.InPace (w.taken f rest).feed :=
      pace f (show f ∈ w.hands from hands ▸ Multiset.mem_cons_self _ _)
    have back {b : Backstage} {f' : Fiber} (joins : Joins (w.taken f rest).backstage b)
        (pace' : f'.InPace (w.taken f rest).feed) (same : w.turn.backstage = b.join f') :
        w.turn.backstage.InPace := by
      rw [same]
      exact (others.joins joins).join (pace'.grows joins.grows)
    cases turn_turns order ready with
    | ends _ same => exact same ▸ others.joins (joins_yield _ f)
    | @fetches r c f' _ _ _ _ _ _ _ _ todo _ _ same =>
      exact back (.refl _) (Fiber.inPace_of_unswept (todo ▸ Act.unswept_acts c _ _)) same
    | works _ _ todo _ works =>
      cases works with
      | goes f' onward cursor same board strides =>
        exact back (joins_work _ _) (inPace_goes own todo onward cursor board strides) same
      | takes f' lane pulled onward cursor same board strides =>
        exact back (joins_write _ _)
          (inPace_takes own todo lane pulled onward cursor board strides) same
      | bursts _ _ _ same => exact same ▸ others.joins ((joins_write _ _).trans (joins_yield _ _))
      | falls _ same => exact same ▸ others.joins (joins_yield _ _)
    | @unwinds a rest' e f' _ _ todo _ _ _ _ todo' _ cursor same board =>
      refine back (joins_amend _ a) (fun b among s sweep => ?_) same
      have before := own b (todo ▸ List.mem_cons_of_mem _ (todo' ▸ among)) s sweep
      refine Nat.le_trans before (Fiber.timeAt_place ?_)
      cases s.lane with
      | own => exact .inl cursor
      | board => exact board.imp_right .inr

theorem inPace_pulses (o : Opening) (ps : List Pulse) : (o.world.pulses ps).backstage.InPace :=
  (inPlay_opening o).induction (P := fun _ w => w.backstage.InPace) (fun f among => nomatch among)
    (fun ps p play pace => by
      by_cases turn : p = .turn
      · subst turn
        exact inPace_turn pace play.order
      · exact pace.joins (joins_pulse play turn)) ps

/-! ### A turn goes well -/

theorem take?_of_inPace {s : Sweep} {fr : Frame} {c : Cursor} {missed : Nat}
    (pace : f.InPace w.feed) (among : .stride s ∈ f.todo)
    (pulled : w.feed.pull (f.place w.feed s.lane) = .frame fr c missed)
    (bounded : w.feed.total.nanos < Span.limit) : s.take? fr ≠ none := by
  intro overflow
  have spent : Span.limit ≤ s.elapsed.nanos + fr.delta.nanos := Sweep.take?_eq_none.mp overflow
  have before : s.elapsed.nanos ≤ (w.feed.timeAt (f.place w.feed s.lane)).nanos :=
    pace _ among s rfl
  have after : (w.feed.timeAt c).nanos ≤ w.feed.total.nanos := Feed.timeAt_le_total _ _
  have forth := Feed.timeAt_pull pulled
  omega

/-- The callback that is called in the next turn panics. -/
def turnPanics (w : World) : Bool := w.act?.any w.callPanics

theorem runEffects_answer (w w' : World) (es : List Effect) :
    (w.runEffects es).2 = (w'.runEffects es).2 := by
  induction es generalizing w w' with
  | nil => rfl
  | cons e es ih => cases e <;> first | rfl | exact ih _ _

theorem callPanics_taken (w : World) (f : Fiber) (rest : List Fiber) (a : Act) :
    (w.taken f rest).callPanics a = w.callPanics a := by
  cases a with
  | branch predicate =>
    cases found : w.registry.predicates[predicate]? <;>
      simp [callPanics, callPredicate, taken, found]
  | switch selector =>
    cases found : w.registry.selectors[selector]? <;> simp [callPanics, callSelector, taken, found]
  | action action =>
    cases found : w.registry.actions[action]? with
    | none => simp [callPanics, callAction, taken, found]
    | some effects =>
      have same := runEffects_answer (w.taken f rest) w effects
      simp [callPanics, callAction, taken, found] at same ⊢
      rw [same]
  | _ => rfl

/-- In its turn a fiber ends only if it was told to or has nothing left to do. -/
theorem remains_turn (order : w.InOrder) (pace : w.backstage.InPace)
    (bounded : w.feed.total.nanos < Span.limit) (ready : w.ready = f :: rest)
    (spared : f.doomed = false) (going : w.isCancelled f = false) (left : f.todo ≠ [])
    (calm : w.turnPanics = false) :
    ∃ g ∈ w.turn.hands, g.id = f.id ∧ g.isRun = f.isRun := by
  have joins {b : Backstage} {g : Fiber} (same : w.turn.backstage = b.join g) (id : g.id = f.id)
      (run : g.isRun = f.isRun) : ∃ g ∈ w.turn.hands, g.id = f.id ∧ g.isRun = f.isRun := by
    have hands : w.turn.hands = g ::ₘ b.hands := congrArg Backstage.hands same
    exact ⟨g, hands ▸ Multiset.mem_cons_self _ _, id, run⟩
  cases turn_turns order ready with
  | ends _ _ why =>
    rcases why with doomed | cancelled | empty
    · rw [spared] at doomed
      cases doomed
    · rw [show (w.taken f rest).isCancelled f = w.isCancelled f from rfl, going] at cancelled
      cases cancelled
    · exact absurd empty left
  | fetches f' _ _ _ empty => exact absurd empty left
  | works act _ todo _ works =>
    cases works with
    | goes f' onward _ same => exact joins same onward.id onward.isRun
    | takes f' _ _ onward _ same => exact joins same onward.id onward.isRun
    | @bursts s fr c missed stride pulled overflow same =>
      subst stride
      exact absurd overflow (take?_of_inPace (pace f (mem_hands_of_ready ready)) (by simp [todo])
        pulled bounded)
    | falls _ _ panics =>
      rw [callPanics_taken] at panics
      rw [turnPanics, act, Option.any_some, panics] at calm
      cases calm
  | unwinds f' _ _ _ _ id _ role _ _ _ same =>
    exact joins same id (by rw [Fiber.isRun, Fiber.run?, role]; rfl)

theorem timers_countDown (w : World) (j : Nat) (due : Option Span) {i : Nat} {t : Timer}
    (found : w.timers[i]? = some t) : ∃ t', (w.countDown j due).timers[i]? = some t' ∧
      (t'.left = t.left ∨ t.left.remaining = t'.left.remaining + 1) := by
  rcases countDown_cases w j due with same | ⟨u, counted, ⟨-, out⟩ | ⟨running, -, ticked⟩⟩
  · rw [same]
    exact ⟨t, found, .inl rfl⟩
  · rw [out, timers_timeOut]
    exact ⟨t, found, .inl rfl⟩
  · rw [ticked, timers_modifyTimer, Array.getElem?_modify]
    split
    · rename_i same
      subst same
      obtain rfl : t = u := Option.some.inj (found.symm.trans counted)
      rw [found]
      exact ⟨_, rfl, .inr (Countdown.tick_of_running running)⟩
    · exact ⟨t, found, .inl rfl⟩

/-- A turn counts a countdown down by one at most. -/
theorem timers_turn (order : w.InOrder) {i : Nat} {t : Timer} (found : w.timers[i]? = some t) :
    ∃ t', w.turn.timers[i]? = some t' ∧
      (t'.left = t.left ∨ t.left.remaining = t'.left.remaining + 1) := by
  by_cases idle : ∀ a, w.act? = some a → a.dials = false
  · have same : w.turn.timers = w.timers := congrArg (·.2.1) (dials_turn order idle)
    exact ⟨t, same ▸ found, .inl rfl⟩
  push Not at idle
  obtain ⟨a, act, dials⟩ := idle
  obtain ⟨f, rest, ready, -, same⟩ := dials_turn_act order act (by simpa using dials)
  have same : w.turn.timers = ((w.taken f rest).work a).backstage.timers := congrArg (·.2.1) same
  have found : (w.taken f rest).timers[i]? = some t := found
  generalize w.taken f rest = x at same found
  rw [same]
  cases a with
  | timer c =>
    obtain ⟨within, -⟩ := Array.getElem?_eq_some_iff.mp found
    refine ⟨t, ?_, .inl rfl⟩
    show (x.startCountdown c).backstage.timers[i]? = some t
    rw [backstage_startCountdown]
    show (x.timers.push _)[i]? = some t
    rw [Array.getElem?_push_lt within, ← found, Array.getElem?_eq_getElem within]
  | stopTimer =>
    refine ⟨t, ?_, .inl rfl⟩
    show x.stopCountdown.backstage.timers[i]? = some t
    rw [backstage_stopCountdown]
    exact found
  | count j due =>
    show ∃ t', (x.countDown j due).timers[i]? = some t' ∧ _
    exact timers_countDown x j due found
  | _ => simp [Act.dials] at dials

/-! ### What the chronicle tells -/

end World

def Deed.isMishap : Deed → Bool
  | .outcome _ (.panicked _) => true
  | _ => false

namespace Plot

variable {p p' : Plot} {l : Lead}

/-- The runs that broke down. -/
def mishaps (p : Plot) : List Entry := p.story.filter (·.deed.isMishap)

theorem mishaps_append {es : List Entry} (story : p'.story = p.story ++ es)
    (fine : ∀ e ∈ es, e.deed.isMishap = false) : p'.mishaps = p.mishaps := by
  have none : es.filter (·.deed.isMishap) = [] :=
    List.filter_eq_nil_iff.mpr fun e among => by simp [fine e among]
  rw [mishaps, story, List.filter_append, none, List.append_nil]
  rfl

theorem Touches.mishaps (h : Touches p p') : p'.mishaps = p.mishaps := by
  obtain ⟨notes, story, told⟩ := h.story
  refine mishaps_append story fun e among => ?_
  obtain ⟨n, deed⟩ := told e among
  rw [deed]
  rfl

theorem mishaps_starts (p : Plot) (n : Nat) (q : Program) : (p.starts n q).mishaps = p.mishaps :=
  mishaps_append rfl (by simp [Deed.isMishap])

/-- A run breaks down in the middle of its acts, or not at all. -/
theorem Plays.mishaps (h : Plays l p p') :
    p'.mishaps = p.mishaps ∨ p'.leads = [] ∧ l.todo ≠ [] := by
  cases h with
  | breaks text touched left => exact .inr ⟨rfl, left⟩
  | calls todo fault touched =>
    refine .inl (.trans ?_ touched.mishaps)
    exact mishaps_append rfl (by simp [Deed.isMishap])
  | completes | fails | stops | fetches | shows | chooses | holds | turns | switches | unheard =>
    exact .inl (mishaps_append rfl (by simp [Deed.isMishap]))
  | _ => exact .inl rfl

end Plot

namespace World

variable {w : World} {f : Fiber} {rest : List Fiber}

def mishaps (w : World) : List Entry := w.entries.filter (·.deed.isMishap)

theorem mishaps_eq (w : World) : w.mishaps = w.plot.mishaps := by
  show _ = w.story.filter _
  rw [mishaps, story, List.filter_filter]
  refine List.filter_congr fun e _ => ?_
  cases idle : e.deed.isIdle with
  | false => simp
  | true =>
    cases h : e.deed with
    | outcome =>
      rw [h] at idle
      cases idle
    | _ => rfl

/-- The run whose turn it is goes on unless it was told to stop or has nothing left to do. -/
theorem mishaps_turn (order : w.InOrder)
    (remains : ∀ f rest, w.ready = f :: rest → f.isRun = true → f.doomed = false → f.todo ≠ [] →
      ∃ g ∈ w.turn.hands, g.isRun = true) : w.turn.mishaps = w.mishaps := by
  cases ready : w.ready with
  | nil => rw [World.turn, ready]
  | cons f rest =>
    cases run : f.run? with
    | none =>
      have beside := beside_turn order ready (by simp [Fiber.isRun, run])
      have same : w.turn.plot.mishaps = w.plot.mishaps := by
        show w.turn.story.filter _ = w.story.filter _
        rw [beside.story]
      rw [mishaps_eq, mishaps_eq, same]
    | some r =>
      have role := role_of_run? run
      obtain ⟨alone, back, -⟩ := taken_run order.staged.attended ready role
      rw [mishaps_eq, mishaps_eq]
      cases doomed : f.doomed with
      | true =>
        have plot : w.turn.plot = (w.taken f rest).plot.ends (f.leading r) .cancelled := by
          rw [turn_cons ready, advance, if_pos doomed]
          exact plot_conclude .cancelled role alone rfl
        rw [plot, ← back]
        exact Plot.mishaps_append rfl (by simp [Deed.isMishap])
      | false =>
        rcases (turned_turn order.staged.attended ready role).1 with plays | ⟨same, -⟩
        · refine plays.mishaps.resolve_right fun lost => ?_
          obtain ⟨gone, left⟩ := lost
          obtain ⟨g, among, running⟩ := remains f rest ready (f.isRun_iff.mpr ⟨r, role⟩) doomed left
          rw [isRun_eq_false_of_leads gone (mem_hands.mp among)] at running
          cases running
        · rw [same]

theorem mishaps_host (order : w.InOrder) {p : Pulse} (untaken : p ≠ .turn) :
    (w.pulse p).mishaps = w.mishaps := by
  have attended := order.staged.attended
  rw [mishaps_eq, mishaps_eq]
  cases p with
  | turn => exact absurd rfl untaken
  | publish delta keys => exact ((keeps_publish w delta keys).touches attended.1).mishaps
  | pass span => exact ((keeps_reach w _).touches attended.1).mishaps
  | host s brief =>
    by_cases execute : ∃ n, s = .execute n
    · obtain ⟨n, rfl⟩ := execute
      rcases execute_cases_plot w n order.actor attended with
        ⟨-, -, touched⟩ | ⟨q, q', -, -, -, -, -, plot⟩
      · exact touched.mishaps
      · rw [show (w.pulse (.host (.execute n) brief)).plot = _ from plot]
        exact Plot.mishaps_starts _ _ _
    · obtain ⟨touched, -⟩ := brief_turns w brief (fun n same => execute ⟨n, same⟩) order.crewed
        order.actor attended
      exact touched.mishaps

/-! ### No fiber breaks down -/

theorem Handing.pulse {h : List Happening} (handing : Handing h w) (order : w.InOrder) (p : Pulse) :
    ∃ h', Handing h' (w.pulse p) := by
  have onward {w' : World} (onward : Onward h w w') : ∃ h', Handing h' w' :=
    let ⟨_, _, next⟩ := onward
    ⟨_, next⟩
  cases p with
  | turn => exact onward (handing.turn order)
  | publish delta keys => exact onward (handing.beside (keeps_publish w delta keys).beside)
  | pass span => exact onward (handing.beside (keeps_reach w _).beside)
  | host s brief => exact ⟨_, handing.move order (.host s)⟩

theorem handing_pulses (o : Opening) (ps : List Pulse) : ∃ h, Handing h (o.world.pulses ps) :=
  (inPlay_opening o).induction (P := fun _ w => ∃ h, Handing h w) ⟨_, handing_opening o⟩
    (fun _ p play handing => handing.elim fun _ handing => handing.pulse play.order p) ps

/-- The offsets of the name box, as they are listed. -/
def nameBoxRow (w : World) : List Int :=
  [w.settings.nameBoxOffsets.1, w.settings.nameBoxOffsets.2.1, w.settings.nameBoxOffsets.2.2]

/-- Whoever has the next turn does nothing that can fail. -/
structure TurnsWell (w : World) : Prop where
  /-- The option that was selected is there. -/
  option : ∀ index options, w.act? = some (.chosen index options) → index < options.length
  nameBox : ∀ place : Place, w.nameBoxRow[place.index]? = some (w.settings.nameBoxOffset place)
  /-- The first half of a flash can be taken off its span. -/
  flash : ∀ color span hold, span.half ≤ span ∧
    ((Command.flashActs color span hold).filterMap Act.sweep?).map (·.span) =
      [span.half, hold, span.without span.half]
  /-- The time of a frame can be added to what went before. -/
  elapsed : ∀ f rest s fr c missed, w.ready = f :: rest → w.act? = some (.stride s) →
    w.feed.pull (f.place w.feed s.lane) = .frame fr c missed → ∃ s', s.take? fr = some s'
  period : w.settings.tickPeriod ≠ .zero
  counter : ∀ (i : Nat) (t : Timer), w.timers[i]? = some t → ∃ t', w.turn.timers[i]? = some t' ∧
    (t'.left = t.left ∨ t.left.remaining = t'.left.remaining + 1)
  /-- A fiber that was not told to stop and has something left to do is still there after its turn,
  unless a callback that it calls panics. -/
  remains : ∀ f rest, w.ready = f :: rest → f.doomed = false → w.isCancelled f = false →
    f.todo ≠ [] → w.turnPanics = false → ∃ g ∈ w.turn.fibers, g.id = f.id ∧ g.isRun = f.isRun

theorem turnsWell_of {h : List Happening} (order : w.InOrder) (pace : w.backstage.InPace)
    (handing : Handing h w) (bounded : w.feed.total.nanos < Span.limit) : w.TurnsWell := by
  refine ⟨fun index options act => ?_, fun place => by cases place <;> rfl,
    fun color span hold => ⟨Nat.div_le_self _ _, rfl⟩,
    fun f rest s fr c missed ready act pulled => ?_, fun zero => ?_,
    fun i t found => timers_turn order found,
    fun f rest ready spared going left calm => ?_⟩
  · obtain ⟨f, rest, after, ready, spared, fault, todo, -⟩ := turn_act order act
    have comes : w.Comes f (.chosen index options) := ⟨by simp [ready], spared, by simp [todo]⟩
    exact (handing.desk.resumes order comes).2.2.1
  · obtain ⟨f', rest', after, ready', -, -, todo, -⟩ := turn_act order act
    obtain ⟨rfl, rfl⟩ := List.cons.inj (ready.symm.trans ready')
    exact Option.ne_none_iff_exists'.mp (take?_of_inPace (pace f (mem_hands_of_ready ready))
      (by simp [todo]) pulled bounded)
  · have running := tickPeriod_pos w.settings
    rw [zero] at running
    cases running
  · obtain ⟨g, among, same⟩ := remains_turn order pace bounded ready spared going left calm
    exact ⟨g, mem_hands.mp among, same⟩

theorem turnsWell_pulses (o : Opening) (ps : List Pulse)
    (bounded : (o.world.pulses ps).feed.total.nanos < Span.limit) :
    (o.world.pulses ps).TurnsWell := by
  obtain ⟨h, handing⟩ := handing_pulses o ps
  exact turnsWell_of (inPlay_pulses o ps).order (inPace_pulses o ps) handing bounded

/-- No run breaks down in a turn that goes well, unless in a callback. -/
theorem TurnsWell.mishaps_turn (well : w.TurnsWell) (order : w.InOrder)
    (calm : w.turnPanics = false) : w.turn.mishaps = w.mishaps := by
  refine World.mishaps_turn order fun f rest ready run spared left => ?_
  have going : w.isCancelled f = false := by
    obtain ⟨r, role⟩ := f.isRun_iff.mp run
    rw [isCancelled, role]
  obtain ⟨g, among, -, same⟩ := well.remains f rest ready spared going left calm
  exact ⟨g, mem_hands.mpr among, same.trans run⟩

/-- As long as no callback panics and the time of all frames can be added up, nothing fails in any
turn, and no run ends with a panic. -/
theorem fibers_never_panic (o : Opening) (ps : List Pulse)
    (bounded : (o.world.pulses ps).feed.total.nanos < Span.limit)
    (calm : ∀ pre, pre ++ [.turn] <+: ps → (o.world.pulses pre).turnPanics = false) :
    (∀ pre, pre <+: ps → (o.world.pulses pre).TurnsWell) ∧
      ∀ e ∈ (o.world.pulses ps).entries, ∀ run text, e.deed ≠ .outcome run (.panicked text) := by
  have well (pre : List Pulse) (before : pre <+: ps) : (o.world.pulses pre).TurnsWell := by
    obtain ⟨post, rfl⟩ := before
    have grows := (inPlay_pulses o pre).grows_pulses post
    rw [← pulses_append] at grows
    exact turnsWell_pulses o pre (Nat.lt_of_le_of_lt grows.total_le bounded)
  refine ⟨well, ?_⟩
  have none : (o.world.pulses ps).mishaps = [] := by
    clear bounded
    induction ps using List.reverseRecOn with
    | nil => rfl
    | append_singleton ps p ih =>
      have init : ps <+: ps ++ [p] := List.prefix_append _ _
      have before := ih (fun pre among => calm pre (among.trans init))
        (fun pre among => well pre (among.trans init))
      have order := (inPlay_pulses o ps).order
      rw [pulses_concat, ← before]
      by_cases turn : p = .turn
      · subst turn
        exact (well ps init).mishaps_turn order (calm ps (List.prefix_refl _))
      · exact mishaps_host order turn
  intro e among run text deed
  have told : e ∈ (o.world.pulses ps).mishaps := List.mem_filter.mpr ⟨among, by rw [deed]; rfl⟩
  rw [none] at told
  cases told

/-- A wait that a longer frame ends. -/
theorem fibers_never_panic_wait :
    let o : Opening := ⟨default, default, 8, default, default, [[.wait ⟨5⟩]]⟩
    let ps : List Pulse := [.host (.execute 0) rfl, .turn, .turn, .turn, .publish ⟨7⟩ .nothing, .turn]
    (∀ pre, pre <+: ps → (o.world.pulses pre).TurnsWell) ∧
      ∀ e ∈ (o.world.pulses ps).entries, ∀ run text, e.deed ≠ .outcome run (.panicked text) := by
  intro o ps
  refine fibers_never_panic o ps (by decide) fun pre before => ?_
  have length : pre.length < 6 := by
    have short := before.length_le
    rw [List.length_append] at short
    exact short
  have calm : ∀ n < 6, (o.world.pulses (ps.take n)).turnPanics = false := by decide
  rw [List.prefix_iff_eq_take.mp ((List.prefix_append _ _).trans before)]
  exact calm _ length

end World

end SceneScript
