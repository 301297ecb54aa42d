import SceneScript.Proofs.FadeBack
import SceneScript.Proofs.Work
/-!
Readers of the feed, pulse by pulse: while it is not its turn, a fiber stays as it is, and so does
what it told of itself. A reader that never falls behind takes every frame.
-/

namespace SceneScript

namespace Feed

variable {feed : Feed} {c c' : Cursor} {fr : Frame} {missed : Nat}

theorem pull_near (near : feed.count ≤ c.taken + feed.depth)
    (pulled : feed.pull c = .frame fr c' missed) :
    feed.frames[c.taken]? = some fr ∧ c'.taken = c.taken + 1 := by
  obtain ⟨found, place⟩ := of_pull_eq_frame pulled
  have here : max c.taken (feed.frames.size - feed.depth) = c.taken := by
    unfold count at near
    omega
  rw [here] at found place
  exact ⟨found, place⟩

/-- Only a reader that has taken every frame waits. -/
theorem count_le_of_waiting (deep : 0 < feed.depth) (waiting : feed.pull c = .waiting) :
    feed.count ≤ c.taken := by
  unfold pull at waiting
  dsimp only at waiting
  split at waiting
  · cases waiting
  · rename_i none
    have past := Array.getElem?_eq_none_iff.mp none
    unfold count
    omega

end Feed

/-- Only whether it was told to stop may tell the one fiber from the other. -/
theorem Fiber.fields_of_calm {f g : Fiber} (calm : g.calm = f.calm) : g.id = f.id ∧
    g.role = f.role ∧ g.todo = f.todo ∧ g.fault = f.fault ∧ g.cursor = f.cursor := by
  have id : g.calm.id = f.calm.id := congrArg Fiber.id calm
  have role : g.calm.role = f.calm.role := congrArg Fiber.role calm
  have todo : g.calm.todo = f.calm.todo := congrArg Fiber.todo calm
  have fault : g.calm.fault = f.calm.fault := congrArg Fiber.fault calm
  have cursor : g.calm.cursor = f.calm.cursor := congrArg Fiber.cursor calm
  exact ⟨id, role, todo, fault, cursor⟩

namespace Backstage

/-- The frames that the fiber took. -/
def took (b : Backstage) (id : Nat) : List Frame := tale Deed.took? id b.log

theorem took_write (b : Backstage) (id : Nat) (d : Deed) :
    (b.write ⟨some id, d⟩).took id = b.took id ++ d.took?.toList := by
  show tale _ _ (b.log ++ [_]) = _
  rw [tale_append, tale_own]
  rfl

end Backstage

namespace World

variable {w : World} {f : Fiber} {p : Pulse} {id : Nat}

/-- In this pulse it is the turn of the fiber. -/
def OwnTurn (w : World) (p : Pulse) (id : Nat) : Prop :=
  p = .turn ∧ ∃ f, w.ready.head? = some f ∧ f.id = id

theorem ownTurn_turn : w.OwnTurn .turn id ↔ w.ready.head?.map (·.id) = some id := by
  rw [Option.map_eq_some_iff]
  exact and_iff_right rfl

theorem hosted_pulse (w : World) (untaken : p ≠ .turn) : Hosted w (w.pulse p) := by
  cases p with
  | turn => exact absurd rfl untaken
  | publish delta keys =>
    exact ⟨keeps_publish w delta keys, .publishes delta keys, curtain_publish w delta keys⟩
  | pass span => exact .of_curtain (keeps_reach w _) (curtain_reach w _)
  | host s brief =>
    by_cases drops : s = .dropClock
    · subst drops
      exact hosted_dropClock w
    · exact .of_curtain (keeps_of_isBrief w brief) (curtain_brief w brief drops)

/-! ### What a fiber took -/

theorem tale_log {α : Type} {g : Deed → Option α} (w : World) (id : Nat)
    (silent : ∀ d, d.isLogged = false → g d = none) : tale g id w.log = tale g id w.entries := by
  rw [log, tale, tale, List.filterMap_filter]
  refine List.filterMap_congr fun e _ => ?_
  cases logged : e.deed.isLogged with
  | true => rfl
  | false => simp [silent _ logged]

theorem took_backstage (w : World) (id : Nat) : w.backstage.took id = w.took id :=
  tale_log w id fun d unlogged => by cases d <;> first | rfl | cases unlogged

/-! ### The feed -/

theorem InPlay.grows (play : w.InPlay) (p : Pulse) : w.feed.Grows (w.pulse p).feed :=
  play.screened.grows play.order (beat_pulse w p)

theorem InPlay.frames (play : w.InPlay) (still : ∀ delta keys, p ≠ .publish delta keys) :
    (w.pulse p).feed.frames = w.feed.frames := by
  cases p with
  | turn => exact congrArg Feed.frames (play.screened.feed_turn play.order)
  | publish delta keys => exact absurd rfl (still delta keys)
  | pass span => exact congrArg (Feed.frames ∘ Curtain.feed) (curtain_reach w _)
  | host s brief =>
    by_cases drops : s = .dropClock
    · subst drops
      show w.dropClock.feed.frames = _
      unfold dropClock
      split <;> rfl
    · exact congrArg (Feed.frames ∘ Curtain.feed) (curtain_brief w brief drops)

theorem InPlay.feed_turn (play : w.InPlay) : w.turn.feed = w.feed :=
  play.screened.feed_turn play.order

theorem InPlay.feed_turns (play : w.InPlay) (n : Nat) : (w.turns n).feed = w.feed := by
  induction n generalizing w with
  | zero => rfl
  | succ n ih =>
    rw [turns_succ]
    exact (ih (play.pulse .turn)).trans play.feed_turn

theorem InPlay.later (play : w.InPlay) (ps : List Pulse) : Later w (w.pulses ps) :=
  play.induction (P := fun _ x => Later w x) (.refl w)
    (fun _ p play later => later.trans ((beat_pulse _ p).later play.order play.tended)) ps

theorem InPlay.grows_pulses (play : w.InPlay) (ps : List Pulse) :
    w.feed.Grows (w.pulses ps).feed :=
  play.induction (P := fun _ x => w.feed.Grows x.feed) (.refl _)
    (fun _ p play grown => grown.trans (play.grows p)) ps

theorem depth_pulses (o : Opening) (ps : List Pulse) : 0 < (o.world.pulses ps).feed.depth := by
  rw [((inPlay_opening o).grows_pulses ps).depth]
  exact Feed.roundDepth_pos _

/-- The cursor of the fiber is never more than the depth of the feed behind. -/
def Abreast (w : World) (ps : List Pulse) (id : Nat) : Prop :=
  ∀ pre, pre <+: ps → ∀ f ∈ (w.pulses pre).fibers, f.id = id → ∀ c, f.cursor = some c →
    (w.pulses pre).feed.count ≤ c.taken + (w.pulses pre).feed.depth

theorem Abreast.init {ps : List Pulse} (h : w.Abreast (ps ++ [p]) id) : w.Abreast ps id :=
  fun pre before => h pre (before.trans (List.prefix_append ps [p]))

/-! ### Other pulses -/

theorem tale_pulse {α : Type} {g : Deed → Option α} (play : w.InPlay)
    (other : ¬ w.OwnTurn p id) : tale g id (w.pulse p).entries = tale g id w.entries := by
  by_cases turn : p = .turn
  · subst turn
    refine tale_beat play.order (beat_pulse w .turn) fun f rest ready _ same => other ⟨rfl, f, ?_⟩
    rw [ready]
    exact ⟨rfl, same⟩
  · obtain ⟨es, grown, own⟩ := (hosted_pulse w turn).keeps.entries
    rw [grown]
    refine tale_append_none fun e member author => ?_
    rw [(own e member).1, play.order.actor] at author
    cases author

theorem InOrder.eq_of_hands {g : Fiber} (order : w.InOrder) (among : f ∈ w.hands)
    (among' : g ∈ w.hands) (same : f.id = g.id) : f = g :=
  Multiset.inj_on_of_nodup_map order.nodup_hands f among g among' same

theorem mem_hands_pulse (play : w.InPlay) (among : f ∈ w.hands) (other : ¬ w.OwnTurn p f.id) :
    ∃ g ∈ (w.pulse p).hands, g.calm = f.calm := by
  have member : f.calm ∈ w.crew := List.mem_map_of_mem (mem_hands.mp among)
  have after : f.calm ∈ (w.pulse p).crew := by
    by_cases turn : p = .turn
    · subst turn
      refine mem_crew_beat play.order (beat_pulse w .turn) member fun g rest ready _ same => ?_
      refine other ⟨rfl, g, ?_, same⟩
      rw [ready]
      rfl
    · obtain ⟨new, perm, -, -⟩ := (hosted_pulse w turn).keeps.crew
      exact perm.mem_iff.mpr (List.mem_append_left _ member)
  obtain ⟨g, among', same⟩ := List.mem_map.mp after
  exact ⟨g, mem_hands.mpr among', same⟩

/-- Whoever is there was there before, as the same fiber, or is new. -/
theorem of_mem_hands_pulse (play : w.InPlay) (among : f ∈ (w.pulse p).hands)
    (old : f.id < w.nextFiber) : ∃ g ∈ w.hands, g.id = f.id ∧ g.isRun = f.isRun ∧
      (g.isRun = false → f.role = g.role) := by
  have later := (beat_pulse w p).later play.order play.tended
  have member : f.calm ∈ (w.pulse p).crew := List.mem_map_of_mem (mem_hands.mp among)
  rcases later.crew f.calm member with ⟨g', listed, same⟩ | hired
  · obtain ⟨g, among', rfl⟩ := List.mem_map.mp listed
    exact ⟨g, mem_hands.mpr among', same.id, same.isRun, same.role⟩
  · have young : w.nextFiber ≤ f.id := hired.id_ge
    omega

/-- Nobody who is there changes but the fiber whose turn it is. -/
theorem calm_of_mem_hands_pulse (play : w.InPlay) (among : f ∈ (w.pulse p).hands)
    (old : f.id < w.nextFiber) (other : ¬ w.OwnTurn p f.id) : ∃ g ∈ w.hands, g.calm = f.calm := by
  obtain ⟨g, among', id, -⟩ := of_mem_hands_pulse play among old
  obtain ⟨g', kept, same⟩ := mem_hands_pulse play among' (id ▸ other)
  have crewed := (play.pulse p).order.crewed
  have fibers {h : Fiber} (here : h ∈ (w.pulse p).hands) : h.calm ∈ (w.pulse p).crew :=
    List.mem_map_of_mem (mem_hands.mp here)
  have both := crewed.eq_of_id (fibers kept) (fibers among)
    ((congrArg Fiber.id same).trans id)
  exact ⟨g, among', same.symm.trans both⟩

/-- A fiber that has no turn stands where it stood. -/
theorem hands_other (play : w.InPlay) (below : id < w.nextFiber) (other : ¬ w.OwnTurn p id)
    (among : f ∈ (w.pulse p).hands) (same : f.id = id) : ∃ g ∈ w.hands, g.id = id ∧
      g.role = f.role ∧ g.todo = f.todo ∧ g.fault = f.fault ∧ g.cursor = f.cursor := by
  subst same
  obtain ⟨g, among', calm⟩ := calm_of_mem_hands_pulse play among below other
  exact ⟨g, among', Fiber.fields_of_calm calm⟩

theorem nextFiber_pulse (play : w.InPlay) (p : Pulse) : w.nextFiber ≤ (w.pulse p).nextFiber :=
  ((beat_pulse w p).later play.order play.tended).nextFiber

theorem blocked_pulse (play : w.InPlay) {b : Parked} (among : b ∈ (w.pulse p).blocked)
    (other : ¬ w.OwnTurn p b.fiber.id) :
    ∃ b' ∈ w.blocked, b'.wait = b.wait ∧ b'.fiber.calm = b.fiber.calm := by
  by_cases turn : p = .turn
  · subst turn
    obtain ⟨-, same | ⟨f, rest, w₁, x, ready, kept, left, heq⟩⟩ :=
      turn_cases w play.order.crewed play.order.staged.attended
    · exact ⟨b, same ▸ among, rfl, rfl⟩
    have among : b ∈ x.blocked := by
      rw [show w.pulse .turn = w.turn from rfl, heq] at among
      exact among
    cases left with
    | gone => exact kept.blocked b among
    | goes => exact kept.blocked b among
    | @waits wait f' follows =>
      rcases List.mem_append.mp among with among | here
      · exact kept.blocked b among
      · obtain rfl := List.mem_singleton.mp here
        refine absurd ⟨rfl, f, ?_, follows.id.symm⟩ other
        rw [ready]
        rfl
  · exact (hosted_pulse w turn).keeps.blocked b among

theorem blocked_other (play : w.InPlay) (other : ¬ w.OwnTurn p id) {b : Parked}
    (among : b ∈ (w.pulse p).blocked) (same : b.fiber.id = id) : ∃ b' ∈ w.blocked,
      b'.fiber.id = id ∧ b'.wait = b.wait ∧ b'.fiber.todo = b.fiber.todo ∧
        b'.fiber.cursor = b.fiber.cursor := by
  subst same
  obtain ⟨b', among', wait, calm⟩ := blocked_pulse play among other
  obtain ⟨id, -, todo, -, cursor⟩ := Fiber.fields_of_calm calm
  exact ⟨b', among', id, wait, todo, cursor⟩

/-- Whoever joins in a pulse has no turn in it, and does not wait yet. -/
theorem InOrder.not_ownTurn_young (order : w.InOrder) : ¬ w.OwnTurn p w.nextFiber := by
  rintro ⟨-, f, head, same⟩
  obtain ⟨rest, ready⟩ := List.head?_eq_some_iff.mp head
  have below := order.below_hands f (mem_hands_of_ready ready)
  omega

theorem blocked_young (play : w.InPlay) {b : Parked} (among : b ∈ (w.pulse p).blocked) :
    b.fiber.id ≠ w.nextFiber := by
  intro same
  obtain ⟨b', among', same', -⟩ := blocked_other play play.order.not_ownTurn_young among same
  have below := play.order.below_hands _ (mem_hands_of_blocked among')
  omega

theorem blocked_publish {b : Parked} {delta : Span} {keys : Keys}
    (among : b ∈ (w.publish delta keys).blocked) : b.wait ≠ .frame := by
  have kept := (List.mem_filter.mp among).2
  simpa using kept

/-! ### Authors -/

/-- Whoever told something had joined by then. -/
theorem author_pulses (o : Opening) (ps : List Pulse) {e : Entry}
    (among : e ∈ (o.world.pulses ps).entries) (author : e.author = some id) :
    id < (o.world.pulses ps).nextFiber := by
  refine (inPlay_opening o).induction (P := fun _ w => ∀ e ∈ w.entries, ∀ id, e.author = some id →
    id < w.nextFiber) ?_ (fun ps p play below => ?_) ps e among id author
  · intro e among
    cases among
  intro e among id author
  have grown := nextFiber_pulse play p
  have told : ∃ es : List Entry, ((o.world.pulses ps).pulse p).entries =
      (o.world.pulses ps).entries ++ es ∧ ∀ e ∈ es, ∀ id, e.author = some id →
        id < (o.world.pulses ps).nextFiber := by
    by_cases turn : p = .turn
    · subst turn
      cases ready : (o.world.pulses ps).ready with
      | nil =>
        refine ⟨[], ?_, by simp⟩
        rw [pulse, World.turn, ready, List.append_nil]
      | cons f rest =>
        obtain ⟨es, grown, own⟩ := entries_turn play.order ready
        refine ⟨es, grown, fun e member id author => ?_⟩
        obtain rfl := Option.some.inj ((own e member).symm.trans author)
        exact (play.order.crewed.taken ready).2.2
    · obtain ⟨es, grown, own⟩ := (hosted_pulse (o.world.pulses ps) turn).keeps.entries
      refine ⟨es, grown, fun e member id author => ?_⟩
      rw [(own e member).1, play.order.actor] at author
      cases author
  obtain ⟨es, entries, own⟩ := told
  rw [entries] at among
  rcases List.mem_append.mp among with among | among
  · exact Nat.lt_of_lt_of_le (below e among id author) grown
  · exact Nat.lt_of_lt_of_le (own e among id author) grown

theorem tale_young {α : Type} {g : Deed → Option α} (o : Opening) (ps : List Pulse)
    (young : (o.world.pulses ps).nextFiber ≤ id) : tale g id (o.world.pulses ps).entries = [] := by
  refine tale_eq_nil fun e member author => ?_
  have below := author_pulses o ps member author
  omega

end World

end SceneScript
