import Mathlib.Data.List.Infix
import SceneScript.Proofs.Plans
/-!
The frames that a run takes for itself. None of them was published before the run last came back from
an animation, a choice or a load, and as long as it does not fall behind it takes, from then on, every
frame in order.
-/

namespace SceneScript

namespace World

variable {w x y : World} {f g : Fiber} {p : Pulse} {id : Nat} {ps : List Pulse} {taken : List Frame}
  {fr : Frame}

/-- In no pulse does this happen. -/
def Never (w : World) (bad : World → Pulse → Prop) : List Pulse → Prop
  | [] => True
  | p :: ps => ¬ bad w p ∧ (w.pulse p).Never bad ps

theorem never_concat {bad : World → Pulse → Prop} (h : w.Never bad ps)
    (last : ¬ bad (w.pulses ps) p) : w.Never bad (ps ++ [p]) := by
  induction ps generalizing w with
  | nil => exact ⟨last, trivial⟩
  | cons q ps ih => exact ⟨h.1, ih h.2 last⟩

/-- In this pulse it is the turn of the fiber, and it has an animation, a choice or a load to wait
for, or comes back from there. -/
def HeldUp (w : World) (id : Nat) (p : Pulse) : Prop :=
  p = .turn ∧ ∃ f, w.ready.head? = some f ∧ f.id = id ∧ f.isAway = true

/-- In this pulse the fiber gives up its place in the feed for the newest one. -/
def Resyncs (w : World) (id : Nat) (p : Pulse) : Prop :=
  w.OwnTurn p id ∧ w.act? = some .resync

/-- The frames that the fiber takes in this pulse for a wait of its own. Those of a load are read
from another place. -/
def draws (w : World) (id : Nat) : Pulse → List Frame
  | .turn =>
    if w.ready.head?.map (·.id) = some id ∧ w.act?.bind Act.lane? = some .own then
      (w.turn.took id).drop (w.took id).length
    else []
  | _ => []

def drawn (w : World) (id : Nat) : List Pulse → List Frame
  | [] => []
  | p :: ps => w.draws id p ++ (w.pulse p).drawn id ps

/-! ### One turn -/

theorem draws_other (other : ¬ w.OwnTurn p id) : w.draws id p = [] := by
  cases p with
  | turn => exact if_neg fun own => other (ownTurn_turn.mpr own.1)
  | _ => rfl

/-- What a fiber takes in its turn, and where it stands after it. -/
inductive Draw (w : World) (f : Fiber) : Prop where
  | none : w.draws f.id .turn = [] →
      (w.act? ≠ some .resync → ∀ g ∈ w.turn.hands, g.id = f.id → g.cursor = f.cursor) → Draw w f
  | one {a : Act} {rest : List Act} {fr : Frame} {c : Cursor} {missed : Nat} :
      f.todo = a :: rest → f.fault = none → a.lane? = some .own →
      w.feed.pull (f.place w.feed .own) = .frame fr c missed → w.draws f.id .turn = [fr] →
      w.act? ≠ some .resync → (∀ g ∈ w.turn.hands, g.id = f.id → g.cursor = some c) → Draw w f

theorem turn_draw (order : w.InOrder) {rest : List Fiber} (ready : w.ready = f :: rest) :
    Draw w f := by
  by_cases own : w.act?.bind Act.lane? = some .own
  · obtain ⟨a, act, takes⟩ := Option.bind_eq_some_iff.mp own
    obtain ⟨f', rest', after, ready', -, fault, todo, works⟩ := turn_act order act
    obtain ⟨rfl, rfl⟩ := List.cons.inj (ready.symm.trans ready')
    have drawn : w.draws f.id .turn = (w.turn.took f.id).drop (w.took f.id).length :=
      if_pos ⟨by rw [ready]; rfl, own⟩
    rw [← took_backstage, ← took_backstage] at drawn
    have silent (log : w.turn.log = w.log) : w.draws f.id .turn = [] := by
      have took : w.turn.backstage.took f.id = w.backstage.took f.id :=
        congrArg (tale Deed.took? f.id) log
      rw [drawn, took, List.drop_length]
    have told {fr : Frame} (log : w.turn.log = w.log ++ [⟨some f.id, .took fr⟩]) :
        w.draws f.id .turn = [fr] := by
      have took : w.turn.backstage.took f.id = w.backstage.took f.id ++ [fr] := by
        show tale _ _ w.turn.log = _
        rw [log, tale_append, tale_own]
        rfl
      rw [drawn, took, List.drop_left]
    have other : w.act? ≠ some .resync := by
      rw [act]
      rintro ⟨⟩
      cases takes
    have order' : w.turn.InOrder := order.beat (.lull (.turn w))
    cases works with
    | goes f' onward cursor heq =>
      have worked : (w.taken f rest).work a = w.taken f rest := by
        cases a <;> first | rfl | cases takes
      refine .none (silent ?_) fun _ g among same => ?_
      · rw [worked] at heq
        exact congrArg Backstage.log heq
      · rw [eq_of_join order' heq among (same.trans onward.id.symm), cursor,
          Act.place_of_lane? takes]
    | takes f' lane pulled onward cursor heq =>
      obtain rfl := Option.some.inj (takes.symm.trans lane)
      refine .one todo fault takes pulled (told (congrArg Backstage.log heq)) other
        fun g among same => ?_
      rw [eq_of_join order' heq among (same.trans onward.id.symm), cursor, if_pos rfl]
    | @bursts s fr c missed stride pulled _ heq =>
      have lane : s.lane = .own := by
        rw [stride] at takes
        exact Option.some.inj takes
      rw [lane] at pulled
      have log := (congrArg Backstage.log heq).trans (yield_still _ _).2
      refine .one todo fault takes pulled (told log) other fun g among same => ?_
      exact absurd same (not_mem_of_yield order ready heq rfl among)
    | falls told =>
      cases a with
      | stride | confirm => cases told
      | _ => cases takes
  · refine .none (if_neg fun both => own both.2) fun still g among same => ?_
    generalize act : w.act? = act? at own still
    cases act ▸ turn_heir order ready among same with
    | fetches _ _ _ _ cursor => exact cursor
    | skips _ _ _ _ cursor => exact cursor
    | @does a after _ _ onward cursor =>
      rw [cursor own]
      cases a with
      | resync => exact absurd rfl still
      | _ => rfl

theorem cursor_of_resync (order : w.InOrder) {rest : List Fiber} (ready : w.ready = f :: rest)
    (act : w.act? = some .resync) (among : g ∈ w.turn.hands) (same : g.id = f.id) :
    g.cursor = some w.feed.subscribe := by
  cases act ▸ turn_heir order ready among same with
  | does _ _ _ cursor => exact cursor (by simp [Act.lane?])

/-! ### The fiber, from the start of its run on -/

/-- What is known of the fiber of a run. -/
structure Onstage (w : World) (id : Nat) : Prop where
  below : id < w.nextFiber
  run : ∀ f ∈ w.hands, f.id = id → f.isRun = true
  plan : ∀ f ∈ w.hands, f.id = id → Plan f.todo f.fault

theorem Onstage.pulse (h : w.Onstage id) (play : w.InPlay) (p : Pulse) : (w.pulse p).Onstage id where
  below := Nat.lt_of_lt_of_le h.below (nextFiber_pulse play p)
  run f among same := by
    obtain ⟨g, among', id, run, -⟩ := of_mem_hands_pulse play among (same ▸ h.below)
    exact run ▸ h.run g among' (id.trans same)
  plan f among same := by
    by_cases own : w.OwnTurn p id
    · obtain ⟨rfl, g, head, rfl⟩ := own
      obtain ⟨rest, ready⟩ := List.head?_eq_some_iff.mp head
      exact (h.plan g (mem_hands_of_ready ready) rfl).heir (turn_heir play.order ready among same)
    · obtain ⟨g, among', same', -, todo, fault, -⟩ := hands_other play h.below own among same
      exact todo ▸ fault ▸ h.plan g among' same'

theorem place_own {feed : Feed} {c : Cursor} (stands : f.cursor = some c) :
    f.place feed .own = c := by
  rw [Fiber.place, Fiber.cursorOn, stands]
  rfl

/-! ### Frames that came later -/

/-- The fiber takes no frame for itself that was published by `y`. -/
structure Ahead (y x : World) (id : Nat) : Prop where
  grown : y.feed.count ≤ x.feed.count
  placed : ∀ f ∈ x.hands, f.id = id →
    Parted f.todo f.fault ∨ ∃ c, f.cursor = some c ∧ y.feed.count ≤ c.taken

theorem mem_publishedSince {n : Nat} (later : y.feed.count ≤ n)
    (found : x.feed.frames[n]? = some fr) : fr ∈ publishedSince y x := by
  have there : (publishedSince y x)[n - y.feed.count]? = some fr := by
    rw [publishedSince, List.getElem?_drop, Nat.add_sub_cancel' later, Array.getElem?_toList, found]
  exact List.mem_of_getElem? there

theorem publishedSince_grows (play : x.InPlay) (y : World) (ps : List Pulse) :
    publishedSince y x <+: publishedSince y (x.pulses ps) := by
  obtain ⟨new, frames⟩ := (play.grows_pulses ps).frames
  rw [publishedSince, publishedSince, frames, List.drop_append]
  exact List.prefix_append _ _

theorem Ahead.pulse (h : Ahead y x id) (stage : x.Onstage id) (play : x.InPlay) (p : Pulse) :
    Ahead y (x.pulse p) id ∧ ∀ fr ∈ x.draws id p, fr ∈ publishedSince y x := by
  have grown := Nat.le_trans h.grown (play.grows p).count_le
  by_cases own : x.OwnTurn p id
  · obtain ⟨rfl, f, head, rfl⟩ := own
    obtain ⟨rest, ready⟩ := List.head?_eq_some_iff.mp head
    have stands := h.placed f (mem_hands_of_ready ready) rfl
    cases turn_draw play.order ready with
    | none silent placed =>
      rw [silent]
      refine ⟨⟨grown, fun g among same => ?_⟩, by simp⟩
      by_cases back : x.act? = some .resync
      · exact .inr ⟨_, cursor_of_resync play.order ready back among same, h.grown⟩
      · rcases stands with parted | ⟨c, stands, later⟩
        · exact .inl (parted.heir (turn_heir play.order ready among same) back)
        · exact .inr ⟨c, (placed back g among same).trans stands, later⟩
    | @one a after fr c missed todo fault lane pulled drew _ placed =>
      rcases stands with parted | ⟨c', stands, later⟩
      · exact absurd lane (parted.lane?_ne_own todo fault)
      rw [place_own stands] at pulled
      obtain ⟨found, past⟩ := Feed.of_pull_eq_frame pulled
      have after : y.feed.count ≤ max c'.taken (x.feed.frames.size - x.feed.depth) :=
        Nat.le_trans later (Nat.le_max_left _ _)
      rw [drew]
      refine ⟨⟨grown, fun g among same => .inr ⟨c, placed g among same, by omega⟩⟩, ?_⟩
      simpa using mem_publishedSince after found
  · rw [draws_other own]
    refine ⟨⟨grown, fun f among same => ?_⟩, by simp⟩
    obtain ⟨g, among', same', -, todo, fault, cursor⟩ := hands_other play stage.below own among same
    exact todo ▸ fault ▸ cursor ▸ h.placed g among' same'

/-- Everything that the fiber takes for itself came later. -/
theorem Ahead.drawn (h : Ahead y x id) (stage : x.Onstage id) (play : x.InPlay) (ps : List Pulse) :
    ∀ fr ∈ x.drawn id ps, fr ∈ publishedSince y (x.pulses ps) := by
  induction ps generalizing x with
  | nil => simp [World.drawn]
  | cons p ps ih =>
    obtain ⟨next, drew⟩ := h.pulse stage play p
    intro fr member
    rcases List.mem_append.mp member with member | member
    · exact (publishedSince_grows play y (p :: ps)).subset (drew fr member)
    · exact ih next (stage.pulse play p) (play.pulse p) fr member

/-! ### Every frame in order -/

/-- Since `y` the fiber took `taken` for itself, all that was published up to its place. -/
structure InStep (y x : World) (id : Nat) (taken : List Frame) : Prop where
  read : taken <+: publishedSince y x
  placed : ∀ f ∈ x.hands, f.id = id → f.cursor = some ⟨y.feed.count + taken.length⟩

theorem InStep.pulse (h : InStep y x id taken) (stage : x.Onstage id) (play : x.InPlay)
    (still : ¬ x.Resyncs id p) (near : ∀ f ∈ x.fibers, f.id = id → ∀ c, f.cursor = some c →
      x.feed.count ≤ c.taken + x.feed.depth) :
    InStep y (x.pulse p) id (taken ++ x.draws id p) := by
  have read : taken <+: publishedSince y (x.pulse p) :=
    h.read.trans (publishedSince_grows play y [p])
  by_cases own : x.OwnTurn p id
  · have back : x.act? ≠ some .resync := fun act => still ⟨own, act⟩
    obtain ⟨rfl, f, head, rfl⟩ := own
    obtain ⟨rest, ready⟩ := List.head?_eq_some_iff.mp head
    have among := mem_hands_of_ready ready
    have stands := h.placed f among rfl
    cases turn_draw play.order ready with
    | none silent placed =>
      rw [silent, List.append_nil]
      exact ⟨read, fun g among same => (placed back g among same).trans stands⟩
    | @one a after fr c missed _ _ _ pulled drew _ placed =>
      rw [place_own stands] at pulled
      obtain ⟨found, past⟩ := Feed.pull_near (near f (mem_hands.mp among) rfl _ stands) pulled
      rw [drew]
      refine ⟨?_, fun g among same => ?_⟩
      · have next : (publishedSince y x)[taken.length]? = some fr := by
          rw [publishedSince, List.getElem?_drop, Array.getElem?_toList]
          exact found
        obtain ⟨bound, rfl⟩ := List.getElem?_eq_some_iff.mp next
        have more := List.concat_get_prefix h.read bound
        exact more.trans (publishedSince_grows play y [.turn])
      · rw [placed g among same, List.length_append]
        exact congrArg some (congrArg Cursor.mk past)
  · rw [draws_other own, List.append_nil]
    refine ⟨read, fun f among same => ?_⟩
    obtain ⟨g, among', same', -, -, -, cursor⟩ := hands_other play stage.below own among same
    exact cursor ▸ h.placed g among' same'

theorem Abreast.tail (h : w.Abreast (p :: ps) id) : (w.pulse p).Abreast ps id :=
  fun pre before => h (p :: pre) (List.cons_prefix_cons.mpr ⟨rfl, before⟩)

theorem InStep.drawn (h : InStep y x id taken) (stage : x.Onstage id) (play : x.InPlay)
    (still : x.Never (·.Resyncs id) ps) (abreast : x.Abreast ps id) :
    taken ++ x.drawn id ps <+: publishedSince y (x.pulses ps) := by
  induction ps generalizing x taken with
  | nil =>
    rw [World.drawn, List.append_nil]
    exact h.read
  | cons p ps ih =>
    have near := abreast [] (List.nil_prefix)
    rw [World.drawn, ← List.append_assoc]
    exact ih (h.pulse stage play still.1 near) (stage.pulse play p) (play.pulse p) still.2 abreast.tail

/-- Frames are numbered from one on. -/
theorem numbered_pulses (o : Opening) (ps : List Pulse) :
    (o.world.pulses ps).feed.frames.toList.map (·.index) =
      List.range' 1 (o.world.pulses ps).feed.count := by
  refine (inPlay_opening o).induction (P := fun _ w => w.feed.frames.toList.map (·.index) =
    List.range' 1 w.feed.count) rfl (fun ps p play numbered => ?_) ps
  by_cases still : ∀ delta keys, p ≠ .publish delta keys
  · rw [Feed.count, play.frames still]
    exact numbered
  · push Not at still
    obtain ⟨delta, keys, rfl⟩ := still
    have published : ((o.world.pulses ps).publish delta keys).feed =
        (o.world.pulses ps).feed.publish delta keys := rfl
    rw [World.pulse, published, Feed.count_publish, List.range'_concat, ← numbered]
    simp [Feed.publish, Feed.count, Nat.add_comm]

/-- The first frames after `y` are numbered without a gap. -/
theorem numbered_since (numbered : x.feed.frames.toList.map (·.index) =
    List.range' 1 x.feed.count) (first : taken <+: publishedSince y x) :
    taken.map (·.index) = List.range' (y.feed.count + 1) taken.length := by
  obtain ⟨rest, all⟩ := first
  have indices : (publishedSince y x).map (·.index) =
      List.range' (1 + y.feed.count) (x.feed.count - y.feed.count) := by
    rw [publishedSince, List.map_drop, numbered, List.drop_range', Nat.mul_one]
  rw [← all, List.map_append] at indices
  obtain ⟨n, -, first, -⟩ := List.range'_eq_append_iff.mp indices.symm
  have length : taken.length = n := by
    simpa using congrArg List.length first
  rw [first, length, Nat.add_comm]

/-! ### Coming back -/

/-- In its last turn the fiber was held up. -/
def Resumed (w : World) (id : Nat) (ps : List Pulse) : Prop :=
  ∃ pre p post, ps = pre ++ p :: post ∧ (w.pulses pre).HeldUp id p ∧
    ((w.pulses pre).pulse p).Never (·.OwnTurn · id) post

theorem resumed_pulses (stage : w.Onstage id) (play : w.InPlay)
    (start : ∀ f ∈ w.hands, f.id = id → f.todo = []) (ps : List Pulse) :
    ∀ f ∈ (w.pulses ps).hands, f.id = id → f.fault = none → f.todo.head? = some .resync →
      w.Resumed id ps := by
  refine (play.induction (P := fun ps x => x.Onstage id ∧ ∀ f ∈ x.hands, f.id = id →
    f.fault = none → f.todo.head? = some .resync → w.Resumed id ps) ⟨stage, ?_⟩ ?_ ps).2
  · intro f among same _ head
    rw [start f among same] at head
    cases head
  intro ps p play' ⟨stage, resumed⟩
  refine ⟨stage.pulse play' p, fun f among same fine head => ?_⟩
  by_cases own : (w.pulses ps).OwnTurn p id
  · obtain ⟨rfl, g, first, rfl⟩ := own
    obtain ⟨rest, ready⟩ := List.head?_eq_some_iff.mp first
    have plan := stage.plan g (mem_hands_of_ready ready) rfl
    have away := plan.away_of_resync (turn_heir play'.order ready among same) head fine
    exact ⟨ps, .turn, [], rfl, ⟨rfl, g, first, rfl, away⟩, trivial⟩
  · obtain ⟨g, among', same', -, todo, fault, -⟩ := hands_other play' stage.below own among same
    obtain ⟨pre, q, post, rfl, held, never⟩ :=
      resumed g among' same' (fault.trans fine) (todo ▸ head)
    refine ⟨pre, q, post ++ [p], by simp, held, never_concat never ?_⟩
    rw [pulses_append] at own
    exact own

/-! ### Commands that take no time -/

theorem took_sound (b : Backstage) (id : Nat) (author : Option Nat) (e : SoundEvent) :
    (b.write ⟨author, .sound e⟩).took id = b.took id :=
  tale_append_none fun e' member _ => by
    rw [List.mem_singleton.mp member]
    rfl

theorem took_work (w : World) (a : Act) (id : Nat) :
    (w.work a).backstage.took id = w.backstage.took id := by
  have kept {x : World} {b : Backstage} (heq : x.backstage = b)
      (still : b.took id = w.backstage.took id) : x.backstage.took id = w.backstage.took id := by
    rw [heq]
    exact still
  have cancelled (c : Channel) : (w.backstage.cancel c).took id = w.backstage.took id :=
    congrArg (tale Deed.took? id) (w.backstage.log_cancel c)
  have fadeOut (c : Channel) (span : Span) :
      (w.fadeOut c span).1.backstage.took id = w.backstage.took id := by
    rw [backstage_fadeOut]
    split
    · split
      · exact cancelled c
      · exact (took_sound _ id _ _).trans (cancelled c)
    · rfl
  cases a with
  | sweep s =>
    show (if s.elapsed < s.span then w.paint s.share s.paint else w).backstage.took id = _
    split
    · cases s.paint with
      | tint => exact kept (backstage_stage _ _) rfl
      | board => exact kept (backstage_setBoard _ _) rfl
      | nothing | volume => rfl
    · rfl
  | play c clip pitch =>
    refine kept (backstage_play w c clip pitch) ?_
    split
    · refine (took_sound _ id _ _).trans ?_
      split
      · exact cancelled c
      · rfl
    · rfl
  | hush c span => exact fadeOut c span
  | hushMusic span => exact fadeOut .bgm span
  | silence c => exact kept (backstage_silence w c) (took_sound _ id _ _)
  | tween => exact kept (backstage_spawn _ _ _ _) rfl
  | timer c => exact kept (backstage_startCountdown w c) rfl
  | stopTimer => exact kept (backstage_stopCountdown w) rfl
  | count timer due => exact kept (backstage_countDown w timer due) rfl
  | _ => rfl

theorem took_turn (order : w.InOrder) (idle : ∀ a, w.act? = some a → a.lane? = none) (id : Nat) :
    w.turn.took id = w.took id := by
  rw [← took_backstage, ← took_backstage]
  cases ready : w.ready with
  | nil => rw [turn, ready]
  | cons f rest =>
    have yields (b : Backstage) (f : Fiber) : (b.yield f).took id = b.took id :=
      congrArg (tale Deed.took? id) (yield_still b f).2
    show _ = (w.taken f rest).backstage.took id
    cases turn_turns order ready with
    | ends _ same => exact same ▸ yields _ f
    | fetches _ _ _ _ _ _ _ _ _ _ _ _ same => exact same ▸ rfl
    | @works a _ act _ _ _ works =>
      cases works with
      | goes _ _ _ same => exact same ▸ took_work _ a id
      | takes _ lane =>
        rw [idle a act] at lane
        cases lane
      | bursts stride =>
        have lane := idle a act
        rw [stride] at lane
        cases lane
      | falls _ same => exact same ▸ yields _ _
    | @unwinds a _ _ _ _ _ _ _ _ _ _ _ _ _ same =>
      rw [same]
      cases a with
      | silence c => exact backstage_silence (w.taken f rest) c ▸ took_sound _ id _ _
      | _ => rfl

end World

theorem Phase.not_suspends {c : Command} {a : Act} {rest : List Act} {shown picks : Bool}
    (h : Phase c (a :: rest) shown picks) (brief : c.blocks = false) : a.suspends = false := by
  generalize acts : a :: rest = todo at h
  cases h with
  | plain h =>
    subst acts
    have instant := h.instant brief a List.mem_cons_self
    cases a <;> simp_all [Act.isInstant, Act.suspends]
  | spent => cases acts
  | offers | opens | «open» | picked | closes => cases brief
  | _ =>
    obtain ⟨rfl, -⟩ := List.cons.inj acts
    rfl

namespace World

variable {w x : World} {id : Nat}

/-- While a command that takes no time is done, the fiber does not wait and takes no frame. -/
theorem Onstage.brief (stage : x.Onstage id) (play : x.InPlay) {c : Command}
    (under : x.state.command = some c) (brief : c.blocks = false) :
    (∀ b ∈ x.blocked, b.fiber.id ≠ id) ∧ x.turn.took id = x.took id := by
  have goesOn {f : Fiber} {a : Act} {rest : List Act} (among : f ∈ x.hands) (same : f.id = id)
      (todo : f.todo = a :: rest) (fault : f.fault = none) : a.suspends = false := by
    obtain ⟨r, role⟩ := (Fiber.isRun_iff f).mp (stage.run f among same)
    have lead : f.lead? = some (f.leading r) := by
      rw [Fiber.lead?, role]
      rfl
    have listed : f.leading r ∈ x.plot.leads :=
      List.mem_filterMap.mpr ⟨f, mem_hands.mp among, lead⟩
    cases play.order.staged with
    | idle idle =>
      rw [idle.leads] at listed
      cases listed
    | playing l playing =>
      rw [playing.leads] at listed
      obtain rfl := List.mem_singleton.mp listed
      have command : x.plot.state.command = some c := under
      rcases playing.course with fresh | ⟨c', shown, picks, at'⟩
      · rw [fresh.command] at command
        cases command
      · obtain rfl := Option.some.inj (at'.command.symm.trans command)
        have phase := at'.phase fault
        rw [show (f.leading r).todo = f.todo from rfl, todo] at phase
        exact phase.not_suspends brief
  refine ⟨fun b parked same => ?_, ?_⟩
  · obtain ⟨fault, a, rest, todo, suspends⟩ := play.order.crewed.rests b parked
    rw [goesOn (mem_hands_of_blocked parked) same todo fault] at suspends
    cases suspends
  · by_cases own : x.OwnTurn .turn id
    · obtain ⟨-, f, head, same⟩ := own
      refine took_turn play.order (fun a act => ?_) id
      obtain ⟨f', rest, after, ready, -, fault, todo, -⟩ := turn_doing act
      obtain rfl : f = f' := by
        rw [ready] at head
        exact (Option.some.inj head).symm
      have still := goesOn (mem_hands_of_ready ready) same todo fault
      cases a with
      | stride | confirm => cases still
      | _ => rfl
    · exact tale_pulse play own

/-! ### What a run takes -/

/-- After these pulses the fiber is at the beginning of its run, or it resynced in the last one. -/
def Marks (w : World) (id : Nat) (ps : List Pulse) : Prop :=
  ps = [] ∨ ∃ pre p, ps = pre ++ [p] ∧ (w.pulses pre).Resyncs id p

/-- The frames that the fiber of a run takes for itself in these pulses, from `w` on, where the run
has just begun. -/
structure Accounted (w : World) (id : Nat) (ps : List Pulse) : Prop where
  /-- None was published before the run began. -/
  since : ∀ fr ∈ w.drawn id ps, fr ∈ publishedSince w (w.pulses ps)
  /-- None was published before the fiber last came back from an animation, a choice or a load. -/
  returned : ∀ pre p post, ps = pre ++ p :: post → (w.pulses pre).HeldUp id p →
    let y := (w.pulses pre).pulse p
    ∀ fr ∈ y.drawn id post, fr ∈ publishedSince y (w.pulses ps)
  /-- It resyncs in the turn after it came back, and at no other time. -/
  resumes : ∀ pre p post, ps = pre ++ p :: post → (w.pulses pre).Resyncs id p → w.Resumed id pre
  /-- From there on it takes every frame in order, each of them once. -/
  whole : ∀ pre post, ps = pre ++ post → w.Marks id pre →
    let y := w.pulses pre
    y.Never (·.Resyncs id) post → y.Abreast post id →
      y.drawn id post <+: publishedSince y (w.pulses ps) ∧
      (y.drawn id post).map (·.index) =
        List.range' (y.feed.count + 1) (y.drawn id post).length
  /-- Commands that take no time neither wait nor take a frame. -/
  brief : ∀ c, (w.pulses ps).state.command = some c → c.blocks = false →
    (∀ b ∈ (w.pulses ps).blocked, b.fiber.id ≠ id) ∧
      (w.pulses ps).turn.took id = (w.pulses ps).took id

theorem Onstage.pulses (h : w.Onstage id) (play : w.InPlay) (ps : List Pulse) :
    (w.pulses ps).Onstage id :=
  play.induction (P := fun _ x => x.Onstage id) h (fun _ p play h => h.pulse play p) ps

theorem accounted_of_start (play : w.InPlay) (stage : w.Onstage id)
    (numbered : ∀ ps, (w.pulses ps).feed.frames.toList.map (·.index) =
      List.range' 1 (w.pulses ps).feed.count)
    (start : ∀ f ∈ w.hands, f.id = id → f.todo = [] ∧ f.cursor = some ⟨w.feed.count⟩)
    (ps : List Pulse) : w.Accounted id ps where
  since := by
    have ahead : Ahead w w id := ⟨Nat.le_refl _, fun f among same =>
      .inr ⟨_, (start f among same).2, Nat.le_refl _⟩⟩
    exact ahead.drawn stage play ps
  returned := by
    rintro pre p post rfl held y
    obtain ⟨rfl, f, head, rfl, away⟩ := held
    obtain ⟨rest, ready⟩ := List.head?_eq_some_iff.mp head
    have play' := play.pulses pre
    have stage' := stage.pulses play pre
    have parted := (stage'.plan f (mem_hands_of_ready ready) rfl).parted_of_isAway away
    have ahead : Ahead y y f.id := ⟨Nat.le_refl _, fun g among same => by
      have heir := turn_heir play'.order ready among same
      exact .inl (parted.heir heir (parted.act_ne_resync away heir))⟩
    rw [pulses_append]
    exact ahead.drawn (stage'.pulse play' .turn) (play'.pulse .turn) post
  resumes := by
    rintro pre p post rfl ⟨⟨rfl, f, head, same⟩, act⟩
    obtain ⟨f', rest, after, ready, -, fault, todo, -⟩ := turn_doing act
    obtain rfl : f' = f := by
      rw [ready] at head
      exact Option.some.inj head
    exact resumed_pulses stage play (fun f among same => (start f among same).1) pre f'
      (mem_hands_of_ready ready) same fault (by rw [todo]; rfl)
  whole := by
    rintro pre post rfl marks y still abreast
    have placed : ∀ f ∈ y.hands, f.id = id → f.cursor = some ⟨y.feed.count⟩ := by
      rcases marks with rfl | ⟨pre, p, rfl, ⟨⟨rfl, f, head, rfl⟩, act⟩⟩
      · exact fun f among same => (start f among same).2
      · obtain ⟨rest, ready⟩ := List.head?_eq_some_iff.mp head
        have play' := play.pulses pre
        have last : y = (w.pulses pre).turn := pulses_concat w pre .turn
        have feed : y.feed = (w.pulses pre).feed := by
          rw [last]
          exact play'.screened.feed_turn play'.order
        rw [feed]
        intro g among same
        exact cursor_of_resync play'.order ready act (last ▸ among) same
    have inStep : InStep y y id [] := ⟨List.nil_prefix, placed⟩
    have first := inStep.drawn (stage.pulses play pre) (play.pulses pre) still abreast
    rw [pulses_append]
    exact ⟨first, numbered_since (pulses_append w pre post ▸ numbered (pre ++ post)) first⟩
  brief c under brief := (stage.pulses play ps).brief (play.pulses ps) under brief

/-- Every frame that a run takes for a wait of its own was published after the run began and after it
came back from what held it up last, and until it is held up again it takes every frame in order, as
long as it does not fall behind. -/
theorem frames_are_accounted_for (o : Opening) (before after : List Pulse) (n number : Nat)
    (accepted : ((o.world.pulses before).executeNumber n).2 = .ok number) :
    let w := o.world.pulses before
    (w.pulse (.host (.execute n) rfl)).Accounted w.nextFiber after := by
  intro w
  have play : w.InPlay := inPlay_pulses o before
  generalize begins : Pulse.host (.execute n) rfl = p
  obtain ⟨e, refused, -⟩ | ⟨q, -, -, same⟩ := backstage_executeNumber w n
  · rw [accepted] at refused
    cases refused
  have same : (w.pulse p).backstage = w.renewScope.backstage.join
      (.start w.nextFiber (.run ⟨w.runs, q, 0, .empty⟩) (some w.feed.subscribe) []) := begins ▸ same
  have only : ∀ f ∈ (w.pulse p).hands, f.id = w.nextFiber → f = .start w.nextFiber _ _ _ :=
    fun f among id => eq_of_join (play.pulse p).order same among id
  have feed : (w.pulse p).feed = w.feed := by
    have renewed : w.renewScope.backstage.feed = w.feed :=
      congrArg Backstage.feed (backstage_renewScope w)
    exact (congrArg Backstage.feed same).trans renewed
  have numbered (ps : List Pulse) : ((w.pulse p).pulses ps).feed.frames.toList.map (·.index) =
      List.range' 1 ((w.pulse p).pulses ps).feed.count := by
    have along : o.world.pulses (before ++ p :: ps) = (w.pulse p).pulses ps :=
      pulses_append o.world before (p :: ps)
    exact along ▸ numbered_pulses o (before ++ p :: ps)
  have here : Fiber.start w.nextFiber (.run ⟨w.runs, q, 0, .empty⟩) (some w.feed.subscribe) [] ∈
      (w.pulse p).hands := by
    rw [show (w.pulse p).hands = _ ::ₘ w.renewScope.backstage.hands from
      congrArg Backstage.hands same]
    exact Multiset.mem_cons_self _ _
  have below : w.nextFiber < (w.pulse p).nextFiber := (play.pulse p).order.below_hands _ here
  refine accounted_of_start (play.pulse p) ⟨below, fun f among id => ?_, fun f among id => ?_⟩
    numbered (fun f among id => ?_) after
  · rw [only f among id]
    rfl
  · rw [only f among id]
    exact .orderly .nil
  · rw [only f among id, feed]
    exact ⟨rfl, rfl⟩

theorem frames_are_accounted_for_box :
    let o : Opening := ⟨default, { (default : Rig) with gatedStage := true }, 8, default, default,
      [[.boxState true, .wait ⟨2⟩]]⟩
    let w := o.world
    let p : Pulse := .host (.execute 0) rfl
    let after : List Pulse := List.replicate 3 .turn ++ .publish ⟨5⟩ .nothing ::
      .host (.finishAnimation 1) rfl :: List.replicate 7 .turn ++ .publish ⟨2⟩ .nothing ::
        List.replicate 3 .turn
    (w.executeNumber 0).2 = .ok 0 ∧
      (w.pulse p).drawn w.nextFiber after = [⟨2, ⟨2⟩, .nothing⟩] ∧
      (w.pulse p).Accounted w.nextFiber after := by
  refine ⟨rfl, by decide +kernel, ?_⟩
  exact frames_are_accounted_for _ [] _ 0 0 rfl

end World

end SceneScript
