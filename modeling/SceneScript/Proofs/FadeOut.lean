import Mathlib.Data.Nat.Find
import SceneScript.Proofs.Mixing
/-!
A fade, from the call that starts it on: the frames it takes, the one at which it has faded out, and
what cuts it off.
-/

namespace SceneScript

/-! ### Frames that fill a span -/

/-- Without its last frame the list does not fill the span. -/
def Short (span : Span) (frames : List Frame) : Prop :=
  ∀ k < frames.length, totalDelta (frames.take k) < span

/-- The frames fill the span, and their sum does not overflow before they do. -/
def Fills (span : Span) (frames : List Frame) : Prop :=
  ∃ k ≤ frames.length, span ≤ totalDelta (frames.take k) ∧
    (totalDelta (frames.take k)).nanos < Span.limit ∧ Short span (frames.take k)

section

variable {span : Span} {frames taken : List Frame} {fr : Frame}

theorem Short.concat (h : Short span taken) (less : totalDelta taken < span) :
    Short span (taken ++ [fr]) := by
  intro k bound
  rw [List.length_append, List.length_singleton] at bound
  rw [List.take_append_of_le_length (by omega)]
  by_cases all : k = taken.length
  · rw [all, List.take_length]
    exact less
  · exact h k (by omega)

theorem fills_of_prefix (first : taken <+: frames) (full : span ≤ totalDelta taken)
    (fits : (totalDelta taken).nanos < Span.limit) (short : Short span taken) :
    Fills span frames := by
  have same := List.prefix_iff_eq_take.mp first
  refine ⟨taken.length, first.length_le, ?_⟩
  rw [← same]
  exact ⟨full, fits, short⟩

theorem Fills.le (h : Fills span frames) : span ≤ totalDelta frames := by
  obtain ⟨k, -, full, -⟩ := h
  exact Nat.le_trans full (totalDelta_le (List.take_sublist k frames))

theorem not_fills_of_overflow (first : taken <+: frames)
    (overflow : Span.limit ≤ (totalDelta taken).nanos) (short : Short span taken) :
    ¬ Fills span frames := by
  rintro ⟨k, -, full, fits, -⟩
  by_cases before : k < taken.length
  · have less := short k before
    obtain ⟨rest, rfl⟩ := first
    rw [List.take_append_of_le_length (Nat.le_of_lt before)] at full
    exact absurd less (Nat.not_lt.mpr full)
  · have within : taken <+: frames.take k :=
      List.prefix_take_iff.mpr ⟨first, Nat.le_of_not_lt before⟩
    have more := totalDelta_le within.sublist
    exact absurd (Nat.lt_of_le_of_lt (Nat.le_trans overflow more) fits) (Nat.lt_irrefl _)

/-- As long as nothing overflows, filling the span is enough. -/
theorem fills_iff (fits : (totalDelta frames).nanos < Span.limit) :
    Fills span frames ↔ span ≤ totalDelta frames := by
  refine ⟨Fills.le, fun full => ?_⟩
  have found : ∃ k, span ≤ totalDelta (frames.take k) := ⟨frames.length, by rwa [List.take_length]⟩
  have first := Nat.find_spec found
  have least := fun k => Nat.find_min found (m := k)
  generalize Nat.find found = n at first least
  refine fills_of_prefix (List.take_prefix n frames) first ?_ fun k bound => ?_
  · exact Nat.lt_of_le_of_lt (totalDelta_le (List.take_sublist n frames)) fits
  · rw [List.length_take] at bound
    rw [List.take_take, Nat.min_eq_left (by omega)]
    exact Nat.lt_of_not_le (least k (by omega))

end

/-! ### What a fade has left to do -/

def Deed.fadedOut? : Deed → Option Channel
  | .sound (.fadedOut c) => some c
  | _ => none

/-- What is left to do for the fade of a channel when it took these frames, and what it told. -/
inductive Sweeping (c : Channel) (span : Span) (taken : List Frame) :
    List Act → List Channel → Prop where
  | sweeps {s : Sweep} : s.span = span → s.elapsed = totalDelta taken →
      Sweeping c span taken [.sweep s, .silence c] []
  | strides {s : Sweep} : s.span = span → s.elapsed = totalDelta taken → s.elapsed < span →
      Sweeping c span taken [.stride s, .silence c] []
  | silences : span ≤ totalDelta taken → Sweeping c span taken [.silence c] []
  | spent : span ≤ totalDelta taken → Sweeping c span taken [] [c]

theorem Sweeping.told {c : Channel} {span : Span} {taken : List Frame} {todo : List Act}
    {told : List Channel} (acts : Sweeping c span taken todo told)
    (fits : (totalDelta taken).nanos < Span.limit) :
    told = [] ∨ told = [c] ∧ span ≤ totalDelta taken ∧ (totalDelta taken).nanos < Span.limit := by
  cases acts with
  | sweeps | strides | silences => exact .inl rfl
  | spent full => exact .inr ⟨rfl, full, fits⟩

theorem Sweep.fits {s s' : Sweep} {fr : Frame} (taken : s.take? fr = some s') :
    s'.elapsed.nanos < Span.limit := by
  obtain ⟨fits, rfl⟩ := Sweep.of_take? taken
  exact fits

theorem Sweep.overflows {s : Sweep} {fr : Frame} {taken : List Frame} (overflow : s.take? fr = none)
    (elapsed : s.elapsed = totalDelta taken) :
    Span.limit ≤ (totalDelta (taken ++ [fr])).nanos := by
  rw [totalDelta_concat, ← elapsed]
  exact Sweep.take?_eq_none.mp overflow

namespace Backstage

/-- What the fiber told of channels that faded out. -/
def fadedOut (b : Backstage) (id : Nat) : List Channel := tale Deed.fadedOut? id b.log

/-- What has become of the fade of a channel, with what was asked of the mixer since it began. -/
inductive Fate (b : Backstage) (id : Nat) (c : Channel) (span : Span) (asked : List Request) :
    Prop where
  | runs (f : Fiber) : f ∈ b.hands → f.id = id → f.doomed = false →
      (∀ q ∈ asked, q.channel ≠ c) → (totalDelta (b.took id)).nanos < Span.limit →
      Sweeping c span (b.took id) f.todo (b.fadedOut id) → Fate b id c span asked
  | ended : b.mixer.fades.get c ≠ some id →
      ((∀ q ∈ asked, q.channel ≠ c) →
        (b.fadedOut id = [] → Span.limit ≤ (totalDelta (b.took id)).nanos) ∧
        (b.fadedOut id = [c] → b.mixer.fades.get c = none ∧
          (b.mixer.strips.get c).volume = Strip.fullVolume ∧
          (b.mixer.strips.get c).playing = false)) → Fate b id c span asked

structure Faded (b : Backstage) (id : Nat) (c : Channel) (span : Span) (asked : List Request) :
    Prop where
  role : ∀ f ∈ b.hands, f.id = id → f.role = .fade c
  short : Short span (b.took id)
  told : b.fadedOut id = [] ∨ b.fadedOut id = [c] ∧ span ≤ totalDelta (b.took id) ∧
    (totalDelta (b.took id)).nanos < Span.limit
  fate : Fate b id c span asked

variable {b b' : Backstage} {f f' : Fiber} {id : Nat} {c : Channel} {span : Span}
  {asked : List Request} {taken : List Frame} {todo : List Act}

theorem fadedOut_write (b : Backstage) (id : Nat) (d : Deed) :
    (b.write ⟨some id, d⟩).fadedOut id = b.fadedOut id ++ d.fadedOut?.toList := by
  show tale _ _ (b.log ++ [_]) = _
  rw [tale_append, tale_own]
  rfl

/-- The fade goes on. -/
theorem faded_join (fresh : ∀ g ∈ b.hands, g.id ≠ f.id) (role : f.role = .fade c)
    (spared : f.doomed = false) (unasked : ∀ q ∈ asked, q.channel ≠ c)
    (short : Short span (b.took f.id)) (fits : (totalDelta (b.took f.id)).nanos < Span.limit)
    (acts : Sweeping c span (b.took f.id) f.todo (b.fadedOut f.id)) :
    (b.join f).Faded f.id c span asked where
  role g among same := by
    rcases Multiset.mem_cons.mp among with rfl | among
    · exact role
    · exact absurd same (fresh g among)
  short := short
  told := acts.told fits
  fate := .runs f (Multiset.mem_cons_self f b.hands) rfl spared unasked fits acts

theorem faded_step {w : World} (fresh : ∀ g ∈ w.hands, g.id ≠ f.id) (role : f.role = .fade c)
    (spared : f.doomed = false) (unasked : ∀ q ∈ asked, q.channel ≠ c)
    (short : Short span (w.backstage.took f.id))
    (fits : (totalDelta (w.backstage.took f.id)).nanos < Span.limit)
    (acts : Sweeping c span (w.backstage.took f.id) f.todo (w.backstage.fadedOut f.id))
    (actor : w.actor = some f.id) (step : World.FadeStep w f c b' f') :
    (b'.join f').Faded f.id c span asked := by
  cases step with
  | @dims s todo going =>
    rw [todo] at acts
    generalize quiet : w.backstage.fadedOut f.id = told at acts
    cases acts with
    | sweeps same elapsed =>
      refine faded_join (f := { f with todo := [.stride s, .silence c] }) fresh role spared unasked
        short fits ?_
      show Sweeping c span (w.backstage.took f.id) _ (w.backstage.fadedOut f.id)
      rw [quiet]
      exact .strides same elapsed (same ▸ going)
  | @due s todo spent =>
    rw [todo] at acts
    generalize quiet : w.backstage.fadedOut f.id = told at acts
    cases acts with
    | sweeps same elapsed =>
      refine faded_join (f := { f with todo := [.silence c], pressed := _ }) fresh role spared unasked
        short fits ?_
      show Sweeping c span (w.backstage.took f.id) _ (w.backstage.fadedOut f.id)
      rw [quiet]
      exact .silences (elapsed ▸ same ▸ Nat.le_of_not_lt spent)
  | @takes s s' fr cu missed todo pulled took =>
    rw [todo] at acts
    generalize quiet : w.backstage.fadedOut f.id = told at acts
    cases acts with
    | strides same elapsed less =>
      have frames : (w.backstage.write ⟨w.actor, .took fr⟩).took f.id =
          w.backstage.took f.id ++ [fr] := by
        rw [actor, took_write]
        rfl
      have still : (w.backstage.write ⟨w.actor, .took fr⟩).fadedOut f.id = [] := by
        rw [actor, fadedOut_write, ← quiet]
        exact List.append_nil _
      have elapsed' := Sweep.elapsed_take took elapsed
      refine faded_join (f := { f with cursor := some cu, todo := [.sweep s', .silence c] }) fresh role
        spared unasked ?_ ?_ ?_
      · rw [frames]
        exact short.concat (elapsed ▸ less)
      · rw [frames, ← elapsed']
        exact Sweep.fits took
      · rw [frames, still]
        exact .sweeps ((Sweep.take?_fields took).span.trans same) elapsed'
  | silences todo =>
    rw [todo] at acts
    generalize quiet : w.backstage.fadedOut f.id = told at acts
    cases acts with
    | silences full =>
      have frames : ((w.backstage.modifyStrip c Strip.stop).write
          ⟨w.actor, .sound (.fadedOut c)⟩).took f.id = w.backstage.took f.id := by
        rw [actor, took_write]
        exact List.append_nil _
      have faded : ((w.backstage.modifyStrip c Strip.stop).write
          ⟨w.actor, .sound (.fadedOut c)⟩).fadedOut f.id = [c] := by
        rw [actor, fadedOut_write]
        show w.backstage.fadedOut f.id ++ _ = _
        rw [quiet]
        rfl
      refine faded_join (f := { f with todo := [] }) fresh role spared unasked ?_ ?_ ?_
      · rwa [frames]
      · rwa [frames]
      · rw [frames, faded]
        exact .spent full

theorem fades_setFade_none (b : Backstage) (c : Channel) :
    (b.setFade c none).mixer.fades.get c = none := by
  rw [show (b.setFade c none).mixer.fades.get c = _ from get_setFade b.mixer c c none, if_pos rfl]

/-- The fiber is gone. -/
theorem faded_leave (fresh : ∀ g ∈ b.hands, g.id ≠ id) (short : Short span (b.took id))
    (told : b.fadedOut id = [] ∨ b.fadedOut id = [c] ∧ span ≤ totalDelta (b.took id) ∧
      (totalDelta (b.took id)).nanos < Span.limit)
    (fate : Fate b id c span asked) : b.Faded id c span asked where
  role g among same := absurd same (fresh g among)
  short := short
  told := told
  fate := fate

end Backstage

namespace World

variable {w : World} {f : Fiber} {p : Pulse} {id : Nat} {c : Channel} {span : Span}
  {asked : List Request}

open Backstage

/-- A turn of the fade. -/
theorem faded_own (play : w.InPlay) (h : w.backstage.Manned) {rest : List Fiber}
    (ready : w.ready = f :: rest) (faded : w.backstage.Faded f.id c span asked) :
    w.turn.backstage.Faded f.id c span asked := by
  have among : f ∈ w.hands := mem_hands_of_ready ready
  have role := faded.role f among rfl
  have fresh := play.order.fresh_taken ready
  obtain ⟨-, short, told, fate⟩ := faded
  cases doomed : f.doomed with
  | true =>
    rw [(manned_turn_doomed play.order h ready doomed).1]
    refine faded_leave fresh short told ?_
    cases fate with
    | ended lost end' => exact .ended lost end'
    | runs g among' same spared =>
      obtain rfl := h.eq_of_id among' among same
      rw [doomed] at spared
      cases spared
  | false =>
    have own := h.fades f among c role doomed
    cases fate with
    | ended lost => exact absurd own.slot lost
    | runs g among' same spared unasked fits acts =>
      obtain rfl := h.eq_of_id among' among same
      cases turn_fade play.screened.sources_pos h ready role doomed with
      | goes step _ _ same =>
        rw [same]
        exact faded_step (w := w.taken g rest) fresh role doomed unasked short fits acts rfl step
      | waits _ _ _ _ same =>
        rw [same]
        exact faded_join fresh role doomed unasked short fits acts
      | @bursts s fr cu missed todo pulled overflow _ same =>
        rw [todo] at acts
        have frames : w.turn.backstage.took g.id = w.backstage.took g.id ++ [fr] := by
          rw [same]
          exact took_write (w.taken g rest).backstage g.id (.took fr)
        have still : w.turn.backstage.fadedOut g.id = w.backstage.fadedOut g.id := by
          rw [same]
          exact (fadedOut_write (w.taken g rest).backstage g.id (.took fr)).trans
            (List.append_nil _)
        generalize quiet : w.backstage.fadedOut g.id = told' at acts
        cases acts with
        | strides _ elapsed less =>
          refine faded_leave ?_ ?_ (.inl (still.trans quiet)) (.ended ?_ fun _ => ⟨fun _ => ?_, ?_⟩)
          · rw [same]
            exact fresh
          · rw [frames]
            exact short.concat (elapsed ▸ less)
          · rw [same, fades_setFade_none]
            exact (Option.some_ne_none _).symm
          · rw [frames]
            exact Sweep.overflows overflow elapsed
          · rw [still, quiet]
            exact fun told => absurd told.symm (List.cons_ne_nil c [])
      | ends todo _ same =>
        rw [todo] at acts
        have stopped := own.spent todo
        rw [same]
        refine faded_leave fresh short told (.ended ?_ fun _ => ⟨fun silent => ?_, fun _ => ?_⟩)
        · rw [fades_setFade_none]
          exact (Option.some_ne_none _).symm
        · have silent : w.backstage.fadedOut g.id = [] := silent
          rw [silent] at acts
          cases acts
        · exact ⟨fades_setFade_none _ c, stopped⟩

theorem fadedOut_backstage (w : World) (id : Nat) :
    w.backstage.fadedOut id = tale Deed.fadedOut? id w.entries :=
  tale_log w id fun d unlogged => by cases d <;> first | rfl | cases unlogged

/-- A pulse in which the fade has no turn. -/
theorem faded_other (play : w.InPlay) (h : w.backstage.Manned) (below : id < w.nextFiber)
    (other : ¬ w.OwnTurn p id) (faded : w.backstage.Faded id c span asked) :
    (w.pulse p).backstage.Faded id c span (asked ++ (w.asks? p).toList) := by
  obtain ⟨role, short, told, fate⟩ := faded
  have took : (w.pulse p).backstage.took id = w.backstage.took id := by
    rw [took_backstage, took_backstage]
    exact tale_pulse play other
  have fadedOut : (w.pulse p).backstage.fadedOut id = w.backstage.fadedOut id := by
    rw [fadedOut_backstage, fadedOut_backstage]
    exact tale_pulse play other
  have step := bus_pulse play h p c
  have old : id ≠ w.nextFiber := Nat.ne_of_lt below
  have unasked (none : ∀ q ∈ asked ++ (w.asks? p).toList, q.channel ≠ c) :
      (∀ q ∈ asked, q.channel ≠ c) ∧ ∀ q, w.asks? p = some q → q.channel ≠ c :=
    ⟨fun q member => none q (List.mem_append_left _ member),
      fun q asks => none q (List.mem_append_right _ (Option.mem_toList.mpr asks))⟩
  refine ⟨fun f among same => ?_, took ▸ short, took ▸ fadedOut ▸ told, ?_⟩
  · obtain ⟨g, among', id', -, stays⟩ := of_mem_hands_pulse play among (same ▸ below)
    have role := role g among' (id'.trans same)
    exact (stays (by rw [Fiber.isRun, Fiber.run?, role]; rfl)).trans role
  cases fate with
  | ended lost end' =>
    refine .ended (step.lost old lost) fun none => ?_
    obtain ⟨none, unasked⟩ := unasked none
    rw [took, fadedOut]
    refine ⟨(end' none).1, fun told => ?_⟩
    obtain ⟨free, stopped⟩ := (end' none).2 told
    have same := step.apart unasked fun _ => free
    exact ⟨(congrArg Bus.fade same).trans free, by
      rw [show (w.pulse p).backstage.mixer.strips.get c = _ from congrArg Bus.strip same]
      exact stopped⟩
  | runs f among same spared none fits acts =>
    subst same
    have own := h.fades f among c (role f among rfl) spared
    by_cases asks : ∃ q, w.asks? p = some q ∧ q.channel = c
    · refine .ended (step.cut old own.looping asks) fun none => ?_
      obtain ⟨q, asks, here⟩ := asks
      exact absurd here ((unasked none).2 q asks)
    · have idle : ∀ q, w.asks? p = some q → q.channel ≠ c := fun q some here => asks ⟨q, some, here⟩
      have same := bus_pulse_other play h own.slot other idle
      have slot := (congrArg Bus.fade same).trans own.slot
      obtain ⟨g, here, id', -, spared'⟩ := (manned_pulse play h p).slots c f.id slot
      obtain ⟨f', among', same', -, todo, -⟩ := hands_other play below other here id'
      obtain rfl := h.eq_of_id among' among same'
      refine .runs g here id' spared' (fun q member => ?_) (took ▸ fits) ?_
      · rcases List.mem_append.mp member with member | member
        · exact none q member
        · exact idle q (Option.mem_toList.mp member)
      · rw [took, fadedOut, ← todo]
        exact acts

theorem faded_pulse (play : w.InPlay) (h : w.backstage.Manned) (below : id < w.nextFiber)
    (faded : w.backstage.Faded id c span asked) (p : Pulse) :
    (w.pulse p).backstage.Faded id c span (asked ++ (w.asks? p).toList) := by
  by_cases own : w.OwnTurn p id
  · obtain ⟨rfl, f, head, rfl⟩ := own
    obtain ⟨rest, ready⟩ := List.head?_eq_some_iff.mp head
    have role := faded.role f (mem_hands_of_ready ready) rfl
    rw [asks?_own h ready role, Option.toList_none, List.append_nil]
    exact faded_own play h ready faded
  · exact faded_other play h below own faded

/-! ### The frames that the fade takes -/

/-- The fiber took every frame from `start` up to its place. -/
def ReadsAll (w : World) (id start : Nat) : Prop :=
  ∃ n, start ≤ n ∧ n ≤ w.feed.count ∧ w.took id = (w.feed.frames.toList.take n).drop start ∧
    ∀ f ∈ w.hands, f.id = id → f.cursor = some ⟨n⟩

/-- Where the fiber waits, it waits for a frame, and it has taken all there are. -/
structure Waits (w : World) (id : Nat) : Prop where
  placed : ∀ f ∈ w.hands, f.id = id → ∃ cu, f.cursor = some cu
  caught : ∀ b ∈ w.blocked, b.fiber.id = id → b.wait = .frame ∧
    (∃ s rest, b.fiber.todo = .stride s :: rest) ∧
      ∀ cu, b.fiber.cursor = some cu → w.feed.count ≤ cu.taken

theorem readsAll_other (play : w.InPlay) {start : Nat} (below : id < w.nextFiber)
    (other : ¬ w.OwnTurn p id) (reads : w.ReadsAll id start) : (w.pulse p).ReadsAll id start := by
  obtain ⟨n, low, high, took, cursor⟩ := reads
  have grows := play.grows p
  refine ⟨n, low, Nat.le_trans high grows.count_le, ?_, fun f among same => ?_⟩
  · have still : (w.pulse p).took id = w.took id := tale_pulse play other
    obtain ⟨new, frames⟩ := grows.frames
    rw [still, frames, List.take_append_of_le_length (by rwa [Feed.length_frames])]
    exact took
  · obtain ⟨g, among', same', -, -, -, still⟩ := hands_other play below other among same
    exact still ▸ cursor g among' same'

theorem waits_other (play : w.InPlay) (below : id < w.nextFiber) (other : ¬ w.OwnTurn p id)
    (waits : w.Waits id) : (w.pulse p).Waits id := by
  refine ⟨fun f among same => ?_, fun b among same => ?_⟩
  · obtain ⟨g, among', same', -, -, -, still⟩ := hands_other play below other among same
    exact still ▸ waits.placed g among' same'
  · obtain ⟨b', among', same', wait, todo', cursor'⟩ := blocked_other play other among same
    obtain ⟨frame, ⟨s, rest, todo⟩, caught⟩ := waits.caught b' among' same'
    refine ⟨wait ▸ frame, ⟨s, rest, todo'.symm.trans todo⟩, fun cu placed => ?_⟩
    have still : ∀ delta keys, p ≠ .publish delta keys := by
      rintro delta keys rfl
      exact absurd (wait ▸ frame) (blocked_publish among)
    rw [Feed.count, play.frames still]
    exact caught cu (cursor'.trans placed)

/-- A fiber that is not behind takes the next frame. -/
theorem took_next {x : World} {start n missed : Nat} {fr : Frame} {cu : Cursor} (low : start ≤ n)
    (near : w.feed.count ≤ n + w.feed.depth)
    (took : w.took id = (w.feed.frames.toList.take n).drop start)
    (pulled : w.feed.pull ⟨n⟩ = .frame fr cu missed)
    (log : x.log = w.log ++ [⟨some id, .took fr⟩]) : cu = ⟨n + 1⟩ ∧ n + 1 ≤ w.feed.count ∧
      x.took id = (w.feed.frames.toList.take (n + 1)).drop start := by
  obtain ⟨found, past⟩ := Feed.pull_near near pulled
  obtain ⟨bound, -⟩ := Array.getElem?_eq_some_iff.mp found
  refine ⟨congrArg Cursor.mk past, bound, ?_⟩
  have took' : x.took id = w.took id ++ [fr] := by
    rw [← took_backstage, ← took_backstage]
    show tale _ _ x.log = _
    rw [log, tale_append, tale_own]
    rfl
  have length : start ≤ (w.feed.frames.toList.take n).length := by
    rw [List.length_take, Feed.length_frames]
    have high : n ≤ w.feed.count := Nat.le_of_succ_le bound
    omega
  rw [took', took, List.take_add_one, List.drop_append_of_le_length length, Array.getElem?_toList,
    found, Option.toList_some]

theorem readsAll_own (play : w.InPlay) (h : w.backstage.Manned) {rest : List Fiber}
    (ready : w.ready = f :: rest) (role : f.role = .fade c) {start : Nat}
    (near : ∀ cu, f.cursor = some cu → w.feed.count ≤ cu.taken + w.feed.depth)
    (reads : w.ReadsAll f.id start) : w.turn.ReadsAll f.id start := by
  have fresh := play.order.fresh_taken ready
  have order' : w.turn.InOrder := (play.pulse .turn).order
  obtain ⟨n, low, high, took, cursor⟩ := reads
  have placed := cursor f (mem_hands_of_ready ready) rfl
  have here : f.place w.feed .own = ⟨n⟩ := by
    rw [Fiber.place, Fiber.cursorOn, placed]
    rfl
  have still (log : w.turn.log = w.log) : w.turn.took f.id = w.took f.id := by
    rw [← took_backstage, ← took_backstage]
    exact congrArg (tale Deed.took? f.id) log
  have gone {m : Nat} (hands : w.turn.hands = (w.taken f rest).hands) :
      ∀ g ∈ w.turn.hands, g.id = f.id → g.cursor = some ⟨m⟩ := fun g among same =>
    absurd same (fresh g (hands ▸ among))
  have back {b : Backstage} {f' : Fiber} {m : Nat} (heq : w.turn.backstage = b.join f')
      (id : f'.id = f.id) (placed : f'.cursor = some ⟨m⟩) :
      ∀ g ∈ w.turn.hands, g.id = f.id → g.cursor = some ⟨m⟩ := fun g among same =>
    eq_of_join order' heq among (same.trans id.symm) ▸ placed
  unfold ReadsAll
  rw [play.feed_turn]
  cases doomed : f.doomed with
  | true =>
    have same := (manned_turn_doomed play.order h ready doomed).1
    have log : w.turn.log = w.log := congrArg Backstage.log same
    exact ⟨n, low, high, (still log).trans took, gone (congrArg Backstage.hands same)⟩
  | false =>
    cases turn_fade play.screened.sources_pos h ready role doomed with
    | goes step _ _ same =>
      have log : w.turn.log = _ := congrArg Backstage.log same
      cases step with
      | dims | due => exact ⟨n, low, high, (still log).trans took, back same rfl placed⟩
      | takes todo pulled =>
        obtain ⟨rfl, bound, took'⟩ := took_next low (near ⟨n⟩ placed) took (here ▸ pulled) log
        exact ⟨n + 1, Nat.le_succ_of_le low, bound, took', back same rfl rfl⟩
      | silences =>
        refine ⟨n, low, high, ?_, back same rfl placed⟩
        rw [← took, ← took_backstage, ← took_backstage]
        show tale _ _ w.turn.log = _
        rw [log]
        exact (took_write (w.taken f rest).backstage f.id _).trans (List.append_nil _)
    | waits _ _ _ _ same =>
      have log : w.turn.log = w.log := congrArg Backstage.log same
      exact ⟨n, low, high, (still log).trans took, back same rfl placed⟩
    | bursts _ pulled _ _ same =>
      obtain ⟨-, bound, took'⟩ :=
        took_next low (near ⟨n⟩ placed) took (here ▸ pulled) (congrArg Backstage.log same)
      exact ⟨n + 1, Nat.le_succ_of_le low, bound, took', gone (congrArg Backstage.hands same)⟩
    | ends _ _ same =>
      have log : w.turn.log = w.log := congrArg Backstage.log same
      exact ⟨n, low, high, (still log).trans took, gone (congrArg Backstage.hands same)⟩

theorem waits_own (play : w.InPlay) (h : w.backstage.Manned) (deep : 0 < w.feed.depth)
    {rest : List Fiber} (ready : w.ready = f :: rest) (role : f.role = .fade c)
    (waits : w.Waits f.id) : w.turn.Waits f.id := by
  have fresh := play.order.fresh_taken ready
  have order' : w.turn.InOrder := (play.pulse .turn).order
  obtain ⟨cu, placed⟩ := waits.placed f (mem_hands_of_ready ready) rfl
  have gone (hands : w.turn.hands = (w.taken f rest).hands) : w.turn.Waits f.id := by
    refine ⟨fun g among same => ?_, fun b among same => ?_⟩
    · exact absurd same (fresh g (hands ▸ among))
    · exact absurd same (fresh b.fiber (hands ▸ mem_hands_of_blocked among))
  have others {b : Parked} (among : b ∈ w.blocked) : b.fiber.id ≠ f.id :=
    fresh b.fiber (show _ ∈ (w.taken f rest).hands from mem_hands_of_blocked among)
  cases doomed : f.doomed with
  | true =>
    exact gone (congrArg Backstage.hands (manned_turn_doomed play.order h ready doomed).1)
  | false =>
    cases turn_fade play.screened.sources_pos h ready role doomed with
    | goes step _ blocked heq =>
      refine ⟨fun g among same => ?_, fun b among same => ?_⟩
      · obtain rfl := eq_of_join order' heq among (same.trans step.fields.1.symm)
        cases step with
        | dims | due | silences => exact ⟨cu, placed⟩
        | @takes _ _ _ cu' => exact ⟨cu', rfl⟩
      · rw [blocked] at among
        exact absurd same (others among)
    | @waits s todo pulled _ blocked heq =>
      refine ⟨fun g among same => ?_, fun b among same => ?_⟩
      · exact ⟨cu, eq_of_join order' heq among same ▸ placed⟩
      · rw [blocked] at among
        rcases List.mem_append.mp among with among | here
        · exact absurd same (others among)
        · obtain rfl := List.mem_singleton.mp here
          refine ⟨rfl, ⟨s, _, todo⟩, fun cu placed => ?_⟩
          have here : f.place w.feed .own = cu := by
            rw [Fiber.place, Fiber.cursorOn, placed]
            rfl
          rw [play.feed_turn]
          exact Feed.count_le_of_waiting deep (here ▸ pulled)
    | bursts _ _ _ _ heq => exact gone (congrArg Backstage.hands heq)
    | ends _ _ heq => exact gone (congrArg Backstage.hands heq)

/-! ### From the call on -/

/-- In this pulse a looping channel is asked to fade out, where fades have fibers of their own. -/
structure FadesOut (w : World) (p : Pulse) (c : Channel) (span : Span) : Prop where
  asks : w.asks? p = some (.fadeOut c span)
  looping : c.isLooping = true
  tasks : w.rig.tasks = true

theorem FadesOut.hands (starts : w.FadesOut p c span) (order : w.InOrder) :
    Fiber.start w.nextFiber (.fade c) (some w.feed.subscribe)
      [.sweep (.start .own (.volume c) span), .silence c] ∈ (w.pulse p).hands := by
  have joins (x : World) (mixed : x.rig.mixed = true) (tasks : x.rig.tasks = true) :
      Fiber.start x.nextFiber (.fade c) (some x.feed.subscribe)
        [.sweep (.start .own (.volume c) span), .silence c] ∈
          (x.fadeOut c span).1.backstage.hands := by
    rw [backstage_fadeOut, if_pos (by simp [mixed, starts.looping]), if_pos tasks]
    exact Multiset.mem_cons_self _ _
  cases p with
  | turn =>
    obtain ⟨f, rest, a, f', ready, request, mixed, -, same⟩ := turn_of_asks order starts.asks
    have hands : w.turn.hands = f' ::ₘ ((w.taken f rest).fadeOut c span).1.backstage.hands := by
      rw [← backstage_work_request _ request]
      exact congrArg Backstage.hands same
    show _ ∈ w.turn.hands
    rw [hands]
    exact Multiset.mem_cons_of_mem (joins (w.taken f rest) mixed starts.tasks)
  | publish | pass => cases starts.asks
  | host s brief =>
    obtain ⟨request, mixed⟩ := asks?_host starts.asks
    cases s with
    | fadeOut =>
      cases request
      exact joins w mixed starts.tasks
    | _ => cases request

/-- All that is known of a fade at every pulse after the call. -/
structure FadeTrack (w x : World) (c : Channel) (span : Span) (asked : List Request)
    (abreast : Prop) : Prop where
  manned : x.backstage.Manned
  below : w.nextFiber < x.nextFiber
  faded : x.backstage.Faded w.nextFiber c span asked
  waits : x.Waits w.nextFiber
  reads : abreast → x.ReadsAll w.nextFiber w.feed.count

theorem FadesOut.track {o : Opening} {before : List Pulse} {abreast : Prop}
    (starts : (o.world.pulses before).FadesOut p c span) :
    FadeTrack (o.world.pulses before) ((o.world.pulses before).pulse p) c span [] abreast := by
  have play := inPlay_pulses o before
  have manned := manned_pulse play (manned_pulses o before) p
  have young (α : Type) (g : Deed → Option α) := tale_young (g := g) o before (Nat.le_refl _)
  generalize o.world.pulses before = w at starts play manned young ⊢
  have member := starts.hands play.order
  have only : ∀ f ∈ (w.pulse p).hands, f.id = w.nextFiber → f = .start w.nextFiber (.fade c)
      (some w.feed.subscribe) [.sweep (.start .own (.volume c) span), .silence c] :=
    fun f among same => manned.eq_of_id among member same
  have other : ¬ w.OwnTurn p w.nextFiber := play.order.not_ownTurn_young
  have took : (w.pulse p).backstage.took w.nextFiber = [] := by
    rw [took_backstage]
    exact (tale_pulse play other).trans (young _ _)
  have told : (w.pulse p).backstage.fadedOut w.nextFiber = [] := by
    rw [fadedOut_backstage]
    exact (tale_pulse play other).trans (young _ _)
  refine ⟨manned, (play.pulse p).order.below_hands _ member, ⟨fun f among same => ?_, ?_, .inl told,
    .runs _ member rfl rfl (by simp) ?_ ?_⟩, ⟨fun f among same => ?_, fun b among same => ?_⟩,
    fun _ => ⟨w.feed.count, Nat.le_refl _, (play.grows p).count_le, ?_, fun f among same => ?_⟩⟩
  · rw [only f among same]
    rfl
  · rw [took]
    exact fun k bound => absurd bound (Nat.not_lt_zero k)
  · rw [took]
    exact Nat.mul_pos (Nat.two_pow_pos 64) (by decide)
  · rw [took, told]
    exact .sweeps rfl rfl
  · rw [only f among same]
    exact ⟨_, rfl⟩
  · exact absurd same (blocked_young play among)
  · rw [List.drop_take, Nat.sub_self, List.take_zero, ← took_backstage]
    exact took
  · rw [only f among same]
    rfl

theorem FadeTrack.pulse {x : World} {abreast abreast' : Prop}
    (track : FadeTrack w x c span asked abreast) (play : x.InPlay) (deep : 0 < x.feed.depth)
    (still : abreast' → abreast)
    (near : abreast' → ∀ f ∈ x.fibers, f.id = w.nextFiber → ∀ cu, f.cursor = some cu →
      x.feed.count ≤ cu.taken + x.feed.depth) (p : Pulse) :
    FadeTrack w (x.pulse p) c span (asked ++ (x.asks? p).toList) abreast' := by
  obtain ⟨manned, below, faded, waits, reads⟩ := track
  refine ⟨manned_pulse play manned p, Nat.lt_of_lt_of_le below (nextFiber_pulse play p),
    faded_pulse play manned below faded p, ?_, fun along => ?_⟩
  all_goals by_cases own : x.OwnTurn p w.nextFiber
  · obtain ⟨rfl, f, head, same⟩ := own
    obtain ⟨rest, ready⟩ := List.head?_eq_some_iff.mp head
    have role := faded.role f (mem_hands_of_ready ready) same
    rw [← same] at waits ⊢
    exact waits_own play manned deep ready role waits
  · exact waits_other play below own waits
  · obtain ⟨rfl, f, head, same⟩ := own
    obtain ⟨rest, ready⟩ := List.head?_eq_some_iff.mp head
    have among : f ∈ x.hands := mem_hands_of_ready ready
    have role := faded.role f among same
    have reads := reads (still along)
    have near := near along f (mem_hands.mp among) same
    rw [← same] at reads ⊢
    exact readsAll_own play manned ready role near reads
  · exact readsAll_other play below own (reads (still along))

theorem FadesOut.track_pulses {o : Opening} {before : List Pulse}
    (starts : (o.world.pulses before).FadesOut p c span) (after : List Pulse) :
    let w := o.world.pulses before
    FadeTrack w ((w.pulse p).pulses after) c span ((w.pulse p).asked after)
      ((w.pulse p).Abreast after w.nextFiber) := by
  intro w
  have play : w.InPlay := inPlay_pulses o before
  have deep : 0 < w.feed.depth := depth_pulses o before
  refine (play.pulse p).induction (P := fun ps x => FadeTrack w x c span ((w.pulse p).asked ps)
    ((w.pulse p).Abreast ps w.nextFiber)) starts.track (fun ps q play' track => ?_) after
  have same : ((w.pulse p).pulses ps).feed.depth = w.feed.depth :=
    ((play.grows p).trans ((play.pulse p).grows_pulses ps)).depth
  rw [asked_concat]
  exact track.pulse play' (same ▸ deep) Abreast.init
    (fun along => along ps (List.prefix_append ps [q])) q

/-! ### What a fade does -/

/-- What the fiber told of channels that faded out. -/
def fadedOut (w : World) (id : Nat) : List Channel := tale Deed.fadedOut? id w.entries

/-- The fade that was asked for in `w`, as it stands in `x`. -/
structure FadesOnce (w x : World) (c : Channel) (span : Span) (asked : List Request)
    (abreast : Prop) : Prop where
  /-- When the channel was asked for something else, the fade does nothing any more. -/
  superseded : (∃ q ∈ asked, q.channel = c) → ∀ f, x.ready.head? = some f → f.id = w.nextFiber →
    x.turn.mixer = x.mixer ∧ x.turn.log = x.log
  once : x.fadedOut w.nextFiber = [] ∨ x.fadedOut w.nextFiber = [c]
  /-- It fades out at the first frame that fills its span. -/
  first : x.fadedOut w.nextFiber = [c] → span ≤ totalDelta (x.took w.nextFiber) ∧
    Short span (x.took w.nextFiber) ∧ (abreast → x.took w.nextFiber <+: publishedSince w x)
  due : (∀ q ∈ asked, q.channel ≠ c) → abreast → (∀ f ∈ x.ready, f.id ≠ w.nextFiber) →
    (x.fadedOut w.nextFiber = [c] ↔ Fills span (publishedSince w x))
  leaves : (∀ q ∈ asked, q.channel ≠ c) → x.fadedOut w.nextFiber = [c] →
    (x.mixer.strips.get c).playing = false ∧
      (x.mixer.strips.get c).volume = Strip.fullVolume

theorem ReadsAll.in_order {x : World} (reads : x.ReadsAll id w.feed.count) :
    x.took id <+: publishedSince w x := by
  obtain ⟨n, -, -, took, -⟩ := reads
  rw [took, List.drop_take]
  exact List.take_prefix _ _

section

variable {x : World} {abreast : Prop}

/-- A fade that another request cut off has no slot, so it was told to stop. -/
theorem FadeTrack.superseded (track : FadeTrack w x c span asked abreast) (play : x.InPlay)
    (cut : ∃ q ∈ asked, q.channel = c) (head : x.ready.head? = some f) (same : f.id = w.nextFiber) :
    x.turn.mixer = x.mixer ∧ x.turn.log = x.log := by
  obtain ⟨rest, ready⟩ := List.head?_eq_some_iff.mp head
  have among : f ∈ x.hands := mem_hands_of_ready ready
  have lost : x.mixer.fades.get c ≠ some w.nextFiber := by
    cases track.faded.fate with
    | ended lost => exact lost
    | runs _ _ _ _ unasked =>
      obtain ⟨q, member, here⟩ := cut
      exact absurd here (unasked q member)
  have doomed : f.doomed = true := by
    by_contra spared
    have role := track.faded.role f among same
    have own := track.manned.fades f among c role (by simpa using spared)
    exact lost (same ▸ own.slot)
  have still := (manned_turn_doomed play.order track.manned ready doomed).1
  exact ⟨congrArg Backstage.mixer still, congrArg Backstage.log still⟩

/-- What the fiber told, by the frames that it took. -/
theorem FadeTrack.told (track : FadeTrack w x c span asked abreast) :
    x.fadedOut w.nextFiber = [] ∨ x.fadedOut w.nextFiber = [c] ∧
      span ≤ totalDelta (x.took w.nextFiber) ∧
        (totalDelta (x.took w.nextFiber)).nanos < Span.limit := by
  have told := track.faded.told
  rwa [took_backstage, fadedOut_backstage] at told

theorem FadeTrack.short (track : FadeTrack w x c span asked abreast) :
    Short span (x.took w.nextFiber) :=
  took_backstage x _ ▸ track.faded.short

/-- A fade that is not ready waits, and has taken every frame. -/
theorem FadeTrack.caught_up (track : FadeTrack w x c span asked abreast) (along : abreast)
    (settled : ∀ f ∈ x.ready, f.id ≠ w.nextFiber) (among : f ∈ x.hands)
    (same : f.id = w.nextFiber) :
    x.took w.nextFiber = publishedSince w x ∧ ∃ s rest, f.todo = .stride s :: rest := by
  have parked : ∃ b ∈ x.blocked, b.fiber = f := by
    rcases List.mem_append.mp (mem_hands.mp among) with ready | parked
    · exact absurd same (settled f ready)
    · exact List.mem_map.mp parked
  obtain ⟨b, parked, rfl⟩ := parked
  obtain ⟨-, strides, caught⟩ := track.waits.caught b parked same
  obtain ⟨n, low, high, took, cursor⟩ := track.reads along
  have here : x.feed.count ≤ n := caught _ (cursor _ among same)
  refine ⟨?_, strides⟩
  rw [took, publishedSince, List.take_of_length_le (by rw [Feed.length_frames]; exact here)]

theorem FadeTrack.due (track : FadeTrack w x c span asked abreast)
    (unasked : ∀ q ∈ asked, q.channel ≠ c) (along : abreast)
    (settled : ∀ f ∈ x.ready, f.id ≠ w.nextFiber) :
    x.fadedOut w.nextFiber = [c] ↔ Fills span (publishedSince w x) := by
  have first := (track.reads along).in_order
  cases track.faded.fate with
  | ended _ end' =>
    obtain ⟨fell, -⟩ := end' unasked
    rw [took_backstage, fadedOut_backstage] at fell
    obtain silent | ⟨all, full, fits⟩ := track.told
    · refine ⟨fun faded => ?_, fun fills => ?_⟩
      · rw [silent] at faded
        cases faded
      · exact absurd fills (not_fills_of_overflow first (fell silent) track.short)
    · exact ⟨fun _ => fills_of_prefix first full fits track.short, fun _ => all⟩
  | runs f among same spared _ fits acts =>
    obtain ⟨all, s, rest, todo⟩ := track.caught_up along settled among same
    rw [todo, took_backstage, fadedOut_backstage, all] at acts
    show tale Deed.fadedOut? _ _ = _ ↔ _
    generalize tale Deed.fadedOut? w.nextFiber x.entries = told at acts
    cases acts with
    | strides _ elapsed less =>
      refine ⟨fun none => absurd none.symm (List.cons_ne_nil c []), fun fills => ?_⟩
      rw [elapsed] at less
      exact absurd fills.le (Nat.not_le.mpr less)

theorem FadeTrack.leaves (track : FadeTrack w x c span asked abreast)
    (unasked : ∀ q ∈ asked, q.channel ≠ c) (faded : x.fadedOut w.nextFiber = [c]) :
    (x.mixer.strips.get c).playing = false ∧
      (x.mixer.strips.get c).volume = Strip.fullVolume := by
  have told : x.backstage.fadedOut w.nextFiber = [c] := (fadedOut_backstage _ _).trans faded
  cases track.faded.fate with
  | ended _ end' =>
    obtain ⟨-, full, still⟩ := (end' unasked).2 told
    exact ⟨still, full⟩
  | runs f among same spared _ _ acts =>
    rw [told] at acts
    have spent : f.todo = [] := by
      generalize f.todo = todo at acts
      cases acts
      rfl
    have role := track.faded.role f among same
    obtain ⟨full, still⟩ := (track.manned.fades f among c role spared).spent spent
    exact ⟨still, full⟩

theorem fadesOnce_of_track (track : FadeTrack w x c span asked abreast) (play : x.InPlay) :
    FadesOnce w x c span asked abreast where
  superseded cut _ head same := track.superseded play cut head same
  once := track.told.imp_right And.left
  first faded := by
    obtain silent | ⟨-, full, -⟩ := track.told
    · rw [silent] at faded
      cases faded
    · exact ⟨full, track.short, fun along => (track.reads along).in_order⟩
  due := track.due
  leaves := track.leaves

end

theorem pulses_cons_append (o : Opening) (before : List Pulse) (p : Pulse) (after : List Pulse) :
    ((o.world.pulses before).pulse p).pulses after = o.world.pulses (before ++ p :: after) :=
  (pulses_append o.world before (p :: after)).symm

/-- A clip that was asked for plays on, and so do those that were asked for later. -/
theorem plays_pulses (o : Opening) (before after : List Pulse) {clip : Clip} {pitch : Float32}
    (loops : c.isLooping = true)
    (asks : (o.world.pulses before).asks? p = some (.play c clip pitch)) :
    let w := o.world.pulses before
    (∀ q ∈ (w.pulse p).asked after, q.channel = c → ∃ clip pitch, q = .play c clip pitch) →
      (((w.pulse p).pulses after).backstage.bus c).Plays
        ((clip :: clipsOn c ((w.pulse p).asked after)).getLast?) := by
  intro w
  have manned (ps : List Pulse) : ((w.pulse p).pulses ps).backstage.Manned :=
    pulses_cons_append o before p ps ▸ manned_pulses o _
  have channel (ps : List Pulse) : (((w.pulse p).pulses ps).backstage.bus c).strip.channel = c :=
    pulses_cons_append o before p ps ▸ (tuned_pulses o _ c).channel
  have play : w.InPlay := inPlay_pulses o before
  refine (play.pulse p).induction (P := fun ps x =>
    (∀ q ∈ (w.pulse p).asked ps, q.channel = c → ∃ clip pitch, q = .play c clip pitch) →
      (x.backstage.bus c).Plays ((clip :: clipsOn c ((w.pulse p).asked ps)).getLast?))
    (fun _ => ?_) (fun ps q play' on plays => ?_) after
  · have step := bus_pulse play (manned_pulses o before) p c
    rw [show w.asks? p = some (.play c clip pitch) from asks] at step
    exact step.played (tuned_pulses o before c).channel loops
  · rw [asked_concat] at plays ⊢
    exact (bus_pulse play' (manned ps) q c).plays_on (channel ps) loops
      (fun r some => plays r (List.mem_append_right _ (Option.mem_toList.mpr some)))
      (on fun q member => plays q (List.mem_append_left _ member))

/-- A fade that something else cut off does nothing any more, and one that nothing cuts off fades out
once: at the first frame that fills its span, unless the sum of the frames overflows by then. A clip
that is asked for plays on at full volume until the channel is to stop or to fade. -/
theorem fades_act_once (o : Opening) (before after : List Pulse) (p : Pulse) (c : Channel) :
    let w := o.world.pulses before
    let x := (w.pulse p).pulses after
    let asked := (w.pulse p).asked after
    (∀ span, w.FadesOut p c span →
      FadesOnce w x c span asked ((w.pulse p).Abreast after w.nextFiber)) ∧
    (∀ clip pitch, c.isLooping = true → w.asks? p = some (.play c clip pitch) →
      (∀ q ∈ asked, q.channel = c → ∃ clip pitch, q = .play c clip pitch) →
        (x.backstage.bus c).Plays ((clip :: clipsOn c asked).getLast?)) := by
  intro w x asked
  have play : w.InPlay := inPlay_pulses o before
  refine ⟨fun span starts => ?_, fun clip pitch loops asks => plays_pulses o before after loops asks⟩
  exact fadesOnce_of_track (starts.track_pulses after) ((play.pulse p).pulses after)

theorem fades_act_once_theme :
    let o : Opening :=
      ⟨default, { (default : Rig) with mixed := true, tasks := true }, 8, default, default, []⟩
    let w := o.world.pulses [.host (.play .bgm ⟨"theme"⟩ 1) rfl]
    let p : Pulse := .host (.fadeOut .bgm ⟨3⟩) rfl
    let after : List Pulse :=
      .publish ⟨2⟩ .nothing :: .publish ⟨1⟩ .nothing :: List.replicate 7 .turn
    let x := (w.pulse p).pulses after
    w.FadesOut p .bgm ⟨3⟩ ∧ x.fadedOut w.nextFiber = [.bgm] ∧
      FadesOnce w x .bgm ⟨3⟩ ((w.pulse p).asked after) ((w.pulse p).Abreast after w.nextFiber) := by
  refine ⟨⟨rfl, rfl, rfl⟩, by decide +kernel, ?_⟩
  exact (fades_act_once _ _ _ _ _).1 _ ⟨rfl, rfl, rfl⟩

/-- Two frames whose deltas do not fit into one sum: nothing cut the fade off, it has taken every
frame, and its span is over, but it never faded out. -/
theorem fade_lost_to_overflow :
    let o : Opening :=
      ⟨default, { (default : Rig) with mixed := true, tasks := true }, 8, default, default, []⟩
    let w := o.world.pulses [.host (.play .bgm ⟨"theme"⟩ 1) rfl]
    let p : Pulse := .host (.fadeOut .bgm ⟨Span.limit - 1⟩) rfl
    let after : List Pulse := .publish ⟨Span.limit - Span.perSecond⟩ .nothing ::
      .publish ⟨Span.perSecond⟩ .nothing :: List.replicate 5 .turn
    let x := (w.pulse p).pulses after
    w.FadesOut p .bgm ⟨Span.limit - 1⟩ ∧ ((w.pulse p).asked after).isEmpty = true ∧
      x.fibers.isEmpty = true ∧ x.feed.count ≤ x.feed.depth ∧
      ⟨Span.limit - 1⟩ ≤ totalDelta (publishedSince w x) ∧ x.fadedOut w.nextFiber = [] := by
  refine ⟨⟨rfl, rfl, rfl⟩, ?_⟩
  decide +kernel

end World

end SceneScript
