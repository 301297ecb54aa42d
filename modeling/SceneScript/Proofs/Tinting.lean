import SceneScript.Proofs.Fades
import SceneScript.Proofs.Loops
import SceneScript.Proofs.Readings
import SceneScript.Proofs.Staging
/-!
Tweens. A command that tints an image or a portrait sets the texture, leaves a tween behind and is done
with that in the turns that follow on each other (`TakesUp.tints`). Whatever runs beside it, the tween
paints one colour before every frame since then, and the last colour when the frames fill its span
(`tweens_paint_alone`).
-/

namespace SceneScript

def Mark.call? : Mark → Option StageCall
  | .call c => some c
  | _ => none

/-- What a command does to a target on stage. -/
structure Tint where
  target : Target
  texture : Option Texture
  span : Span
  start : Color
  stop : Color

def Command.tint? : Command → Option Tint
  | image layer texture span start stop => some ⟨.image layer, texture, span, start, stop⟩
  | portrait place texture span start stop => some ⟨.portrait place, texture, span, start, stop⟩
  | _ => none

namespace Tint

def paint (t : Tint) : Paint := .tint t.target t.start t.stop

/-- The tween that a tint leaves behind. -/
def tween (t : Tint) (w : World) : Fiber :=
  .start w.nextFiber (.tween t.target w.scope) (some w.feed.subscribe) (t.paint.loop .own t.span)

/-- One colour before each of these frames, at the time that has passed by then, and the last one. -/
def calls (t : Tint) (frames : List Frame) : List StageCall :=
  ((List.range frames.length).map fun i => .setColor t.target
    (t.start.lerp t.stop ((totalDelta (frames.take i)).share t.span))) ++
      [StageCall.setColor t.target t.stop]

theorem calls_score (t : Tint) (frames : List Frame) :
    (t.paint.score t.span frames).filterMap Mark.call? = t.calls frames := by
  rw [Paint.filterMap_score _ _ _ _ fun _ => rfl, calls, List.map_eq_flatMap]
  rfl

end Tint

theorem Command.acts_of_tint {c : Command} {t : Tint} (tints : c.tint? = some t) (settings : Settings)
    (page : Page) : c.acts settings page =
      (t.texture.toList.map fun x => .stage (.setTexture t.target x)) ++
        [.tween t.target t.span t.start t.stop] := by
  cases c with
  | image | portrait =>
    obtain rfl := Option.some.inj tints
    rfl
  | _ => cases tints

namespace World

variable {w : World} {f g : Fiber} {r : Run} {c : Command} {rest : List Fiber} {t : Tint} {id : Nat}

/-- A run at the head of the queue does what comes next. -/
theorem turn_run {a : Act} {after : List Act} (ready : w.ready = f :: rest) (role : f.role = .run r)
    (spared : f.doomed = false) (fault : f.fault = none) (todo : f.todo = a :: after) :
    w.turn = { (w.taken f rest).perform { f with todo := after } a with actor := none } :=
  turn_going ready spared (by rw [isCancelled, role]) fault todo

/-- The turn in which a run comes to a command. -/
theorem TakesUp.turn_eq (h : w.TakesUp f r c) (ready : w.ready = f :: rest) (actor : w.actor = none) :
    w.turn = { w with
      state := w.state.enter r.pointer c
      ready := f.enters r c w.settings :: rest
      chronicle := (w.chronicle.push ⟨some f.id, .remark (.dispatching r.pointer c.opcode)⟩).push
        ⟨some f.id, .event (.stepped r.pointer c.opcode)⟩ } := by
  have going : (w.taken f rest).isCancelled f = false := by rw [isCancelled, h.role]
  rw [turn_cons ready, advance, if_neg (by simp [h.spared]), if_neg (by simp [going]), h.todo, h.fault]
  dsimp only
  rw [fetch, h.role]
  dsimp only
  rw [h.found, actor]
  rfl

theorem turn_texture {after : List Act} {call : StageCall} (ready : w.ready = f :: rest)
    (role : f.role = .run r) (spared : f.doomed = false) (fault : f.fault = none)
    (todo : f.todo = .stage call :: after) (actor : w.actor = none) :
    w.turn = { w with
      ready := { f with todo := after } :: rest
      chronicle := w.chronicle.push ⟨some f.id, .stage call⟩ } := by
  rw [turn_run ready role spared fault todo, actor]
  rfl

/-- The turns from the command to its last act: in between the run sets the texture, if there is one. -/
theorem TakesUp.dresses (h : w.TakesUp f r c) (tints : c.tint? = some t) (ready : w.ready = f :: rest)
    (actor : w.actor = none) : w.turns (t.texture.toList.length + 1) =
      { w with
        state := w.state.enter r.pointer c
        ready := { f.enters r c w.settings with
          todo := [.tween t.target t.span t.start t.stop] } :: rest
        chronicle := ((w.chronicle.push ⟨some f.id, .remark (.dispatching r.pointer c.opcode)⟩).push
          ⟨some f.id, .event (.stepped r.pointer c.opcode)⟩) ++
            (t.texture.toList.map fun x => ⟨some f.id, .stage (.setTexture t.target x)⟩).toArray } := by
  have acts : (f.enters r c w.settings).todo = _ := Command.acts_of_tint tints w.settings r.page
  have entered := h.turn_eq ready actor
  have ready' : w.turn.ready = f.enters r c w.settings :: rest := by rw [entered]
  have actor' : w.turn.actor = none := by
    rw [entered]
    exact actor
  rw [turns_succ]
  cases texture : t.texture with
  | none =>
    rw [texture] at acts
    have acts : (f.enters r c w.settings).todo = [.tween t.target t.span t.start t.stop] := acts
    rw [entered, ← acts]
    simp [turns]
  | some x =>
    rw [texture] at acts
    show World.turns 1 _ = _
    rw [turns_succ, turn_texture ready' rfl h.spared h.fault acts actor', entered]
    simp [turns, Fiber.enters]

/-- In the turn to come the run leaves the tween behind. -/
structure LeavesTween (w : World) (g : Fiber) (t : Tint) : Prop where
  ready : w.ready.head? = some g
  isRun : g.isRun = true
  spared : g.doomed = false
  fault : g.fault = none
  todo : g.todo = [.tween t.target t.span t.start t.stop]

theorem LeavesTween.turn_eq (h : w.LeavesTween g t) (ready : w.ready = g :: rest)
    (actor : w.actor = none) : w.turn = { w with
      nextFiber := w.nextFiber + 1
      ready := { g with todo := [] } :: (rest ++ [t.tween w]) } := by
  obtain ⟨r, role⟩ := g.isRun_iff.mp h.isRun
  rw [turn_run ready role h.spared h.fault h.todo, actor]
  rfl

/-- What a tint makes of the world in the turns that it takes, and its run is still the next one. -/
theorem TakesUp.tints (h : w.TakesUp f r c) (tints : c.tint? = some t) (ready : w.ready = f :: rest)
    (actor : w.actor = none) :
    (w.turns (t.texture.toList.length + 1)).LeavesTween { f.enters r c w.settings with
        todo := [.tween t.target t.span t.start t.stop] } t ∧
      w.turns (t.texture.toList.length + 2) =
        { w with
          state := w.state.enter r.pointer c
          nextFiber := w.nextFiber + 1
          ready := { f.enters r c w.settings with todo := [] } :: (rest ++ [t.tween w])
          chronicle := ((w.chronicle.push ⟨some f.id, .remark (.dispatching r.pointer c.opcode)⟩).push
            ⟨some f.id, .event (.stepped r.pointer c.opcode)⟩) ++
              (t.texture.toList.map fun x => ⟨some f.id, .stage (.setTexture t.target x)⟩).toArray } := by
  have dressed := h.dresses tints ready actor
  have leaves : (w.turns (t.texture.toList.length + 1)).LeavesTween { f.enters r c w.settings with
      todo := [.tween t.target t.span t.start t.stop] } t := by
    rw [dressed]
    exact ⟨rfl, rfl, h.spared, h.fault, rfl⟩
  refine ⟨leaves, ?_⟩
  have last : w.turns (t.texture.toList.length + 2) =
      (w.turns (t.texture.toList.length + 1)).turn := by
    rw [← pulses_turns, List.replicate_succ', pulses_concat, pulses_turns]
    rfl
  rw [last, leaves.turn_eq (by rw [dressed]) (by rw [dressed]; exact actor), dressed]
  rfl

/-! ### The last turn of a fiber in the background -/

/-- The fiber has nothing left to do, or nothing more is wanted of it, or its time overflows. -/
def Ends (w : World) (f : Fiber) : Prop :=
  f.todo = [] ∨ w.isCancelled f = true ∨ w.Overflows f

theorem keeps_burst {s : Sweep} {fr : Frame} {c : Cursor} {missed : Nat}
    (pulled : w.feed.pull (f.place w.feed s.lane) = .frame fr c missed) (overflow : s.take? fr = none) :
    Keeps False w (w.performStride f s) := by
  have pulled : w.feed.pull ((f.cursorOn s.lane).getD w.feed.subscribe) = .frame fr c missed := pulled
  rw [performStride, takeFrame, pulled]
  simp only [overflow]
  have kept : Keeps False w ((w.lagged missed).record (.took fr)) :=
    (keeps_lagged w missed).trans (keeps_record _ _ fun _ => rfl)
  exact kept.trans (keeps_conclude_any _ _ _)

theorem keeps_ends (idle : f.run? = none) (fault : f.fault = none) (ends : w.Ends f) :
    Keeps False w (w.advance f) ∧ w.turnCalls f = [] := by
  have silent : f.partingCalls = [] := partingCalls_of_run?_eq_none idle
  unfold advance turnCalls
  cases f.doomed with
  | true => exact ⟨keeps_conclude_any w f _, silent⟩
  | false =>
    cases cancelled : w.isCancelled f with
    | true =>
      refine ⟨?_, rfl⟩
      show Keeps False w (w.noteCancelled f)
      unfold noteCancelled
      split
      · exact keeps_remark _ _
      · exact .refl w
    | false =>
      have other (r : Run) : f.role ≠ .run r := fun role => by simp [Fiber.run?, role] at idle
      rcases ends with todo | raised | ⟨s, after, fr, c, missed, todo, pulled, overflow⟩
      · have done : w.fetch f = w.conclude f .completed := by
          unfold fetch
          split
          · exact absurd ‹_› (other _)
          · rfl
        have none : f.fetchCalls = [] := by
          unfold Fiber.fetchCalls
          split
          · exact absurd ‹_› (other _)
          · rfl
        rw [todo, fault, nextCalls, todo, fault]
        exact ⟨done ▸ keeps_conclude_any w f _, none⟩
      · rw [cancelled] at raised
        cases raised
      · rw [todo, fault, nextCalls, todo, fault]
        refine ⟨keeps_burst pulled overflow, ?_⟩
        show (if w.bursts _ s then f.partingCalls else []) = []
        rw [silent, ite_self]

theorem gone_of_ends (order : w.InOrder) (ready : w.ready = f :: rest) (idle : f.run? = none)
    (fault : f.fault = none) (ends : w.Ends f) :
    (∀ g ∈ w.turn.crew, g.id ≠ f.id) ∧ w.turn.calls f.id = w.calls f.id := by
  obtain ⟨-, fresh, below⟩ := order.crewed.taken ready
  have ends : (w.taken f rest).Ends f := ends
  obtain ⟨kept, silent⟩ := keeps_ends idle fault ends
  refine ⟨fun g among same => ?_, ?_⟩
  · rw [turn_cons ready] at among
    exact fresh_of_keeps kept fresh below (List.mem_map.mpr ⟨g, among, same⟩)
  · rw [calls_turn order ready, silent, List.append_nil]

/-- Whoever is gone makes no calls any more. -/
theorem calls_of_gone (play : w.InPlay) (below : id < w.nextFiber)
    (gone : ∀ g ∈ w.crew, g.id ≠ id) (ps : List Pulse) : (w.pulses ps).calls id = w.calls id := by
  obtain ⟨es, grown, own⟩ := (play.later ps).entries
  rw [calls, grown]
  refine tale_append_none fun e among author => ?_
  rcases own e among id author with young | ⟨g, member, same, -⟩
  · omega
  · exact absurd same (gone g member)

theorem calls_of_ends (play : w.InPlay) (ready : w.ready = f :: rest) (idle : f.run? = none)
    (fault : f.fault = none) (ends : w.Ends f) (ps : List Pulse) :
    (w.turn.pulses ps).calls f.id = w.calls f.id := by
  obtain ⟨gone, same⟩ := gone_of_ends play.order ready idle fault ends
  have below : f.id < w.nextFiber := play.order.below_hands f (mem_hands_of_ready ready)
  have later : f.id < w.turn.nextFiber := Nat.lt_of_lt_of_le below (nextFiber_pulse play .turn)
  exact (calls_of_gone (play.pulse .turn) later gone ps).trans same

/-- Whoever has nothing left to do makes no calls any more. -/
theorem calls_of_spent (play : w.InPlay) (among : f ∈ w.hands) (idle : f.run? = none)
    (fault : f.fault = none) (todo : f.todo = []) (ps : List Pulse) :
    (w.pulses ps).calls f.id = w.calls f.id := by
  induction ps generalizing w f with
  | nil => rfl
  | cons p ps ih =>
    by_cases own : w.OwnTurn p f.id
    · obtain ⟨rfl, g, head, same⟩ := own
      obtain ⟨rest, ready⟩ := List.head?_eq_some_iff.mp head
      obtain rfl := play.order.eq_of_hands (mem_hands_of_ready ready) among same
      exact calls_of_ends play ready idle fault (.inl todo) ps
    · obtain ⟨g, among', calm⟩ := mem_hands_pulse play among own
      have id : g.id = f.id := Fiber.eq_of_calm calm Fiber.id fun _ => rfl
      have later := ih (play.pulse p) among' ((congrArg Fiber.run? calm).trans idle)
        ((congrArg Fiber.fault calm).trans fault) ((congrArg Fiber.todo calm).trans todo)
      rw [id] at later
      exact later.trans (tale_pulse play own)

/-! ### Calls and marks -/

theorem calls_pulse (play : w.InPlay) (id : Nat) (p : Pulse) :
    (w.pulse p).calls id = w.calls id ++ (w.marksIn id p).filterMap Mark.call? := by
  by_cases own : w.OwnTurn p id
  · obtain ⟨rfl, f, head, rfl⟩ := own
    obtain ⟨rest, ready⟩ := List.head?_eq_some_iff.mp head
    obtain ⟨es, grown, author⟩ := entries_turn play.order ready
    have told : tale Deed.stage? f.id es = es.filterMap (·.deed.stage?) :=
      List.filterMap_congr fun e among => if_pos (author e among)
    have silent : w.levels.filterMap Mark.call? = [] := by
      unfold levels Sweep.levels
      split
      · split
        · split
          · rename_i paint _
            rw [paint]
            rfl
          · rfl
        · rfl
      · rfl
    have calls : (es.filterMap (·.deed.mark?)).filterMap Mark.call? = es.filterMap (·.deed.stage?) := by
      rw [List.filterMap_filterMap]
      refine List.filterMap_congr fun e _ => ?_
      cases e.deed <;> rfl
    rw [marksIn_turn ready grown, List.filterMap_append, silent, calls, ← told]
    show w.turn.calls f.id = _
    rw [World.calls, World.calls, grown, tale_append]
    rfl
  · rw [marksIn_other own]
    exact (tale_pulse play own).trans (List.append_nil _).symm

theorem calls_pulses (play : w.InPlay) (id : Nat) (ps : List Pulse) :
    (w.pulses ps).calls id = w.calls id ++ (w.marks id ps).filterMap Mark.call? := by
  induction ps generalizing w with
  | nil => exact (List.append_nil _).symm
  | cons p ps ih =>
    rw [marks, List.filterMap_append, ← List.append_assoc, ← calls_pulse play]
    exact ih (play.pulse p)

/-! ### What the tween paints -/

/-- A tween that has not had its first turn. -/
structure NewTween (w : World) (g : Fiber) (t : Tint) (scope : Nat) (place : Cursor) : Prop where
  reached : ∃ (o : Opening) (before : List Pulse), o.world.pulses before = w
  among : g ∈ w.hands
  role : g.role = .tween t.target scope
  fault : g.fault = none
  todo : g.todo = t.paint.loop .own t.span ++ []
  stands : g.cursorOn .own = some place
  silent : w.calls g.id = []

theorem LeavesTween.newTween (o : Opening) (before : List Pulse)
    (leaves : (o.world.pulses before).LeavesTween g t) :
    (o.world.pulses (before ++ [Pulse.turn])).NewTween (t.tween (o.world.pulses before)) t
      (o.world.pulses before).scope (o.world.pulses before).feed.subscribe := by
  obtain ⟨rest, ready⟩ := List.head?_eq_some_iff.mp leaves.ready
  have turned := leaves.turn_eq ready (inPlay_pulses o before).order.actor
  have next : o.world.pulses (before ++ [Pulse.turn]) = (o.world.pulses before).turn :=
    pulses_concat ..
  refine ⟨⟨o, _, rfl⟩, ?_, rfl, rfl, (List.append_nil _).symm, rfl, ?_⟩
  · rw [next, turned]
    exact mem_hands.mpr (by simp [fibers])
  · rw [next, turned]
    exact tale_young o before (Nat.le_refl _)

section

variable {scope k : Nat} {place : Cursor} {ps pre : List Pulse} {left : List Act} {stream : List Frame}
  {h : Fiber}

namespace NewTween

theorem inPlay (new : w.NewTween g t scope place) : w.InPlay := by
  obtain ⟨o, before, rfl⟩ := new.reached
  exact inPlay_pulses o before

theorem rendered (new : w.NewTween g t scope place) (ps : List Pulse) :
    w.Rendered g (t.paint.loop .own t.span) [] ps :=
  rendered_pulses new.inPlay new.among new.fault new.todo (t.paint.isSolo_loop .own t.span) ps

theorem calls_eq (new : w.NewTween g t scope place) (ps : List Pulse) :
    (w.pulses ps).calls g.id = (w.marks g.id ps).filterMap Mark.call? := by
  rw [calls_pulses new.inPlay, new.silent, List.nil_append]

theorem run?_eq_none (new : w.NewTween g t scope place)
    (comes : w.ComesTo g (t.paint.loop .own t.span) [] pre h left) : h.run? = none := by
  rw [Fiber.run?, comes.role, new.role]

/-- A tween is never told to stop but through its scope. -/
theorem lets (new : w.NewTween g t scope place)
    (comes : w.ComesTo g (t.paint.loop .own t.span) [] pre h left) :
    h.doomed = false ∧
      ((w.pulses pre).isCancelled h = true → (w.pulses pre).flags.isRaised scope = true) := by
  have role : h.role = .tween t.target scope := comes.role.trans new.role
  refine ⟨Bool.eq_false_iff.mpr fun doomed => ?_, isRaised_of_isCancelled role⟩
  have manned : (w.pulses pre).backstage.Manned := by
    obtain ⟨o, before, rfl⟩ := new.reached
    rw [← pulses_append]
    exact manned_pulses o _
  have falls := manned.fallen h comes.among doomed
  rw [role] at falls
  cases falls

/-- When the tween has done its last act, it has made all its calls. -/
theorem calls_of_over (new : w.NewTween g t scope place) (early : pre <+: ps)
    (comes : w.ComesTo g (t.paint.loop .own t.span) [] pre h []) :
    (w.pulses ps).calls g.id = (w.marks g.id pre).filterMap Mark.call? := by
  obtain ⟨post, rfl⟩ := early
  rw [← new.calls_eq, pulses_append, ← comes.id]
  exact calls_of_spent (new.inPlay.pulses pre) comes.among (new.run?_eq_none comes) comes.fault
    comes.todo post

/-- So it has when it is cut short. -/
theorem calls_of_cut (new : w.NewTween g t scope place) (early : pre ++ [Pulse.turn] <+: ps)
    (comes : w.ComesTo g (t.paint.loop .own t.span) [] pre h left)
    (head : (w.pulses pre).ready.head? = some h)
    (why : h.doomed = true ∨ (w.pulses pre).isCancelled h = true ∨ (w.pulses pre).Overflows h) :
    (w.pulses ps).calls g.id = (w.marks g.id pre).filterMap Mark.call? := by
  obtain ⟨post, rfl⟩ := early
  obtain ⟨rest, ready⟩ := List.head?_eq_some_iff.mp head
  have ends : (w.pulses pre).Ends h := by
    refine .inr (why.resolve_left fun doomed => ?_)
    rw [(new.lets comes).1] at doomed
    cases doomed
  rw [← new.calls_eq, List.append_assoc, pulses_append, ← comes.id]
  exact calls_of_ends (new.inPlay.pulses pre) ready (new.run?_eq_none comes) comes.fault ends post

theorem taken (new : w.NewTween g t scope place) (keeps : w.KeepsUp .own ps g.id) (early : pre <+: ps)
    (comes : w.ComesTo g (t.paint.loop .own t.span) [] pre h left) :
    framesOf (w.marks g.id pre) <+: (w.pulses ps).feed.since place :=
  (comes.follows .own place (t.paint.readOn_loop .own t.span) new.stands
    (keeps.of_prefix early)).isPrefix.trans (grown_since new.inPlay early)

theorem begins (new : w.NewTween g t scope place) (keeps : w.KeepsUp .own ps g.id)
    (longer : (w.pulses ps).feed.since place <+: stream)
    (least : IsLeast {k | t.span ≤ totalDelta (stream.take k)} k) :
    (w.pulses ps).calls g.id <+: t.calls (stream.take k) := by
  have painted {pre : List Pulse} {h : Fiber} {left : List Act} (early : pre <+: ps)
      (comes : w.ComesTo g (t.paint.loop .own t.span) [] pre h left) :
      (w.marks g.id pre).filterMap Mark.call? <+: t.calls (stream.take k) := by
    obtain ⟨more, k', sounds⟩ := comes.passage.carried_on (t.paint.isSolo_loop .own t.span)
    obtain ⟨frames, lasts, marks, -⟩ := sounds.loop
    rw [← t.calls_score]
    exact (Paint.prefix_score ⟨more, marks⟩ lasts (lasts_take least)
      ((new.taken keeps early comes).trans longer) (List.take_prefix k stream)).filterMap Mark.call?
  cases new.rendered ps with
  | under h due comes =>
    rw [new.calls_eq]
    exact painted (List.prefix_refl ps) comes
  | ended h early comes =>
    rw [new.calls_of_over early comes]
    exact painted early comes
  | cut h early due comes head why =>
    rw [new.calls_of_cut early comes head why]
    exact painted ((List.prefix_append _ [.turn]).trans early) comes

/-- In the middle of its way a tween that waits has not seen enough frames. -/
theorem short_of_rest (new : w.NewTween g t scope place) (keeps : w.KeepsUp .own pre g.id)
    (rest : (w.pulses pre).ready = []) (due : left ≠ [])
    (comes : w.ComesTo g (t.paint.loop .own t.span) [] pre h left) :
    totalDelta ((w.pulses pre).feed.since place) < t.span := by
  obtain ⟨b, parked, same⟩ := parked_of_rest rest comes.among
  have halted : (w.pulses pre).Halted := by
    obtain ⟨o, before, rfl⟩ := new.reached
    rw [← pulses_append]
    exact halted_pulses o _
  obtain ⟨-, ⟨fr, more, k, sounds⟩, caught⟩ :=
    comes.parked (halted b parked) same due (t.paint.isSolo_loop .own t.span)
  rw [← caught .own place (t.paint.readOn_loop .own t.span) new.stands keeps]
  exact lt_of_under sounds.loop

theorem whole (new : w.NewTween g t scope place) (keeps : w.KeepsUp .own ps g.id)
    (longer : (w.pulses ps).feed.since place <+: stream)
    (least : IsLeast {k | t.span ≤ totalDelta (stream.take k)} k)
    (fits : (totalDelta (stream.take k)).nanos < Span.limit) (early : pre <+: ps)
    (rest : (w.pulses pre).ready = []) (lowered : (w.pulses pre).flags.isRaised scope = false)
    (much : k ≤ ((w.pulses pre).feed.since place).length) :
    (w.pulses ps).calls g.id = t.calls (stream.take k) := by
  have first : stream.take k <+: stream := List.take_prefix k stream
  have within : (w.pulses pre).feed.since place <+: stream :=
    (grown_since new.inPlay early).trans longer
  cases new.rendered pre with
  | under h due comes =>
    have all : stream.take k <+: (w.pulses pre).feed.since place :=
      List.prefix_of_prefix_length_le first within ((List.length_take_le k stream).trans much)
    have short := new.short_of_rest (keeps.of_prefix early) rest due comes
    exact absurd (Nat.le_trans least.1 (totalDelta_le all.sublist)) (Nat.not_le.mpr short)
  | ended h soon comes =>
    obtain ⟨frames, lasts, marks, -⟩ := comes.passage.whole.loop
    have taken := (new.taken keeps (soon.trans early) comes).trans longer
    rw [marks, Paint.framesOf_score] at taken
    rw [new.calls_of_over (soon.trans early) comes, marks, t.calls_score,
      lasts.eq (lasts_take least) taken first]
  | @cut h before _ soon due comes head why =>
    have soon : before <+: pre := (List.prefix_append before [.turn]).trans soon
    obtain ⟨spared, going⟩ := new.lets comes
    rcases why with doomed | cancelled | overflows
    · rw [spared] at doomed
      cases doomed
    · obtain ⟨post, rfl⟩ := soon
      have grown := ((new.inPlay.pulses before).later post).stirs.grows
      rw [pulses_append, Bool.eq_false_iff] at lowered
      exact absurd (grown.2 _ (going cancelled)) lowered
    · obtain ⟨fr, next, short, bursts⟩ := bursts_of_loop comes due new.stands
        (keeps.of_prefix (soon.trans early)) overflows
      have next := (next.trans (grown_since new.inPlay soon)).trans within
      -- It would need the frame, so the frame is one of the least number that fills the span.
      have needed : framesOf (w.marks g.id before) ++ [fr] <+: stream.take k := by
        rcases List.prefix_or_prefix_of_prefix next first with needed | more
        · exact needed
        rcases List.prefix_concat_iff.mp more with same | more
        · rw [same]
        · exact absurd (Nat.le_trans least.1 (totalDelta_le more.sublist)) (Nat.not_le.mpr short)
      have much := Nat.le_trans bursts (totalDelta_le needed.sublist)
      exact absurd fits (Nat.not_lt.mpr much)

end NewTween

end

/-- From its place on the tween paints what the frames ask for, whatever else is done. -/
structure Paints (w : World) (id scope : Nat) (place : Cursor) (t : Tint) (after : List Pulse) :
    Prop where
  begins : ∀ stream k, (w.pulses after).feed.since place <+: stream →
    IsLeast {k | t.span ≤ totalDelta (stream.take k)} k →
    (w.pulses after).calls id <+: t.calls (stream.take k)
  /-- It has painted all of it once everybody waits for more than these frames, unless its scope was
  cancelled by then. -/
  whole : ∀ stream k, (w.pulses after).feed.since place <+: stream →
    IsLeast {k | t.span ≤ totalDelta (stream.take k)} k →
    (totalDelta (stream.take k)).nanos < Span.limit →
    ∀ pre, pre <+: after → (w.pulses pre).ready = [] → (w.pulses pre).flags.isRaised scope = false →
    k ≤ ((w.pulses pre).feed.since place).length → (w.pulses after).calls id = t.calls (stream.take k)

/-- A command that tints sets the texture, if there is one, leaves a tween behind, and is done with
that in turns that follow on each other. Whatever runs beside the tween, it paints one colour before
every frame published since it was left behind, and the last colour at the first frame that fills the
span. -/
theorem tweens_paint_alone (o : Opening) (before between after : List Pulse)
    (starts : (o.world.pulses before).TakesUp f r c) (tints : c.tint? = some t) :
    let w := o.world.pulses before
    let v := w.pulses between
    (∃ rest, w.ready = f :: rest ∧
      (w.turns (t.texture.toList.length + 1)).LeavesTween { f.enters r c w.settings with
        todo := [.tween t.target t.span t.start t.stop] } t ∧
      w.turns (t.texture.toList.length + 2) = { w with
        state := w.state.enter r.pointer c
        nextFiber := w.nextFiber + 1
        ready := { f.enters r c w.settings with todo := [] } :: (rest ++ [t.tween w])
        chronicle := ((w.chronicle.push ⟨some f.id, .remark (.dispatching r.pointer c.opcode)⟩).push
          ⟨some f.id, .event (.stepped r.pointer c.opcode)⟩) ++
            (t.texture.toList.map fun x => ⟨some f.id, .stage (.setTexture t.target x)⟩).toArray }) ∧
    ∀ g, v.LeavesTween g t → v.turn.KeepsUp .own after v.nextFiber →
      v.turn.Paints v.nextFiber v.scope v.feed.subscribe t after := by
  intro w v
  obtain ⟨rest, ready⟩ := List.head?_eq_some_iff.mp starts.ready
  refine ⟨⟨rest, ready, starts.tints tints ready (inPlay_pulses o before).order.actor⟩,
    fun g leaves keeps => ?_⟩
  have here : o.world.pulses (before ++ between) = v := pulses_append ..
  have next : o.world.pulses (before ++ between ++ [Pulse.turn]) = v.turn := by
    rw [pulses_concat, here]
    rfl
  have new := LeavesTween.newTween o (before ++ between) (here ▸ leaves)
  rw [next, here] at new
  exact ⟨fun stream k => new.begins keeps, fun stream k longer least fits pre early rest lowered =>
    new.whole keeps longer least fits early rest lowered⟩

/-- Two tints run side by side. The first one needs two frames, and a third one does not matter. -/
theorem tweens_paint_alone_beside :
    let o : Opening := ⟨default, default, 8, default, .empty,
      [[.image 1 (some ⟨"sky"⟩) ⟨3⟩ .transparent .black, .portrait .left none ⟨9⟩ .black .white]]⟩
    let before : List Pulse := [.host (.execute 0) rfl]
    let between : List Pulse := List.replicate 2 Pulse.turn
    let t : Tint := ⟨.image 1, some ⟨"sky"⟩, ⟨3⟩, .transparent, .black⟩
    let v := (o.world.pulses before).pulses between
    let a : Frame := ⟨1, ⟨2⟩, .nothing⟩
    let b : Frame := ⟨2, ⟨2⟩, .nothing⟩
    let after := [Pulse.publish ⟨2⟩ .nothing, .publish ⟨2⟩ .nothing, .publish ⟨1⟩ .nothing] ++
      List.replicate 24 Pulse.turn
    ∃ f r, (o.world.pulses before).TakesUp f r (.image 1 (some ⟨"sky"⟩) ⟨3⟩ .transparent .black) ∧
      ∃ g, v.LeavesTween g t ∧ v.nextFiber = 1 ∧ v.feed.subscribe = ⟨0⟩ ∧
        (v.turn.pulses after).calls 1 = t.calls [a, b] := by
  intro o before between t v a b after
  obtain ⟨r, role⟩ : ∃ r, ((o.world.pulses before).ready.headD default).role = .run r := ⟨_, rfl⟩
  have starts : (o.world.pulses before).TakesUp ((o.world.pulses before).ready.headD default) r
      (.image 1 (some ⟨"sky"⟩) ⟨3⟩ .transparent .black) := by
    refine ⟨rfl, role, rfl, rfl, rfl, ?_⟩
    cases role
    rfl
  have leaves : v.LeavesTween (v.ready.headD default) t := ⟨rfl, rfl, rfl, rfl, rfl⟩
  have keeps : v.turn.KeepsUp .own after 1 := keepsUp_of_isEarly (by decide +kernel)
  have rest : (v.turn.pulses after).ready = [] := List.isEmpty_iff.mp (by decide +kernel)
  have lasts : Lasts t.span [a, b] := by decide
  let stream := (v.turn.pulses after).feed.since ⟨0⟩
  have first : [a, b] <+: stream := by decide +kernel
  have paints := (tweens_paint_alone o before between after starts rfl).2 _ leaves keeps
  have painted := paints.whole stream 2 (List.prefix_refl _) (lasts.isLeast first) (by decide +kernel)
    after (List.prefix_refl _) rest (by decide +kernel) first.length_le
  exact ⟨_, r, starts, _, leaves, rfl, rfl,
    painted.trans (congrArg t.calls (List.prefix_iff_eq_take.mp first).symm)⟩

/-- Where the time of the tween overflows, it never comes to its last colour, though the frames fill
its span, everybody waits and nobody cancelled it. -/
theorem tween_lost_to_overflow :
    let span : Span := ⟨Span.limit - 1⟩
    let o : Opening := ⟨default, default, 8, default, .empty, [[.image 1 none span .transparent .black]]⟩
    let before : List Pulse := [.host (.execute 0) rfl]
    let t : Tint := ⟨.image 1, none, span, .transparent, .black⟩
    let v := (o.world.pulses before).turn
    let after := List.replicate 5 Pulse.turn ++
      [Pulse.publish ⟨Span.limit - 1000000000⟩ .nothing] ++ List.replicate 3 Pulse.turn ++
      [Pulse.publish ⟨1000000000⟩ .nothing] ++ List.replicate 3 Pulse.turn
    let x := v.turn.pulses after
    let stream := x.feed.since ⟨0⟩
    (∃ f r, (o.world.pulses before).TakesUp f r (.image 1 none span .transparent .black)) ∧
      (∃ g, v.LeavesTween g t) ∧ v.nextFiber = 1 ∧ v.feed.subscribe = ⟨0⟩ ∧
      v.turn.KeepsUp .own after 1 ∧ IsLeast {k | span ≤ totalDelta (stream.take k)} 2 ∧
      x.ready = [] ∧ x.flags.isRaised v.scope = false ∧ stream.length = 2 ∧
      x.calls 1 ≠ t.calls (stream.take 2) := by
  intro span o before t v after x stream
  obtain ⟨r, role⟩ : ∃ r, ((o.world.pulses before).ready.headD default).role = .run r := ⟨_, rfl⟩
  have starts : (o.world.pulses before).TakesUp ((o.world.pulses before).ready.headD default) r
      (.image 1 none span .transparent .black) := by
    refine ⟨rfl, role, rfl, rfl, rfl, ?_⟩
    cases role
    rfl
  have leaves : v.LeavesTween (v.ready.headD default) t := ⟨rfl, rfl, rfl, rfl, rfl⟩
  have keeps : v.turn.KeepsUp .own after 1 := keepsUp_of_isEarly (by decide +kernel)
  have rest : x.ready = [] := List.isEmpty_iff.mp (by decide +kernel)
  have lasts : Lasts span (stream.take 2) := by decide +kernel
  have length : stream.length = 2 := by decide +kernel
  have least := lasts.isLeast (List.take_prefix 2 stream)
  rw [List.length_take, length] at least
  refine ⟨⟨_, r, starts⟩, ⟨_, leaves⟩, rfl, rfl, keeps, least, rest, by decide +kernel, length, ?_⟩
  have two : (x.calls 1).length = 2 := by decide +kernel
  have three : (t.calls (stream.take 2)).length = 3 := by simp [Tint.calls, length]
  intro same
  rw [same, three] at two
  cases two

end World

end SceneScript
