import SceneScript.Proofs.Passage
import SceneScript.Proofs.Phrases
import SceneScript.Proofs.Stream
/-!
Loops over a span. The wait, the tint, the fade of the board and the fade of a channel are one loop
with four ways to paint, and the wait of a bare feed agrees with them (`Feed.waitFor_ready`): each
takes the least number of frames whose deltas fill the span (`loops_take_least`).
-/

namespace SceneScript

/-! ### A bare feed -/

namespace Feed

variable {feed : Feed} {c : Cursor} {span : Span} {frames : List Frame} {fr : Frame}

/-- A reader that is not too far behind takes the next frame. -/
theorem pull_next (near : feed.count ≤ c.taken + feed.depth)
    (next : feed.frames[c.taken]? = some fr) : feed.pull c = .frame fr ⟨c.taken + 1⟩ 0 := by
  have here : max c.taken (feed.frames.size - feed.depth) = c.taken := by
    unfold count at near
    omega
  unfold pull
  simp only [here, next, Nat.sub_self]

theorem pollFor_ready {n : Nat} {elapsed : Span} (pressed : Keys) (enough : frames.length < n)
    (near : feed.count ≤ c.taken + feed.depth) (first : frames <+: feed.since c)
    (short : ∀ j < frames.length, elapsed + totalDelta (frames.take j) < span)
    (full : span ≤ elapsed + totalDelta frames)
    (fits : (elapsed + totalDelta frames).nanos < Span.limit) :
    feed.pollFor span n elapsed pressed c = .ready (pressed.through frames)
      ⟨c.taken + frames.length⟩ := by
  induction frames generalizing n elapsed pressed c with
  | nil =>
    have spent : ¬ elapsed < span := by
      have full : span.nanos ≤ elapsed.nanos + 0 := full
      show ¬ elapsed.nanos < span.nanos
      omega
    unfold pollFor
    rw [if_neg spent]
    rfl
  | cons fr frames ih =>
    have along := add_totalDelta_cons elapsed fr
    have going : elapsed < span := by
      have less := short 0 (by simp)
      exact less
    have added : elapsed.add? fr.delta = some (elapsed + fr.delta) := by
      rw [← along] at fits
      have fits : elapsed.nanos + fr.delta.nanos + (totalDelta frames).nanos < Span.limit := fits
      exact if_pos (by omega)
    have next : feed.frames[c.taken]? = some fr := by
      obtain ⟨rest, all⟩ := first
      have head := congrArg (·[0]?) all
      rw [← Array.getElem?_toList]
      simpa [since] using head.symm
    have later : frames <+: feed.since ⟨c.taken + 1⟩ := by
      obtain ⟨rest, all⟩ := first
      refine ⟨rest, ?_⟩
      rw [since, ← List.drop_drop, ← since, ← all]
      rfl
    obtain ⟨n, rfl⟩ : ∃ m, n = m + 1 := ⟨n - 1, by omega⟩
    have rest := ih (pressed.merge fr.keys) (by simpa using enough)
      (by dsimp only; omega) later (fun j bound => ?_) (along frames ▸ full) (along frames ▸ fits)
    · rw [pollFor, if_pos going, pull_next near next]
      simp only [added]
      rw [rest, List.length_cons, Nat.add_assoc, Nat.add_comm 1]
      rfl
    · rw [along, ← List.take_succ_cons]
      exact short (j + 1) (by simpa using bound)

/-- The wait of a bare feed takes the shortest run of frames that fills the span, and gives back all
that was pressed in them. -/
theorem waitFor_ready (near : feed.count ≤ c.taken + feed.depth) (first : frames <+: feed.since c)
    (lasts : Lasts span frames) (fits : (totalDelta frames).nanos < Span.limit) :
    feed.waitFor span c = .ready (.pressedIn frames) ⟨c.taken + frames.length⟩ := by
  have whole (taken : List Frame) : Span.zero + totalDelta taken = totalDelta taken :=
    congrArg Span.mk (Nat.zero_add _)
  have enough : frames.length < feed.ahead c + 1 := by
    have le := first.length_le
    rw [since, List.length_drop, length_frames] at le
    unfold ahead
    omega
  rw [waitFor, pollFor_ready .nothing enough near first, Keys.nothing_through]
  · intro j bound
    rw [whole]
    exact lasts.1 j bound
  · rw [whole]
    exact lasts.2
  · rw [whole]
    exact fits

end Feed

/-! ### Strokes one by one -/

/-- What there is of a loop, apart from its frames: a sample at the time before each of them, and the
end. -/
theorem Paint.filterMap_score {α : Type} (p : Paint) (span : Span) (frames : List Frame)
    (g : Mark → Option α) (blind : ∀ fr, g (.frame fr) = none) : (p.score span frames).filterMap g =
      ((List.range frames.length).flatMap fun i =>
        (p.marks ((totalDelta (frames.take i)).share span)).filterMap g) ++ p.close.filterMap g := by
  have strokes (elapsed : Span) : (p.strokes span elapsed frames).filterMap g =
      (List.range frames.length).flatMap fun i =>
        (p.marks ((elapsed + totalDelta (frames.take i)).share span)).filterMap g := by
    induction frames generalizing elapsed with
    | nil => rfl
    | cons fr frames ih =>
      rw [List.length_cons, List.range_succ_eq_map, List.flatMap_cons, List.flatMap_map, strokes,
        List.filterMap_append, List.filterMap_cons_none (blind fr), ih]
      simp only [add_totalDelta_cons]
      rfl
  have whole (taken : List Frame) : Span.zero + totalDelta taken = totalDelta taken :=
    congrArg Span.mk (Nat.zero_add _)
  rw [score, List.filterMap_append, strokes]
  simp only [whole]

/-! ### A loop that is under way -/

/-- What is left to do of a loop when it has taken these frames. -/
inductive Paint.Left (p : Paint) (lane : Lane) (span : Span) (taken : List Frame) :
    List Act → Prop where
  | sweeps {s : Sweep} : s.lane = lane → s.span = span → s.elapsed = totalDelta taken →
      Left p lane span taken (.sweep s :: p.coda)
  | strides {s : Sweep} : s.lane = lane → s.span = span → s.elapsed = totalDelta taken →
      Left p lane span taken (.stride s :: p.coda)
  | stops : Left p lane span taken p.coda
  | ended : Left p lane span taken []

section

variable {settings : Settings} {p : Paint} {lane : Lane} {span : Span} {k k' k'' : Keys}
  {taken : List Frame} {acts acts' : List Act} {ms : List Mark}

theorem Paint.Left.stroke (h : p.Left lane span taken acts)
    (stroke : Stroke settings acts k ms acts' k') :
    p.Left lane span (taken ++ framesOf ms) acts' := by
  have ends {acts : List Act} (all : acts = p.coda) (stroke : Stroke settings acts k ms acts' k') :
      p.Left lane span (taken ++ framesOf ms) acts' := by
    cases p with
    | volume c =>
      subst all
      cases stroke
      exact .ended
    | _ => exact absurd all stroke.ne_nil
  cases h with
  | sweeps same whole elapsed =>
    cases stroke with
    | samples =>
      rw [Paint.framesOf_marks, List.append_nil]
      exact .strides same whole elapsed
    | lands => exact .stops
  | @strides s same whole elapsed =>
    cases stroke with
    | takes s fr =>
      refine .sweeps same whole ?_
      show s.elapsed + fr.delta = totalDelta (taken ++ [fr])
      rw [elapsed]
      exact congrArg Span.mk (totalDelta_concat taken fr).symm
  | stops => exact ends rfl stroke
  | ended => exact absurd rfl stroke.ne_nil

theorem Paint.Left.stride {s : Sweep} (h : p.Left lane span taken (.stride s :: acts)) :
    s.lane = lane ∧ s.elapsed = totalDelta taken := by
  generalize all : Act.stride s :: acts = todo at h
  cases h with
  | sweeps | ended => cases all
  | strides same _ elapsed =>
    obtain ⟨one, -⟩ := List.cons.inj all
    obtain rfl := Act.stride.inj one
    exact ⟨same, elapsed⟩
  | stops => cases p <;> cases all

theorem Paint.left_of_passage (h : Passage settings (p.loop lane span) k ms acts k') :
    p.Left lane span (framesOf ms) acts := by
  induction h with
  | begins => exact .sweeps rfl rfl rfl
  | goes _ stroke ih =>
    rw [framesOf_append]
    exact ih.stroke stroke

theorem Paint.readOn_loop (p : Paint) (lane : Lane) (span : Span) :
    ReadOn lane (p.loop lane span) := by
  intro a among l takes
  rcases List.mem_cons.mp among with rfl | later
  · exact (Option.some.inj takes).symm
  · cases p with
    | volume c =>
      obtain rfl := List.mem_singleton.mp later
      cases takes
    | _ => cases later

/-- Of two beginnings the one with fewer frames ends before the next frame. -/
theorem prefix_of_framesOf {ms more : List Mark} {fr : Frame} {rest : List Mark}
    (first : ms <+: more ++ .frame fr :: rest) (same : framesOf ms = framesOf more) : ms <+: more := by
  have next : more ++ [Mark.frame fr] <+: more ++ .frame fr :: rest :=
    (List.prefix_append_right_inj _).mpr ⟨rest, rfl⟩
  have longer : ¬ more ++ [Mark.frame fr] <+: ms := fun within => by
    have le := (within.filterMap Mark.frame?).length_le
    rw [← framesOf, ← framesOf, same, framesOf_append, List.length_append] at le
    exact absurd le (by simp [framesOf, Mark.frame?])
  rcases List.prefix_or_prefix_of_prefix first next with within | within
  · rcases List.prefix_concat_iff.mp within with rfl | within
    · exact absurd (List.prefix_refl _) longer
    · exact within
  · exact absurd within longer

/-- What a loop has left so far says nothing about frames that it has not taken. -/
theorem Paint.prefix_score {frames frames' stream : List Frame} (first : ms <+: p.score span frames)
    (lasts : Lasts span frames) (lasts' : Lasts span frames') (taken : framesOf ms <+: stream)
    (first' : frames' <+: stream) : ms <+: p.score span frames' := by
  have own : framesOf ms <+: frames := by
    have within := first.filterMap Mark.frame?
    rwa [← framesOf, ← framesOf, framesOf_score] at within
  obtain ⟨rest, rfl⟩ := own
  cases rest with
  | nil =>
    rw [List.append_nil] at first lasts
    rwa [← lasts.eq lasts' taken first']
  | cons fr rest =>
    have less : totalDelta (framesOf ms) < span :=
      lasts.lt_of_prefix ((List.prefix_append_right_inj _).mpr ⟨rest, rfl⟩)
    obtain ⟨fr', rest', rfl⟩ : ∃ fr' rest', frames' = framesOf ms ++ fr' :: rest' := by
      have short : ¬ frames' <+: framesOf ms := fun within =>
        absurd (Nat.le_trans lasts'.2 (totalDelta_le within.sublist)) (Nat.not_le.mpr less)
      obtain ⟨rest', rfl⟩ := (List.prefix_or_prefix_of_prefix taken first').resolve_right short
      cases rest' with
      | nil => exact absurd ⟨[], by simp⟩ short
      | cons fr' rest' => exact ⟨fr', rest', rfl⟩
    have early (fr : Frame) (rest : List Frame) : ∃ more, p.score span (framesOf ms ++ fr :: rest) =
        (p.strokes span .zero (framesOf ms) ++
          p.marks ((Span.zero + totalDelta (framesOf ms)).share span)) ++ .frame fr :: more := by
      refine ⟨p.strokes span (.zero + totalDelta (framesOf ms) + fr.delta) rest ++ p.close, ?_⟩
      rw [score, strokes_append, strokes]
      simp only [List.append_assoc, List.cons_append]
    obtain ⟨more, all⟩ := early fr rest
    obtain ⟨more', all'⟩ := early fr' rest'
    rw [all']
    refine (prefix_of_framesOf (all ▸ first) ?_).trans (List.prefix_append _ _)
    rw [framesOf_append, framesOf_strokes, framesOf_marks, List.append_nil]

end

namespace World

variable {w : World} {f g : Fiber} {lane : Lane} {c : Cursor} {ps pre : List Pulse} {p : Paint}
  {span : Span} {acts left : List Act}

/-- A loop that is under way has taken less than it needs. -/
theorem lt_of_under {heard k : Keys} {fr : Frame} {ms more : List Mark}
    (runs : p.Runs span heard (ms ++ .frame fr :: more) k) : totalDelta (framesOf ms) < span := by
  obtain ⟨frames, lasts, marks, -⟩ := runs
  have first : framesOf ms ++ [fr] <+: frames := by
    rw [← p.framesOf_score span frames, ← marks, framesOf_append]
    exact (List.prefix_append_right_inj _).mpr ⟨framesOf more, rfl⟩
  exact lasts.lt_of_prefix first

/-- The time of a loop overflows with a frame that it still needs. -/
theorem bursts_of_loop (comes : w.ComesTo f (p.loop lane span) acts pre g left) (due : left ≠ [])
    (stands : f.cursorOn lane = some c) (keeps : w.KeepsUp lane pre f.id)
    (overflows : (w.pulses pre).Overflows g) :
    ∃ fr, framesOf (w.marks f.id pre) ++ [fr] <+: (w.pulses pre).feed.since c ∧
      totalDelta (framesOf (w.marks f.id pre)) < span ∧
      Span.limit ≤ (totalDelta (framesOf (w.marks f.id pre) ++ [fr])).nanos := by
  obtain ⟨s, after, fr, c', missed, todo, pulled, overflow⟩ := overflows
  obtain ⟨a, left, rfl⟩ := List.exists_cons_of_ne_nil due
  rw [comes.todo] at todo
  obtain ⟨rfl, -⟩ := List.cons.inj todo
  obtain ⟨rfl, elapsed⟩ := (Paint.left_of_passage comes.passage).stride
  have follows := comes.follows _ c (p.readOn_loop _ span) stands keeps
  have near : (w.pulses pre).feed.count ≤ c.taken + (framesOf (w.marks f.id pre)).length +
      (w.pulses pre).feed.depth :=
    keeps pre (List.prefix_refl pre) g (mem_hands.mp comes.among) comes.id _ follows.place
  have next : Follows (w.pulses pre).feed (g.setCursor s.lane c') s.lane c
      (framesOf (w.marks f.id pre) ++ [fr]) := by
    refine follows.takes near pulled ?_
    cases s.lane <;> rfl
  have solo := comes.passage.isSolo (p.isSolo_loop s.lane span)
  obtain ⟨more, k, rest⟩ := exists_sounds w.settings solo g.pressed
  obtain ⟨fr', more, rfl⟩ := rest.frame_of_suspends rfl rfl
  exact ⟨fr, next.isPrefix, lt_of_under (comes.passage.sounds rest).loop,
    Sweep.overflows overflow elapsed⟩

/-- Where the time of the loop overflows, so do the frames from its place on. -/
theorem overflows_of_loop (comes : w.ComesTo f (p.loop lane span) acts pre g left) (due : left ≠ [])
    (stands : f.cursorOn lane = some c) (keeps : w.KeepsUp lane pre f.id)
    (overflows : (w.pulses pre).Overflows g) :
    Span.limit ≤ (totalDelta ((w.pulses pre).feed.since c)).nanos := by
  obtain ⟨fr, first, -, much⟩ := bursts_of_loop comes due stands keeps overflows
  exact Nat.le_trans much (totalDelta_le first.sublist)

/-- A loop over a span takes the frames that follow its place, one after the other. If they can fill the
span, then once everybody waits it has taken the least number that does, and has left one stroke
before each of them and one at the end. The wait of a bare feed takes just as many. -/
theorem loops_take_least (o : Opening) (before after : List Pulse)
    (among : f ∈ (o.world.pulses before).hands) (fault : f.fault = none)
    (todo : f.todo = p.loop lane span ++ acts) (stands : f.cursorOn lane = some c) :
    let w := o.world.pulses before
    let x := w.pulses after
    let stream := x.feed.since c
    w.Performed f lane c (p.Runs span f.pressed) acts after ∧
      (x.ready = [] → w.Unstopped after f.id → w.KeepsUp lane after f.id →
        span ≤ totalDelta stream → (totalDelta stream).nanos < Span.limit →
        ∃ pre g k, pre <+: after ∧ w.Becomes f lane c pre g ∧ g.todo = acts ∧ k ≤ stream.length ∧
          IsLeast {k | span ≤ totalDelta (stream.take k)} k ∧ (k = 0 ↔ span = .zero) ∧
          w.marks f.id pre = p.score span (stream.take k) ∧
          g.pressed = f.pressed.merge (.pressedIn (stream.take k)) ∧
          (p ≠ .nothing → (w.marks f.id pre).countP (·.frame?.isNone) = k + 1)) ∧
      ∀ (feed : Feed) (c : Cursor) (frames : List Frame), feed.count ≤ c.taken + feed.depth →
        frames <+: feed.since c → Lasts span frames → (totalDelta frames).nanos < Span.limit →
        feed.waitFor span c = .ready (.pressedIn frames) ⟨c.taken + frames.length⟩ := by
  intro w x stream
  have solo := p.isSolo_loop lane span
  have read := p.readOn_loop lane span
  have whole (ms : List Mark) (k : Keys) (h : Sounds w.settings (p.loop lane span) f.pressed ms k) :
      p.Runs span f.pressed ms k := h.loop
  refine ⟨performed_pulses o before after among fault todo solo read stands whole, ?_,
    fun feed c frames near first lasts fits => Feed.waitFor_ready near first lasts fits⟩
  intro rest unstopped keeps full fits
  have play : w.InPlay := inPlay_pulses o before
  have grown {pre : List Pulse} (early : pre <+: after) : (w.pulses pre).feed.since c <+: stream :=
    grown_since play early
  cases rendered_pulses play among fault todo solo after with
  | under g due comes =>
    -- Whoever waits in the middle has seen all the frames, and they would be enough.
    obtain ⟨b, parked, same⟩ := parked_of_rest rest comes.among
    have halted : x.Halted := by
      have all := halted_pulses o (before ++ after)
      rwa [pulses_append] at all
    obtain ⟨-, ⟨fr, more, k, sounds⟩, taken⟩ := comes.parked (halted b parked) same due solo
    have less := lt_of_under (whole _ _ sounds)
    rw [taken lane c read stands keeps] at less
    exact absurd full (Nat.not_le.mpr less)
  | @ended g pre early comes =>
    have follows := comes.follows lane c read stands (keeps.of_prefix early)
    obtain ⟨frames, lasts, marks, heard⟩ := whole _ _ comes.passage.whole
    have taken : framesOf (w.marks f.id pre) = frames := by rw [marks, Paint.framesOf_score]
    have first : frames <+: stream := taken ▸ follows.isPrefix.trans (grown early)
    have same : stream.take frames.length = frames := (List.prefix_iff_eq_take.mp first).symm
    have least := lasts.isLeast first
    have none : frames.length = 0 ↔ span = .zero :=
      List.length_eq_zero_iff.trans lasts.eq_nil_iff
    refine ⟨pre, g, frames.length, early, comes.becomes read stands, comes.todo, first.length_le, least,
      none, ?_, ?_, fun loud => ?_⟩
    · rw [same, marks]
    · rw [same, heard]
    · rw [marks, Paint.countP_score loud]
  | @cut g pre left early due comes head why =>
    have before : pre <+: after := (List.prefix_append pre [.turn]).trans early
    obtain ⟨spared, going⟩ := unstopped pre before g (mem_hands.mp comes.among) comes.id
    rcases why with doomed | cancelled | overflows
    · rw [spared] at doomed
      cases doomed
    · rw [going] at cancelled
      cases cancelled
    · have much := overflows_of_loop comes due stands (keeps.of_prefix before) overflows
      have within := totalDelta_le (grown before).sublist
      exact absurd (Nat.lt_of_le_of_lt (Nat.le_trans much within) fits) (Nat.lt_irrefl _)

/-- A tint over two frames. -/
theorem loops_take_least_tint :
    let o : Opening := ⟨default, default, 8, default, .empty, [[.image 1 none ⟨3⟩ .transparent .black]]⟩
    let w := o.world.pulses [.host (.execute 0) rfl, .turn, .turn, .turn]
    let after := List.replicate 3 .turn ++ [.publish ⟨2⟩ ⟨false, true⟩] ++ List.replicate 3 .turn ++
      [.publish ⟨2⟩ ⟨false, false⟩] ++ List.replicate 4 .turn
    let p := Paint.tint (.image 1) .transparent .black
    let stream := (w.pulses after).feed.since ⟨0⟩
    ∃ f ∈ w.hands, f.fault = none ∧ f.todo = p.loop .own ⟨3⟩ ++ [] ∧ f.cursorOn .own = some ⟨0⟩ ∧
      ∃ pre g k, pre <+: after ∧ w.Becomes f .own ⟨0⟩ pre g ∧ g.todo = [] ∧
        IsLeast {k | (⟨3⟩ : Span) ≤ totalDelta (stream.take k)} k ∧
        w.marks f.id pre = p.score ⟨3⟩ (stream.take k) := by
  intro o w after p stream
  have tinted : (w.ready.headD default) ∈ w.hands := mem_hands_of_ready rfl
  have unstopped : w.Unstopped after (w.ready.headD default).id :=
    unstopped_of_isCalm (by decide +kernel)
  have keeps : w.KeepsUp .own after (w.ready.headD default).id :=
    keepsUp_of_isEarly (by decide +kernel)
  have todo : (w.ready.headD default).todo = p.loop .own ⟨3⟩ ++ [] := rfl
  have stands : (w.ready.headD default).cursorOn .own = some ⟨0⟩ := rfl
  have rest : (w.pulses after).ready = [] := List.isEmpty_iff.mp (by decide +kernel)
  have loop := loops_take_least o [.host (.execute 0) rfl, .turn, .turn, .turn] after tinted rfl todo stands
  obtain ⟨pre, g, k, early, becomes, ended, -, least, -, marks, -⟩ :=
    loop.2.1 rest unstopped keeps (by decide +kernel) (by decide +kernel)
  exact ⟨_, tinted, rfl, todo, stands, pre, g, k, early, becomes, ended, least, marks⟩

end World

end SceneScript
