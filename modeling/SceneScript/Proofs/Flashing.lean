import SceneScript.Proofs.Blends
import SceneScript.Proofs.Pages
import SceneScript.Proofs.Readings
/-!
Flashes. From the turn in which a run comes to a flash, it tints the overlay up to the peak, holds it,
and takes it down again, each for the shortest run of frames that fills its part of the time. Only
after the last tint it comes to another command (`flashes_rise_and_fall`).
-/

namespace SceneScript

/-- What a flash leaves over these frames: the way up to the peak, nothing in the hold, and the way down
to nothing. -/
def flashMarks (color : Color) (span : Span) (up held down : List Frame) : List Mark :=
  (Paint.tint .flash .transparent color).strokes span.half .zero up ++
    .call (.setColor .flash color) :: (held.map .frame ++
      ((Paint.tint .flash color .transparent).strokes (span.without span.half) .zero down ++
        [.call (.setColor .flash .transparent)]))

/-- What a whole flash leaves. Each part takes the shortest run of frames that fills it. -/
def Flashes (color : Color) (span hold : Span) (ms : List Mark) : Prop :=
  ∃ up held down, Lasts span.half up ∧ Lasts hold held ∧ Lasts (span.without span.half) down ∧
    ms = flashMarks color span up held down

section

variable {settings : Settings} {color : Color} {span hold : Span} {k k' : Keys} {ms ms' : List Mark}
  {up held down : List Frame}

/-- What acts leave one after the other. -/
theorem Sounds.split {first later : List Act} (h : Sounds settings (first ++ later) k ms k') :
    ∃ ms₁ k₁ ms₂, Sounds settings first k ms₁ k₁ ∧ Sounds settings later k₁ ms₂ k' ∧
      ms = ms₁ ++ ms₂ := by
  induction first generalizing k ms with
  | nil => exact ⟨[], k, ms, .nil k, h, rfl⟩
  | cons a first ih =>
    cases h with
    | cons own rest =>
      obtain ⟨ms₁, k₁, ms₂, before, after, rfl⟩ := ih rest
      exact ⟨_, k₁, ms₂, .cons own before, after, (List.append_assoc ..).symm⟩

theorem flashActs_eq (color : Color) (span hold : Span) : Command.flashActs color span hold =
    (Paint.tint .flash .transparent color).loop .own span.half ++ (Paint.nothing.loop .own hold ++
      (Paint.tint .flash color .transparent).loop .own (span.without span.half)) := rfl

theorem isSolo_flashActs (color : Color) (span hold : Span) :
    ∀ a ∈ Command.flashActs color span hold, a.isSolo = true := by
  simp [Command.flashActs, Act.isSolo]

theorem readOn_flashActs (color : Color) (span hold : Span) :
    ReadOn .own (Command.flashActs color span hold) := by
  intro a among lane takes
  simp only [Command.flashActs, List.mem_cons, List.not_mem_nil, or_false] at among
  rcases among with rfl | rfl | rfl <;> exact (Option.some.inj takes).symm

theorem Sounds.flashes (h : Sounds settings (Command.flashActs color span hold) k ms k') :
    Flashes color span hold ms := by
  rw [flashActs_eq] at h
  obtain ⟨_, _, _, rises, later, rfl⟩ := h.split
  obtain ⟨_, _, _, holds, falls, rfl⟩ := later.split
  obtain ⟨up, fillsUp, rfl, -⟩ := rises.loop
  obtain ⟨held, fills, rfl, -⟩ := holds.loop
  obtain ⟨down, fillsDown, rfl, -⟩ := falls.loop
  refine ⟨up, held, down, fillsUp, fills, fillsDown, ?_⟩
  rw [Paint.score_nothing]
  exact List.append_assoc ..

theorem framesOf_flashMarks : framesOf (flashMarks color span up held down) =
    up ++ (held ++ down) := by
  have peak (ms : List Mark) : framesOf (.call (.setColor .flash color) :: ms) = framesOf ms := rfl
  rw [flashMarks, framesOf_append, peak, framesOf_append, framesOf_append, framesOf_frames,
    Paint.framesOf_strokes, Paint.framesOf_strokes]
  exact congrArg (fun last => up ++ (held ++ last)) (List.append_nil down)

theorem Lasts.eq_and_eq {span : Span} {frames frames' rest rest' stream : List Frame}
    (h : Lasts span frames) (h' : Lasts span frames') (first : frames ++ rest <+: stream)
    (first' : frames' ++ rest' <+: stream) :
    frames = frames' ∧ ∃ later, rest <+: later ∧ rest' <+: later := by
  obtain rfl : frames = frames' := h.eq h' ((List.prefix_append _ _).trans first)
    ((List.prefix_append _ _).trans first')
  obtain ⟨more, rfl⟩ := first
  rw [List.append_assoc] at first'
  exact ⟨rfl, rest ++ more, List.prefix_append _ _, (List.prefix_append_right_inj _).mp first'⟩

/-- The frames leave a flash no choice. -/
theorem Flashes.eq (h : Flashes color span hold ms) (h' : Flashes color span hold ms')
    (first : framesOf ms <+: framesOf ms') : ms = ms' := by
  obtain ⟨up, held, down, fillsUp, fills, fillsDown, rfl⟩ := h
  obtain ⟨up', held', down', fillsUp', fills', fillsDown', rfl⟩ := h'
  rw [framesOf_flashMarks, framesOf_flashMarks] at first
  obtain ⟨rfl, later, first, first'⟩ := fillsUp.eq_and_eq fillsUp' first (List.prefix_refl _)
  obtain ⟨rfl, last, first, first'⟩ := fills.eq_and_eq fills' first first'
  rw [fillsDown.eq fillsDown' first first']

theorem mem_strokes_tint {target : Target} {start stop : Color} {span elapsed : Span}
    {frames : List Frame} {m : Mark}
    (among : m ∈ (Paint.tint target start stop).strokes span elapsed frames) :
    (∃ fr, m = .frame fr) ∨ ∃ c, m = .call (.setColor target c) := by
  induction frames generalizing elapsed with
  | nil => cases among
  | cons fr frames ih =>
    rcases List.mem_cons.mp among with rfl | among
    · exact .inr ⟨_, rfl⟩
    rcases List.mem_cons.mp among with rfl | among
    · exact .inl ⟨fr, rfl⟩
    · exact ih among

/-- Nothing but the overlay is painted. -/
theorem Flashes.overlay (h : Flashes color span hold ms) {m : Mark} (among : m ∈ ms) :
    (∃ fr, m = .frame fr) ∨ ∃ c, m = .call (.setColor .flash c) := by
  obtain ⟨up, held, down, -, -, -, rfl⟩ := h
  rcases List.mem_append.mp among with rise | among
  · exact mem_strokes_tint rise
  rcases List.mem_cons.mp among with peak | among
  · exact .inr ⟨_, peak⟩
  rcases List.mem_append.mp among with hold | among
  · obtain ⟨fr, -, rfl⟩ := List.mem_map.mp hold
    exact .inl ⟨fr, rfl⟩
  rcases List.mem_append.mp among with fall | last
  · exact mem_strokes_tint fall
  · exact .inr ⟨_, List.mem_singleton.mp last⟩

/-- The way down of a flash that takes time starts at the peak. -/
theorem strokes_start (some : span ≠ .zero) (fills : Lasts (span.without span.half) down) :
    ∃ c more, (Paint.tint .flash color .transparent).strokes (span.without span.half) .zero down =
      .call (.setColor .flash c) :: more ∧
      (color.isFinite = true → span.nanos < Span.limit → (c == color) = true) := by
  have rest : span.without span.half ≠ .zero := by
    intro none
    refine some (congrArg Span.mk ?_)
    have none : span.nanos - span.nanos / 2 = 0 := congrArg Span.nanos none
    show span.nanos = 0
    omega
  cases down with
  | nil => exact absurd (fills.eq_nil_iff.mp rfl) rest
  | cons fr down =>
    refine ⟨_, _, rfl, fun finite fits => Color.lerp_start finite rest ?_⟩
    exact Nat.lt_of_le_of_lt (Nat.sub_le _ _) fits

end

namespace World

variable {w : World} {f g : Fiber} {r : Run} {c : Cursor} {ps pre : List Pulse} {id : Nat}
  {rest : List Fiber} {acts : List Act}

/-- The run comes to no other command. -/
def Stays (w : World) (id : Nat) (ps : List Pulse) : Prop :=
  ∀ pre, pre <+: ps → (w.pulses pre).steps id = w.steps id

theorem Stays.of_prefix (h : w.Stays id ps) (early : pre <+: ps) : w.Stays id pre :=
  fun first before => h first (before.trans early)

/-- How far a run has come with the command that it stepped to last. `Whole` says what that leaves. -/
inductive Dwells (w : World) (f : Fiber) (c : Cursor) (Whole : List Mark → Prop) (ps : List Pulse) :
    Prop where
  | under (g : Fiber) : w.Stays f.id ps → w.Becomes f .own c ps g →
      (∃ more, Whole (w.marks f.id ps ++ more)) → Dwells w f c Whole ps
  | ended (g : Fiber) {pre : List Pulse} : pre <+: ps → w.Stays f.id pre → w.Becomes f .own c pre g →
      g.todo = [] → Whole (w.marks f.id pre) → Dwells w f c Whole ps
  /-- The run was told to stop, or time overflowed. -/
  | cut (g : Fiber) {pre : List Pulse} : pre ++ [Pulse.turn] <+: ps → w.Stays f.id pre →
      w.Becomes f .own c pre g → (w.pulses pre).ready.head? = some g →
      (∃ more, Whole (w.marks f.id pre ++ more)) → g.doomed = true ∨ (w.pulses pre).Overflows g →
      Dwells w f c Whole ps

/-- As long as a run has something left to do of a command, it stays with it. -/
theorem Stays.concat {left : List Act} {p : Pulse} (h : w.Stays f.id ps)
    (play : (w.pulses ps).InPlay) (role : f.role = .run r) (comes : w.ComesTo f acts [] ps g left)
    (due : left ≠ []) : w.Stays f.id (ps ++ [p]) := by
  intro pre early
  rcases List.prefix_concat_iff.mp early with rfl | early
  · rw [← h ps (List.prefix_refl ps), pulses_concat]
    by_cases own : (w.pulses ps).OwnTurn p f.id
    · obtain ⟨rfl, head, first, same⟩ := own
      obtain ⟨rest, ready⟩ := List.head?_eq_some_iff.mp first
      obtain rfl : head = g := play.order.eq_of_hands (mem_hands_of_ready ready) comes.among
        (same.trans comes.id.symm)
      rw [← same]
      have due : head.todo ≠ [] := by rwa [comes.todo, List.append_nil]
      exact (turn_stays play.order.staged.attended ready (comes.role.trans role) due).1
    · exact tale_pulse play own
  · exact h pre early

theorem dwells_pulses {Whole : List Mark → Prop} (play : w.InPlay) (among : f ∈ w.hands)
    (role : f.role = .run r) (fault : f.fault = none) (todo : f.todo = acts)
    (solo : ∀ a ∈ acts, a.isSolo = true) (read : ReadOn .own acts) (stands : f.cursor = some c)
    (whole : ∀ ms k, Sounds w.settings acts f.pressed ms k → Whole ms) (ps : List Pulse) :
    w.Dwells f c Whole ps := by
  have carried {pre : List Pulse} {g : Fiber} {left : List Act}
      (h : w.ComesTo f acts [] pre g left) : ∃ more, Whole (w.marks f.id pre ++ more) := by
    obtain ⟨more, k, sounds⟩ := h.passage.carried_on solo
    exact ⟨more, whole _ _ sounds⟩
  -- If it stayed so far, it is either in the middle of the command or stays where it got to.
  have so_far (ps : List Pulse) (stays : w.Stays f.id ps) :
      (∃ g left, left ≠ [] ∧ w.ComesTo f acts [] ps g left) ∨
        ∀ later, ps <+: later → w.Dwells f c Whole later := by
    cases rendered_pulses play among fault (todo.trans (List.append_nil _).symm) solo ps with
    | under g due comes => exact .inl ⟨g, _, due, comes⟩
    | ended g early comes =>
      exact .inr fun later longer => .ended g (early.trans longer) (stays.of_prefix early)
        (comes.becomes read stands) comes.todo (whole _ _ comes.passage.whole)
    | @cut g pre left early due comes head why =>
      have before : pre <+: ps := (List.prefix_append pre [.turn]).trans early
      have going : (w.pulses pre).isCancelled g = false := by
        rw [isCancelled, comes.role, role]
      refine .inr fun later longer => .cut g (early.trans longer) (stays.of_prefix before)
        (comes.becomes read stands) head (carried comes) ?_
      rcases why with doomed | cancelled | overflows
      · exact .inl doomed
      · rw [going] at cancelled
        cases cancelled
      · exact .inr overflows
  have along : (w.Stays f.id ps ∧ ∃ g left, left ≠ [] ∧ w.ComesTo f acts [] ps g left) ∨
      ∀ later, ps <+: later → w.Dwells f c Whole later := by
    induction ps using List.reverseRecOn with
    | nil =>
      have start : w.Stays f.id [] := fun pre early => by rw [List.prefix_nil.mp early]; rfl
      exact (so_far [] start).imp_left fun under => ⟨start, under⟩
    | append_singleton ps p ih =>
      rcases ih with ⟨stays, g, left, due, comes⟩ | ended
      · have longer : w.Stays f.id (ps ++ [p]) := stays.concat (play.pulses ps) role comes due
        exact (so_far _ longer).imp_left fun under => ⟨longer, under⟩
      · exact .inr fun later longer => ended later ((List.prefix_append ps [p]).trans longer)
  rcases along with ⟨stays, g, left, -, comes⟩ | ended
  · exact .under g stays (comes.becomes read stands) (carried comes)
  · exact ended ps (List.prefix_refl ps)

/-- From its place on the run flashes the overlay. -/
structure Flashing (w : World) (g : Fiber) (place : Cursor) (color : Color) (span hold : Span)
    (after : List Pulse) : Prop where
  goes : w.Dwells g place (Flashes color span hold) after
  /-- If the frames are enough for that, then once everybody waits it is done with it. -/
  done : ∀ ms, Flashes color span hold ms → framesOf ms <+: (w.pulses after).feed.since place →
    (w.pulses after).ready = [] → w.Unstopped after g.id → w.KeepsUp .own after g.id →
    (w.pulses after).feed.total.nanos < Span.limit →
    ∃ pre h, pre <+: after ∧ w.Becomes g .own place pre h ∧ h.todo = [] ∧ w.marks g.id pre = ms

theorem flashing_pulses (o : Opening) (before after : List Pulse) {color : Color} {span hold : Span}
    (starts : (o.world.pulses before).TakesUp f r (.flash color span hold)) :
    ∃ place, f.cursor = some place ∧ (o.world.pulses (before ++ [Pulse.turn])).Flashing
      (f.enters r (.flash color span hold) o.settings) place color span hold after := by
  obtain ⟨place, stands, among⟩ := starts.placed
  have solo := isSolo_flashActs color span hold
  have read := readOn_flashActs color span hold
  have fault : (f.enters r (.flash color span hold) o.settings).fault = none := starts.fault
  refine ⟨place, stands, ?_, ?_⟩
  · exact dwells_pulses (inPlay_pulses o _) among rfl fault rfl solo read stands
      (fun ms k sounds => sounds.flashes) after
  · intro ms flashes first rest unstopped keeps fits
    have performed := performed_pulses o (before ++ [Pulse.turn]) after among fault
      (List.append_nil _).symm solo read stands fun ms k sounds => sounds.flashes
    exact performed.through rest unstopped keeps fits (fun _ _ _ _ one other => one.eq other) flashes
      first (k := .nothing)

/-- From the turn in which a run comes to a flash, it takes the overlay up to the peak in the first half
of the time, leaves it there for the hold, and takes it down to nothing in the other half, each for the
shortest run of frames that fills it. If the flash takes time, the way down starts from the peak. The
run comes to no other command before the last tint. -/
theorem flashes_rise_and_fall (o : Opening) (before after : List Pulse) {color : Color}
    {span hold : Span}
    (starts : (o.world.pulses before).TakesUp f r (.flash color span hold)) :
    let w := o.world.pulses (before ++ [Pulse.turn])
    w.steps f.id = (o.world.pulses before).steps f.id ++ [(r.pointer, .flash)] ∧
      span.half + span.without span.half = span ∧
      (∀ ms, Flashes color span hold ms →
        ∀ m ∈ ms, (∃ fr, m = .frame fr) ∨ ∃ c, m = .call (.setColor .flash c)) ∧
      (span ≠ .zero → ∀ down, Lasts (span.without span.half) down → ∃ c more,
        (Paint.tint .flash color .transparent).strokes (span.without span.half) .zero down =
          .call (.setColor .flash c) :: more ∧
        (color.isFinite = true → span.nanos < Span.limit → (c == color) = true)) ∧
      ∃ place, f.cursor = some place ∧
        w.Flashing (f.enters r (.flash color span hold) o.settings) place color span hold after := by
  intro w
  have turned : w = (o.world.pulses before).turn := pulses_concat ..
  exact ⟨turned ▸ starts.steps, span.half_add_without_half, fun ms flashes m => flashes.overlay,
    fun some down => strokes_start some, flashing_pulses o before after starts⟩

/-- Of three nanoseconds one is spent on the way up and two on the way down. -/
theorem flashes_rise_and_fall_odd :
    let o : Opening := ⟨default, default, 8, default, .empty, [[.flash .white ⟨3⟩ ⟨1⟩]]⟩
    let before : List Pulse := [.host (.execute 0) rfl]
    let w := o.world.pulses (before ++ [Pulse.turn])
    let a : Frame := ⟨1, ⟨2⟩, .nothing⟩
    let b : Frame := ⟨2, ⟨1⟩, .nothing⟩
    let c : Frame := ⟨3, ⟨1⟩, .nothing⟩
    let d : Frame := ⟨4, ⟨7⟩, .nothing⟩
    let after := [a, b, c, d].map (fun fr => Pulse.publish fr.delta fr.keys) ++
      List.replicate 14 Pulse.turn
    ∃ f r, (o.world.pulses before).TakesUp f r (.flash .white ⟨3⟩ ⟨1⟩) ∧
      ∃ pre h, pre <+: after ∧
        w.Becomes (f.enters r (.flash .white ⟨3⟩ ⟨1⟩) o.settings) .own ⟨0⟩ pre h ∧ h.todo = [] ∧
        w.marks f.id pre = flashMarks .white ⟨3⟩ [a] [b] [c, d] := by
  intro o before w a b c d after
  obtain ⟨r, role⟩ : ∃ r, ((o.world.pulses before).ready.headD default).role = .run r := ⟨_, rfl⟩
  have starts : (o.world.pulses before).TakesUp ((o.world.pulses before).ready.headD default) r
      (.flash .white ⟨3⟩ ⟨1⟩) := by
    refine ⟨rfl, role, rfl, rfl, rfl, ?_⟩
    cases role
    rfl
  have whole : Flashes .white ⟨3⟩ ⟨1⟩ (flashMarks .white ⟨3⟩ [a] [b] [c, d]) :=
    ⟨[a], [b], [c, d], by decide, by decide, by decide, rfl⟩
  obtain ⟨-, -, -, -, place, stands, flashing⟩ := flashes_rise_and_fall o before after starts
  obtain rfl : (⟨0⟩ : Cursor) = place := Option.some.inj stands
  have unstopped : w.Unstopped after ((o.world.pulses before).ready.headD default).id :=
    unstopped_of_isCalm (by decide +kernel)
  have keeps : w.KeepsUp .own after ((o.world.pulses before).ready.headD default).id :=
    keepsUp_of_isEarly (by decide +kernel)
  have rest : (w.pulses after).ready = [] := List.isEmpty_iff.mp (by decide +kernel)
  have first : framesOf (flashMarks .white ⟨3⟩ [a] [b] [c, d]) <+: (w.pulses after).feed.since ⟨0⟩ := by
    rw [framesOf_flashMarks]
    decide +kernel
  obtain ⟨pre, h, early, becomes, ended, marks⟩ := flashing.done _ whole first rest unstopped keeps
    (by decide +kernel)
  exact ⟨_, r, starts, pre, h, early, becomes, ended, marks⟩

/-- A flash that takes no time goes from the peak to nothing without a sample in between. With an
infinite channel the sample is none of the peak. -/
theorem flash_leaves_the_peak_at_once :
    let o : Opening := ⟨default, default, 8, default, .empty, [[.flash .white .zero .zero]]⟩
    let before : List Pulse := [.host (.execute 0) rfl]
    let w := o.world.pulses (before ++ [Pulse.turn])
    let after : List Pulse := List.replicate 5 Pulse.turn
    (∃ f r, (o.world.pulses before).TakesUp f r (.flash .white .zero .zero) ∧
      ∃ pre h, pre <+: after ∧
        w.Becomes (f.enters r (.flash .white .zero .zero) o.settings) .own ⟨0⟩ pre h ∧ h.todo = [] ∧
        w.marks f.id pre =
          [.call (.setColor .flash .white), .call (.setColor .flash .transparent)]) ∧
    (Color.transparent == Color.white) = false ∧
    ∀ down, Lasts ((⟨2⟩ : Span).without (⟨2⟩ : Span).half) down → ∃ c more,
      (Paint.tint .flash ⟨.ofBits 0x7f800000, 0, 0, 1⟩ .transparent).strokes
        ((⟨2⟩ : Span).without (⟨2⟩ : Span).half) .zero down = .call (.setColor .flash c) :: more ∧
      (c == ⟨.ofBits 0x7f800000, 0, 0, 1⟩) = false := by
  intro o before w after
  obtain ⟨r, role⟩ : ∃ r, ((o.world.pulses before).ready.headD default).role = .run r := ⟨_, rfl⟩
  have starts : (o.world.pulses before).TakesUp ((o.world.pulses before).ready.headD default) r
      (.flash .white .zero .zero) := by
    refine ⟨rfl, role, rfl, rfl, rfl, ?_⟩
    cases role
    rfl
  refine ⟨?_, by decide, fun down fills => ?_⟩
  · have whole : Flashes .white .zero .zero (flashMarks .white .zero [] [] []) :=
      ⟨[], [], [], by decide, by decide, by decide, rfl⟩
    obtain ⟨place, stands, flashing⟩ := flashing_pulses o before after starts
    obtain rfl : (⟨0⟩ : Cursor) = place := Option.some.inj stands
    have unstopped : w.Unstopped after ((o.world.pulses before).ready.headD default).id :=
      unstopped_of_isCalm (by decide +kernel)
    have keeps : w.KeepsUp .own after ((o.world.pulses before).ready.headD default).id :=
      keepsUp_of_isEarly (by decide +kernel)
    have rest : (w.pulses after).ready = [] := List.isEmpty_iff.mp (by decide +kernel)
    obtain ⟨pre, h, early, becomes, ended, marks⟩ := flashing.done _ whole
      (List.nil_prefix) rest unstopped keeps (by decide +kernel)
    exact ⟨_, r, starts, pre, h, early, becomes, ended, marks⟩
  · cases down with
    | nil => exact absurd (fills.eq_nil_iff.mp rfl) (by decide)
    | cons fr down => exact ⟨_, _, rfl, by decide⟩

end World

end SceneScript
