import Mathlib.Order.Bounds.Basic
import SceneScript.Proofs.Score
/-!
Phrases: what whole loops over a span, whole reveals and whole waits for a confirmation leave, written
out (`Paint.score`, `Reveal.counts`, `Reveal.Reads`).
-/

namespace SceneScript

/-! ### Frames that fill a span -/

/-- The shortest run of frames that fills the span. -/
def Lasts (span : Span) (frames : List Frame) : Prop :=
  Short span frames ∧ span ≤ totalDelta frames

instance (span : Span) (frames : List Frame) : Decidable (Lasts span frames) :=
  inferInstanceAs (Decidable ((∀ k < frames.length, totalDelta (frames.take k) < span) ∧
    span ≤ totalDelta frames))

section

variable {span : Span} {frames stream : List Frame} {fr : Frame}

/-- Of a stream it takes the least number of frames that fill the span. -/
theorem Lasts.isLeast (h : Lasts span frames) (first : frames <+: stream) :
    IsLeast {k | span ≤ totalDelta (stream.take k)} frames.length := by
  obtain ⟨short, full⟩ := h
  refine ⟨?_, fun k enough => ?_⟩
  · show span ≤ totalDelta (stream.take frames.length)
    rwa [← List.prefix_iff_eq_take.mp first]
  · by_contra before
    have before : k < frames.length := Nat.lt_of_not_le before
    obtain ⟨rest, rfl⟩ := first
    have enough : span ≤ totalDelta ((frames ++ rest).take k) := enough
    rw [List.take_append_of_le_length (Nat.le_of_lt before)] at enough
    exact absurd (short k before) (Nat.not_lt.mpr enough)

theorem lasts_take {k : Nat} (least : IsLeast {k | span ≤ totalDelta (stream.take k)} k) :
    Lasts span (stream.take k) := by
  refine ⟨fun j bound => ?_, least.1⟩
  have before : j < k := Nat.lt_of_lt_of_le bound (List.length_take_le k stream)
  rw [List.take_take, Nat.min_eq_left (Nat.le_of_lt before)]
  exact Nat.lt_of_not_le fun full => absurd (least.2 full) (Nat.not_le.mpr before)

/-- No other run of the stream is the shortest. -/
theorem Lasts.eq {frames' : List Frame} (h : Lasts span frames) (h' : Lasts span frames')
    (first : frames <+: stream) (first' : frames' <+: stream) : frames = frames' := by
  have same : frames.length = frames'.length := (h.isLeast first).unique (h'.isLeast first')
  rw [List.prefix_iff_eq_take.mp first, List.prefix_iff_eq_take.mp first', same]

theorem Lasts.eq_nil_iff (h : Lasts span frames) : frames = [] ↔ span = .zero := by
  obtain ⟨short, full⟩ := h
  refine ⟨fun none => ?_, fun none => ?_⟩
  · rw [none] at full
    have full : span.nanos ≤ 0 := full
    exact congrArg Span.mk (Nat.le_zero.mp full)
  · cases frames with
    | nil => rfl
    | cons fr frames =>
      have less : totalDelta [] < span := short 0 (by simp)
      rw [none] at less
      exact absurd less (Nat.lt_irrefl 0)

/-- The frames before one that was still wanted do not fill the span. -/
theorem Lasts.lt_of_prefix {taken : List Frame} (h : Lasts span frames)
    (first : taken ++ [fr] <+: frames) : totalDelta taken < span := by
  obtain ⟨rest, rfl⟩ := first
  have less := h.1 taken.length (by simp)
  rwa [List.append_assoc, List.take_left] at less

end

/-- All that was pressed in these frames. -/
def Keys.pressedIn (frames : List Frame) : Keys :=
  ⟨frames.any (·.keys.confirm), frames.any (·.keys.skip)⟩

theorem Keys.through_eq (k : Keys) (frames : List Frame) :
    k.through frames = k.merge (.pressedIn frames) := by
  induction frames generalizing k with
  | nil => simp [through, merge, pressedIn]
  | cons fr frames ih =>
    refine (ih (k.merge fr.keys)).trans ?_
    simp [merge, pressedIn, Bool.or_assoc]

theorem Keys.nothing_through (frames : List Frame) :
    Keys.nothing.through frames = .pressedIn frames := by
  rw [through_eq]
  simp [merge, nothing]

/-! ### Loops over a span -/

namespace Paint

/-- What is left to do behind the loop: the fade of a channel stops it. -/
def coda : Paint → List Act
  | .volume channel => [.silence channel]
  | _ => []

/-- The acts of a loop over a span. -/
def loop (p : Paint) (lane : Lane) (span : Span) : List Act := .sweep (.start lane p span) :: p.coda

/-- How a loop ends: on the colour it was to come to, or with the channel stopped. -/
def close : Paint → List Mark
  | .volume channel => [.sound (.fadedOut channel)]
  | p => p.lastMarks

/-- What a loop over these frames leaves. -/
def score (p : Paint) (span : Span) (frames : List Frame) : List Mark :=
  p.strokes span .zero frames ++ p.close

/-- A loop takes the shortest run of frames that fills the span, and hears what is pressed in them. -/
def Runs (p : Paint) (span : Span) (heard : Keys) (ms : List Mark) (k : Keys) : Prop :=
  ∃ frames, Lasts span frames ∧ ms = p.score span frames ∧ k = heard.merge (.pressedIn frames)

variable {p : Paint} {span : Span} {frames : List Frame} {lane : Lane}

theorem framesOf_score (p : Paint) (span : Span) (frames : List Frame) :
    framesOf (p.score span frames) = frames := by
  have close : framesOf p.close = [] := by cases p <;> rfl
  rw [score, framesOf_append, framesOf_strokes, close, List.append_nil]

/-- One stroke before every frame. -/
theorem countP_strokes (loud : p ≠ .nothing) (elapsed : Span) :
    (p.strokes span elapsed frames).countP (·.frame?.isNone) = frames.length := by
  induction frames generalizing elapsed with
  | nil => rfl
  | cons fr frames ih =>
    have one : (p.marks (elapsed.share span)).countP (·.frame?.isNone) = 1 := by
      cases p <;> first | rfl | exact absurd rfl loud
    rw [strokes, List.countP_append, one, List.countP_cons, ih, List.length_cons]
    exact Nat.add_comm 1 _

/-- One stroke before every frame, and one at the end. -/
theorem countP_score (loud : p ≠ .nothing) :
    (p.score span frames).countP (·.frame?.isNone) = frames.length + 1 := by
  have one : p.close.countP (·.frame?.isNone) = 1 := by
    cases p <;> first | rfl | exact absurd rfl loud
  rw [score, List.countP_append, countP_strokes loud, one]

theorem score_nothing (span : Span) (frames : List Frame) :
    Paint.nothing.score span frames = frames.map .frame := by
  rw [score, strokes_nothing]
  exact List.append_nil _

theorem isSolo_loop (p : Paint) (lane : Lane) (span : Span) :
    ∀ a ∈ p.loop lane span, a.isSolo = true := by
  cases p <;> simp [loop, coda, Act.isSolo]

end Paint

/-- A sweep paints before every frame, and stops where the deltas fill its span. -/
theorem Sweep.Sounds.frames {s : Sweep} {ms : List Mark} {k : Keys} (h : s.Sounds ms k) :
    ∃ frames, ms = s.paint.strokes s.span s.elapsed frames ++ s.paint.lastMarks ∧
      k = s.pressed.through frames ∧
      (∀ j < frames.length, s.elapsed + totalDelta (frames.take j) < s.span) ∧
      s.span ≤ s.elapsed + totalDelta frames := by
  induction h with
  | @lands s spent =>
    exact ⟨[], rfl, rfl, fun j bound => absurd bound (Nat.not_lt_zero j), Nat.le_of_not_lt spent⟩
  | @goes s fr ms k going _ ih =>
    obtain ⟨frames, marks, keys, short, full⟩ := ih
    have along := add_totalDelta_cons s.elapsed fr
    refine ⟨fr :: frames, ?_, keys, fun j bound => ?_, ?_⟩
    · rw [marks, Paint.strokes, List.append_assoc, List.cons_append]
      rfl
    · cases j with
      | zero => exact going
      | succ j =>
        rw [List.take_succ_cons, ← along]
        exact short j (by simpa using bound)
    · rw [← along]
      exact full

section

variable {settings : Settings} {k k' : Keys} {ms : List Mark}

theorem Sweep.Sounds.lasts {lane : Lane} {p : Paint} {span : Span}
    (h : (Sweep.start lane p span).Sounds ms k) : ∃ frames, Lasts span frames ∧
      ms = p.strokes span .zero frames ++ p.lastMarks ∧ k = .pressedIn frames := by
  obtain ⟨frames, marks, keys, short, full⟩ := h.frames
  have whole (taken : List Frame) : (Sweep.start lane p span).elapsed + totalDelta taken =
      totalDelta taken := congrArg Span.mk (Nat.zero_add _)
  refine ⟨frames, ⟨fun j bound => ?_, ?_⟩, marks, keys.trans (Keys.nothing_through frames)⟩
  · rw [← whole]
    exact short j bound
  · rw [← whole]
    exact full

theorem Sounds.loop {p : Paint} {lane : Lane} {span : Span}
    (h : Sounds settings (p.loop lane span) k ms k') : p.Runs span k ms k' := by
  cases h with
  | cons own after =>
    cases own with
    | sweep sounds =>
      obtain ⟨frames, lasts, rfl, rfl⟩ := sounds.lasts
      refine ⟨frames, lasts, ?_⟩
      cases p with
      | volume channel =>
        cases after with
        | cons stops none =>
          cases stops
          obtain ⟨rfl, rfl⟩ := none.of_nil
          refine ⟨?_, rfl⟩
          rw [Paint.score, List.append_assoc]
          rfl
      | _ =>
        obtain ⟨rfl, rfl⟩ := after.of_nil
        exact ⟨List.append_nil _, rfl⟩

end

/-! ### Reveals -/

namespace Reveal

variable {settings : Settings} {r : Reveal} {k k' : Keys} {ms : List Mark}

theorem isCutShort_merge (r : Reveal) (a b : Keys) :
    r.isCutShort (a.merge b) = (r.isCutShort a || r.isCutShort b) := by
  unfold isCutShort
  cases r.kind with
  | sentence skippable => cases skippable <;> simp [Keys.merge]
  | page => rfl

theorem isCutShort_nothing (r : Reveal) : r.isCutShort .nothing = false := by
  unfold isCutShort
  cases r.kind with
  | sentence skippable => cases skippable <;> rfl
  | page => rfl

theorem isCutShort_pressedIn (r : Reveal) (frames : List Frame) :
    r.isCutShort (.pressedIn frames) = frames.any fun fr => r.isCutShort fr.keys := by
  unfold isCutShort
  cases r.kind with
  | sentence skippable => cases skippable <;> simp [Keys.pressedIn]
  | page => rfl

/-- The counts that follow `n`, and the frames waited for after each. -/
def counts (r : Reveal) : (n : Nat) → List (List Frame) → List Mark
  | _, [] => []
  | n, g :: groups => .call (r.call (n + 1)) :: (g.map .frame ++ r.counts (n + 1) groups)

/-- The waits of a whole reveal. It stops at the first wait with a frame that cuts it short, or when
all is shown. -/
structure Over (settings : Settings) (r : Reveal) (waits : List (List Frame)) : Prop where
  lasts : ∀ g ∈ waits, Lasts (r.delay settings) g
  within : waits.length ≤ r.last - r.shown
  goes : ∀ g ∈ waits.dropLast, ∀ fr ∈ g, r.isCutShort fr.keys = false
  stops : waits.length = r.last - r.shown ∨
    ∃ g ∈ waits.getLast?, ∃ fr ∈ g, r.isCutShort fr.keys = true

theorem counts_shown (r : Reveal) (m n : Nat) (groups : List (List Frame)) :
    ({ r with shown := m }).counts n groups = r.counts n groups := by
  induction groups generalizing n with
  | nil => rfl
  | cons g groups ih =>
    rw [counts, counts, ih]
    rfl

theorem framesOf_counts (r : Reveal) (n : Nat) (groups : List (List Frame)) :
    framesOf (r.counts n groups) = groups.flatten := by
  induction groups generalizing n with
  | nil => rfl
  | cons g groups ih =>
    rw [List.flatten_cons, ← ih (n + 1)]
    show framesOf (g.map .frame ++ _) = _
    rw [framesOf_append, framesOf_frames]

/-- A wait without a cut, and then what follows it. -/
theorem Over.cons {g : List Frame} {groups : List (List Frame)} (more : r.shown < r.last)
    (lasts : Lasts (r.delay settings) g) (uncut : ∀ fr ∈ g, r.isCutShort fr.keys = false)
    (ended : ({ r with shown := r.shown + 1 }).Over settings groups) :
    r.Over settings (g :: groups) where
  lasts := List.forall_mem_cons.mpr ⟨lasts, ended.lasts⟩
  within := by
    have within : groups.length ≤ r.last - (r.shown + 1) := ended.within
    rw [List.length_cons]
    omega
  goes := by
    cases groups with
    | nil => exact fun _ among => nomatch among
    | cons g' groups => exact List.forall_mem_cons.mpr ⟨uncut, ended.goes⟩
  stops := by
    rcases ended.stops with all | ⟨g', last, cut⟩
    · left
      have all : groups.length = r.last - (r.shown + 1) := all
      rw [List.length_cons]
      omega
    · right
      refine ⟨g', ?_, cut⟩
      cases groups with
      | nil => cases last
      | cons => exact last

/-- After the first wait the reveal goes on as if it began there. -/
theorem Over.tail {g : List Frame} {waits : List (List Frame)} (h : r.Over settings (g :: waits))
    (more : waits ≠ []) : ({ r with shown := r.shown + 1 }).Over settings waits where
  lasts := (List.forall_mem_cons.mp h.lasts).2
  within := by
    have within := h.within
    rw [List.length_cons] at within
    show waits.length ≤ r.last - (r.shown + 1)
    omega
  goes := by
    have goes := h.goes
    rw [List.dropLast_cons_of_ne_nil more] at goes
    exact (List.forall_mem_cons.mp goes).2
  stops := by
    rcases h.stops with all | ⟨g', last, cut⟩
    · left
      rw [List.length_cons] at all
      show waits.length = r.last - (r.shown + 1)
      omega
    · right
      rw [List.getLast?_cons_of_ne_nil more] at last
      exact ⟨g', last, cut⟩

/-- A wait that ends one reveal does not begin a longer one. -/
theorem Over.ends_with {g : List Frame} {waits : List (List Frame)} (h : r.Over settings [g])
    (h' : r.Over settings (g :: waits)) : waits = [] := by
  by_contra more
  rcases h.stops with all | ⟨g', last, fr, among, cut⟩
  · have within := h'.within
    have some : 0 < waits.length := List.length_pos_iff.mpr more
    rw [List.length_cons] at within
    rw [List.length_singleton] at all
    omega
  · obtain rfl : g = g' := Option.some.inj last
    have goes := h'.goes
    rw [List.dropLast_cons_of_ne_nil more] at goes
    rw [goes g List.mem_cons_self fr among] at cut
    cases cut

/-- A reveal that is not cut short from the start shows one count after the other until it is over. -/
theorem Sounds.counts (h : r.Sounds settings k ms k') :
    if r.isCutShort k = true then ms = []
    else ∃ waits, r.Over settings waits ∧ ms = r.counts r.shown waits := by
  induction h with
  | @stops r k ended =>
    split
    · rfl
    · rename_i uncut
      have all : r.last ≤ r.shown := ended.resolve_right uncut
      exact ⟨[], ⟨fun _ among => (nomatch among), Nat.zero_le _, fun _ among => (nomatch among),
        .inl (by rw [List.length_nil]; omega)⟩, rfl⟩
  | @shows r k k' pressed wait ms more going waits _ ih =>
    rw [if_neg (by simp [going])]
    obtain ⟨g, lasts, rfl, rfl⟩ := waits.lasts
    have frames : Paint.nothing.strokes (r.delay settings) .zero g ++ Paint.nothing.lastMarks =
        g.map .frame := by
      rw [Paint.strokes_nothing]
      exact List.append_nil _
    rw [frames]
    have heard : Reveal.isCutShort { r with shown := r.shown + 1 }
        (k.merge (.pressedIn g)) = g.any fun fr => r.isCutShort fr.keys := by
      show r.isCutShort _ = _
      rw [isCutShort_merge, isCutShort_pressedIn, going, Bool.false_or]
    rw [heard] at ih
    split at ih
    · rename_i cut
      obtain ⟨fr, among, cut⟩ := List.any_eq_true.mp cut
      subst ih
      refine ⟨[g], ⟨by simpa using lasts, ?_, fun _ among => (nomatch among), ?_⟩, rfl⟩
      · rw [List.length_singleton]
        omega
      · exact .inr ⟨g, rfl, fr, among, cut⟩
    · rename_i uncut
      obtain ⟨groups, ended, rfl⟩ := ih
      refine ⟨g :: groups, ended.cons more lasts fun fr among => ?_, ?_⟩
      · exact Bool.eq_false_iff.mpr fun cut => uncut (List.any_eq_true.mpr ⟨fr, among, cut⟩)
      · rw [counts_shown]
        rfl

/-! ### A text that is read -/

/-- Calls, a reveal, its last count, and the wait until the reader confirms. -/
def reading (r : Reveal) (intro : List StageCall) : List Act :=
  intro.map .stage ++ ([.listen, .reveal r, .stage (r.call r.last)] ++ Command.awaitConfirm)

/-- What it leaves when a text is read: the calls, the counts and the last of them, and only then the
indicator, up to the first frame that confirms. -/
inductive Reads (settings : Settings) (r : Reveal) (intro : List StageCall) : List Mark → Prop where
  | reads {waits : List (List Frame)} {quiet : List Frame} {fr : Frame} : r.Over settings waits →
      (∀ f ∈ quiet, f.keys.confirm = false) → fr.keys.confirm = true →
      Reads settings r intro (intro.map .call ++ (r.counts r.shown waits ++
        ([.call (r.call r.last), .call (.setWaitIndicator true)] ++ ((quiet ++ [fr]).map .frame ++
          [.call (.setWaitIndicator false)]))))

/-- Over a stream of frames, a reveal has only one way to go. -/
theorem Over.eq {waits waits' : List (List Frame)} {stream : List Frame}
    (h : r.Over settings waits) (h' : r.Over settings waits') (first : waits.flatten <+: stream)
    (first' : waits'.flatten <+: stream) : waits = waits' := by
  induction waits generalizing r waits' stream with
  | nil =>
    have all : r.last - r.shown = 0 := by
      rcases h.stops with all | ⟨g, last, -⟩
      · exact all.symm
      · cases last
    have within := h'.within
    rw [all] at within
    exact (List.length_eq_zero_iff.mp (Nat.le_zero.mp within)).symm
  | cons g waits ih =>
    cases waits' with
    | nil =>
      have all : r.last - r.shown = 0 := by
        rcases h'.stops with all | ⟨g, last, -⟩
        · exact all.symm
        · cases last
      have within := h.within
      rw [List.length_cons] at within
      omega
    | cons g' waits' =>
      rw [List.flatten_cons] at first first'
      obtain rfl : g = g' := (h.lasts g List.mem_cons_self).eq (h'.lasts g' List.mem_cons_self)
        ((List.prefix_append _ _).trans first) ((List.prefix_append _ _).trans first')
      obtain ⟨stream, rfl⟩ : ∃ later, stream = g ++ later := by
        obtain ⟨later, rfl⟩ := first
        exact ⟨_, List.append_assoc ..⟩
      have first := (List.prefix_append_right_inj g).mp first
      have first' := (List.prefix_append_right_inj g).mp first'
      have alone : waits = [] ↔ waits' = [] := ⟨fun none => Over.ends_with (none ▸ h) h',
        fun none => Over.ends_with (none ▸ h') h⟩
      cases waits with
      | nil => rw [alone.mp rfl]
      | cons =>
        cases waits' with
        | nil => exact absurd (alone.mpr rfl) (List.cons_ne_nil _ _)
        | cons => rw [ih (h.tail (List.cons_ne_nil _ _)) (h'.tail (List.cons_ne_nil _ _)) first first']

theorem isSolo_reading (r : Reveal) (intro : List StageCall) :
    ∀ a ∈ r.reading intro, a.isSolo = true := by
  intro a among
  rcases List.mem_append.mp among with here | later
  · obtain ⟨c, -, rfl⟩ := List.mem_map.mp here
    rfl
  · have all : ([Act.listen, .reveal r, .stage (r.call r.last)] ++ Command.awaitConfirm).all
        Act.isSolo = true := rfl
    exact List.all_eq_true.mp all a later

/-- The first confirmation in a stream is the only one that ends the wait. -/
theorem eq_of_confirms {quiet quiet' stream : List Frame} {fr fr' : Frame}
    (unconfirmed : ∀ f ∈ quiet, f.keys.confirm = false) (confirmed : fr.keys.confirm = true)
    (unconfirmed' : ∀ f ∈ quiet', f.keys.confirm = false) (confirmed' : fr'.keys.confirm = true)
    (first : quiet ++ [fr] <+: stream) (first' : quiet' ++ [fr'] <+: stream) :
    quiet ++ [fr] = quiet' ++ [fr'] := by
  have found {quiet : List Frame} {fr : Frame} (unconfirmed : ∀ f ∈ quiet, f.keys.confirm = false)
      (confirmed : fr.keys.confirm = true) (first : quiet ++ [fr] <+: stream) :
      stream.findIdx (·.keys.confirm) = quiet.length := by
    obtain ⟨rest, rfl⟩ := first
    have before : quiet.findIdx (·.keys.confirm) = quiet.length :=
      List.findIdx_eq_length_of_false unconfirmed
    rw [List.append_assoc, List.findIdx_append, before, if_neg (Nat.lt_irrefl _),
      List.singleton_append, List.findIdx_cons, confirmed]
    exact Nat.zero_add _
  have same : quiet.length = quiet'.length :=
    (found unconfirmed confirmed first).symm.trans (found unconfirmed' confirmed' first')
  rw [List.prefix_iff_eq_take.mp first, List.prefix_iff_eq_take.mp first', List.length_append,
    List.length_append, same]
  rfl

/-- The frames among what a text leaves. -/
theorem framesOf_written (r : Reveal) (intro : List StageCall) (waits : List (List Frame))
    (heard : List Frame) : framesOf (intro.map Mark.call ++ (r.counts r.shown waits ++
      ([Mark.call (r.call r.last), .call (.setWaitIndicator true)] ++ (heard.map Mark.frame ++
        [Mark.call (.setWaitIndicator false)])))) = waits.flatten ++ heard := by
  have silent : framesOf (intro.map .call) = [] := by
    rw [framesOf, List.filterMap_map]
    exact List.filterMap_none intro
  have raises : framesOf [.call (r.call r.last), .call (.setWaitIndicator true)] = [] := rfl
  have lowers : framesOf [.call (.setWaitIndicator false)] = [] := rfl
  simp only [framesOf_append, silent, framesOf_counts, raises, framesOf_frames, lowers,
    List.nil_append, List.append_nil]

/-- The frames leave no choice in what is read. -/
theorem Reads.eq {intro : List StageCall} {ms ms' : List Mark} (h : r.Reads settings intro ms)
    (h' : r.Reads settings intro ms') (first : framesOf ms <+: framesOf ms') : ms = ms' := by
  obtain ⟨ended, unconfirmed, confirmed⟩ := h
  obtain ⟨ended', unconfirmed', confirmed'⟩ := h'
  rename_i waits quiet fr waits' quiet' fr'
  rw [framesOf_written, framesOf_written] at first
  obtain rfl : waits = waits' := ended.eq ended' ((List.prefix_append _ _).trans first)
    (List.prefix_append _ _)
  have first := (List.prefix_append_right_inj _).mp first
  rw [eq_of_confirms unconfirmed confirmed unconfirmed' confirmed' first (List.prefix_refl _)]

end Reveal

section

variable {settings : Settings} {rest : List Act} {k k' : Keys} {ms : List Mark}

theorem Confirms.frames (h : Confirms ms) : ∃ quiet fr, ms = (quiet ++ [fr]).map .frame ∧
    (∀ f ∈ quiet, f.keys.confirm = false) ∧ fr.keys.confirm = true := by
  induction h with
  | @now fr confirmed => exact ⟨[], fr, rfl, by simp, confirmed⟩
  | @later fr ms unconfirmed _ ih =>
    obtain ⟨quiet, last, rfl, others, confirmed⟩ := ih
    exact ⟨fr :: quiet, last, rfl, List.forall_mem_cons.mpr ⟨unconfirmed, others⟩, confirmed⟩

theorem Sounds.of_calls (calls : List StageCall)
    (h : Sounds settings (calls.map .stage ++ rest) k ms k') :
    ∃ ms', ms = calls.map .call ++ ms' ∧ Sounds settings rest k ms' k' := by
  induction calls generalizing ms with
  | nil => exact ⟨ms, rfl, h⟩
  | cons c calls ih =>
    cases h with
    | cons own after =>
      cases own
      obtain ⟨ms', rfl, sounds⟩ := ih after
      exact ⟨ms', rfl, sounds⟩

/-- What is heard before the text does not matter to it. -/
theorem Sounds.reading {r : Reveal} {intro : List StageCall}
    (h : Sounds settings (r.reading intro) k ms k') : r.Reads settings intro ms := by
  obtain ⟨ms, rfl, after⟩ := Sounds.of_calls _ h
  cases after with
  | cons listens after =>
    cases listens
    cases after with
    | cons shows after =>
      cases shows with
      | reveal reveals =>
        have counted := reveals.counts
        rw [if_neg (by simp [r.isCutShort_nothing])] at counted
        obtain ⟨waits, ended, rfl⟩ := counted
        obtain ⟨ms, rfl, raised⟩ :=
          Sounds.of_calls [r.call r.last, .setWaitIndicator true] after
        cases raised with
        | cons confirms lowers =>
          cases confirms with
          | confirm confirms =>
            obtain ⟨quiet, fr, rfl, unconfirmed, confirmed⟩ := confirms.frames
            obtain ⟨ms, rfl, none⟩ := Sounds.of_calls [.setWaitIndicator false] lowers
            obtain ⟨rfl, -⟩ := none.of_nil
            have reads : r.Reads settings intro _ := .reads ended unconfirmed confirmed
            simpa using reads

end

theorem Command.acts_text (settings : Settings) (page : Page) (speaker body : String)
    (skippable : Bool) (place : Place) : (text speaker body skippable place).acts settings page =
      Reveal.reading ⟨.sentence skippable, 0, body.length⟩
        [nameBox settings speaker place, .setSentenceVisible 0, .setSentence body] := rfl

end SceneScript
