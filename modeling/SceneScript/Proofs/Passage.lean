import Mathlib.Data.List.Infix
import SceneScript.Proofs.Progress
import SceneScript.Proofs.Score
/-!
Passages of a performance. A fiber that has acts to do by itself leaves, turn by turn, the marks that
these acts stand for, whatever other fibers and the host do in between; where it waits, it has taken
every frame there is (`rendered_pulses`).
-/

namespace SceneScript

def Deed.mark? : Deed → Option Mark
  | .stage c => some (.call c)
  | .scene c => some (.scene c)
  | .sound e => some (.sound e)
  | .took f => some (.frame f)
  | _ => none

/-- What a mark makes of the channels. -/
def Mixer.heed (m : Mixer) : Mark → Mixer
  | .level c volume => m.modifyStrip c (·.apply (.volume volume))
  | .sound (.fadedOut c) => m.modifyStrip c (·.apply .stop)
  | _ => m

def Sweep.levels (s : Sweep) : List Mark :=
  match s.paint with
  | .volume _ => if s.elapsed < s.span then s.paint.marks s.share else []
  | _ => []

def Act.levels : Act → List Mark
  | .sweep s => s.levels
  | _ => []

/-! ### Places in the feed -/

/-- The lane on which an act that a fiber does by itself takes frames. -/
def Act.reads? : Act → Option Lane
  | .sweep s | .stride s => some s.lane
  | .reveal _ | .confirm => some .own
  | _ => none

/-- Whatever frames these acts take, they take on this lane. -/
def ReadOn (lane : Lane) (acts : List Act) : Prop := ∀ a ∈ acts, ∀ l, a.reads? = some l → l = lane

theorem Act.reads?_of_lane? {a : Act} {lane : Lane} (takes : a.lane? = some lane) :
    a.reads? = some lane := by
  cases a <;> first | exact takes | cases takes

theorem Stroke.readOn {settings : Settings} {acts acts' : List Act} {k k' : Keys} {ms : List Mark}
    {lane : Lane} (h : Stroke settings acts k ms acts' k') (read : ReadOn lane acts) :
    ReadOn lane acts' := by
  have later : ReadOn lane acts.tail := fun a among => read a (List.mem_of_mem_tail among)
  cases h with
  | shows | listens | lands | stops | silences => exact later
  | samples | takes =>
    exact List.forall_mem_cons.mpr ⟨fun l same => read _ List.mem_cons_self l same, later⟩
  | reveals =>
    have own := read _ List.mem_cons_self .own rfl
    refine List.forall_mem_cons.mpr ⟨nofun, List.forall_mem_cons.mpr ⟨?_, List.forall_mem_cons.mpr
      ⟨?_, later⟩⟩⟩
    all_goals
      intro l same
      obtain rfl := Option.some.inj same
      exact own
  | hears =>
    split
    · exact later
    · exact read

theorem Passage.readOn {settings : Settings} {acts acts' : List Act} {k k' : Keys} {ms : List Mark}
    {lane : Lane} (h : Passage settings acts k ms acts' k') (read : ReadOn lane acts) :
    ReadOn lane acts' := by
  induction h with
  | begins => exact read
  | goes _ stroke ih => exact stroke.readOn ih

/-- The frames from a place on. -/
def Feed.since (feed : Feed) (c : Cursor) : List Frame := feed.frames.toList.drop c.taken

theorem Feed.Grows.since {feed feed' : Feed} {c : Cursor} (grown : feed.Grows feed') :
    feed.since c <+: feed'.since c := by
  obtain ⟨new, frames⟩ := grown.frames
  rw [Feed.since, Feed.since, frames, List.drop_append]
  exact List.prefix_append _ _

/-- From the place `c` on the fiber took these frames, one after the other, and it stands behind
them. -/
structure Follows (feed : Feed) (g : Fiber) (lane : Lane) (c : Cursor) (taken : List Frame) :
    Prop where
  frames : taken = (feed.since c).take taken.length
  place : g.cursorOn lane = some ⟨c.taken + taken.length⟩

namespace Follows

variable {feed feed' : Feed} {f g : Fiber} {lane : Lane} {c c' : Cursor} {taken : List Frame}

theorem start (stands : f.cursorOn lane = some c) : Follows feed f lane c [] := ⟨rfl, stands⟩

theorem isPrefix (h : Follows feed f lane c taken) : taken <+: feed.since c := by
  rw [h.frames]
  exact List.take_prefix _ _

/-- Behind the last frame there is, the fiber has taken them all. -/
theorem eq_since (h : Follows feed f lane c taken)
    (caught : ∀ c', f.cursorOn lane = some c' → feed.count ≤ c'.taken) : taken = feed.since c := by
  have past : feed.count ≤ c.taken + taken.length := caught _ h.place
  rw [h.frames]
  refine List.take_of_length_le ?_
  rw [Feed.since, List.length_drop, Feed.length_frames]
  omega

theorem grows (h : Follows feed f lane c taken) (grown : feed.Grows feed')
    (same : g.cursorOn lane = f.cursorOn lane) : Follows feed' g lane c taken := by
  refine ⟨?_, same.trans h.place⟩
  obtain ⟨new, frames⟩ := grown.frames
  have length : taken.length ≤ (feed.since c).length := h.isPrefix.length_le
  cases none : taken with
  | nil => rfl
  | cons fr frames' =>
    have before : feed'.since c = feed.since c ++ new := by
      rw [Feed.since, frames, List.drop_append_of_le_length]
      · rfl
      · rw [Feed.since, List.length_drop, none, List.length_cons] at length
        omega
    rw [← none, before, List.take_append_of_le_length length]
    exact h.frames

theorem takes (h : Follows feed f lane c taken) {fr : Frame} {missed : Nat}
    (near : feed.count ≤ c.taken + taken.length + feed.depth)
    (pulled : feed.pull (f.place feed lane) = .frame fr c' missed)
    (place : g.cursorOn lane = some c') : Follows feed g lane c (taken ++ [fr]) := by
  rw [Fiber.place, h.place, Option.getD_some] at pulled
  obtain ⟨found, next⟩ := Feed.pull_near near pulled
  refine ⟨?_, ?_⟩
  · rw [List.length_append, List.length_singleton, List.take_add_one, ← h.frames, Feed.since,
      List.getElem?_drop, Array.getElem?_toList, found]
    rfl
  · rw [place, List.length_append, List.length_singleton, ← Nat.add_assoc]
    exact congrArg some (congrArg Cursor.mk next)

end Follows

namespace World

/-! ### Marks -/

/-- The volume that the turn to come sets. -/
def levels (w : World) : List Mark :=
  match w.act? with
  | some (.sweep s) => s.levels
  | _ => []

/-- The marks that the fiber leaves in a pulse. -/
def marksIn (w : World) (id : Nat) : Pulse → List Mark
  | .turn =>
    if w.ready.head?.map (·.id) = some id then
      w.levels ++ (w.turn.entries.drop w.entries.length).filterMap (·.deed.mark?)
    else []
  | _ => []

def marks (w : World) (id : Nat) : List Pulse → List Mark
  | [] => []
  | p :: ps => w.marksIn id p ++ (w.pulse p).marks id ps

variable {w x : World} {f g : Fiber} {rest : List Fiber} {p : Pulse} {ps : List Pulse} {id : Nat}

theorem marks_append (w : World) (id : Nat) (ps qs : List Pulse) :
    w.marks id (ps ++ qs) = w.marks id ps ++ (w.pulses ps).marks id qs := by
  induction ps generalizing w with
  | nil => rfl
  | cons p ps ih =>
    rw [List.cons_append, marks, marks, ih, List.append_assoc]
    rfl

theorem marks_concat (w : World) (id : Nat) (ps : List Pulse) (p : Pulse) :
    w.marks id (ps ++ [p]) = w.marks id ps ++ (w.pulses ps).marksIn id p := by
  rw [marks_append, marks, marks, List.append_nil]

theorem marksIn_other (other : ¬ w.OwnTurn p id) : w.marksIn id p = [] := by
  cases p with
  | turn => exact if_neg fun own => other (ownTurn_turn.mpr own)
  | _ => rfl

theorem marksIn_turn (ready : w.ready = f :: rest) {es : List Entry}
    (grown : w.turn.entries = w.entries ++ es) :
    w.marksIn f.id .turn = w.levels ++ es.filterMap (·.deed.mark?) := by
  rw [marksIn, if_pos (by rw [ready]; rfl), grown, List.drop_left]

/-! ### One turn -/

/-- From `f` to `g` a fiber took these frames: none, or the next one. -/
inductive Advances (feed : Feed) (f g : Fiber) : List Frame → Prop where
  | stands : (∀ lane, g.cursorOn lane = f.cursorOn lane) → Advances feed f g []
  | takes {lane : Lane} {fr : Frame} {c : Cursor} {missed : Nat} :
      f.todo.head?.bind Act.lane? = some lane →
      feed.pull (f.place feed lane) = .frame fr c missed → g.cursorOn lane = some c →
      Advances feed f g [fr]

/-- The time of its sweep overflows at the next frame. -/
def Overflows (w : World) (f : Fiber) : Prop :=
  ∃ s after fr c missed, f.todo = .stride s :: after ∧
    w.feed.pull (f.place w.feed s.lane) = .frame fr c missed ∧ s.take? fr = none

/-- What the turn of a fiber with an act to do by itself makes of it. -/
inductive Soloist (w : World) (f : Fiber) : Prop where
  | waits : f ∈ w.turn.hands → w.marksIn f.id .turn = [] → w.turn.mixer = w.mixer → Soloist w f
  | plays (g : Fiber) : g ∈ w.turn.hands → g.id = f.id → g.role = f.role → g.fault = none →
      Stroke w.settings f.todo f.pressed (w.marksIn f.id .turn) g.todo g.pressed →
      Advances w.feed f g (framesOf (w.marksIn f.id .turn)) →
      w.turn.mixer = (w.marksIn f.id .turn).foldl Mixer.heed w.mixer → Soloist w f
  | bursts : w.Overflows f → Soloist w f

section

variable {a : Act} {after : List Act} {ms : List Mark} {es : List Entry} {v : World}

theorem soloist_of_resume (ready : w.ready = f :: rest)
    (turned : w.turn = { v.resume g with actor := none }) (grown : v.entries = w.entries ++ es)
    (left : w.levels ++ es.filterMap (·.deed.mark?) = ms) (id : g.id = f.id) (role : g.role = f.role)
    (fault : g.fault = none) (stroke : Stroke w.settings f.todo f.pressed ms g.todo g.pressed)
    (advances : Advances w.feed f g (framesOf ms)) (heard : v.mixer = ms.foldl Mixer.heed w.mixer) :
    Soloist w f := by
  have marks : w.marksIn f.id .turn = ms := (marksIn_turn ready (turned ▸ grown)).trans left
  refine .plays g ?_ id role fault (marks ▸ stroke) (marks ▸ advances) ?_
  · rw [turned]
    exact mem_hands.mpr List.mem_cons_self
  · rw [marks, turned]
    exact heard

/-- The fiber stays where it stands in the feed. -/
theorem soloist_of_still (ms : List Mark) (ready : w.ready = f :: rest)
    (turned : w.turn = { v.resume g with actor := none }) (grown : v.entries = w.entries ++ es)
    (left : w.levels ++ es.filterMap (·.deed.mark?) = ms) (silent : framesOf ms = [])
    (same : g = { f with todo := g.todo, pressed := g.pressed }) (fault : f.fault = none)
    (heard : v.mixer = ms.foldl Mixer.heed w.mixer)
    (stroke : Stroke w.settings f.todo f.pressed ms g.todo g.pressed) : Soloist w f := by
  refine soloist_of_resume ready turned grown left (by rw [same]) (by rw [same])
    (by rw [same]; exact fault) stroke ?_ heard
  rw [silent]
  refine .stands fun lane => ?_
  rw [same]
  cases lane <;> rfl

theorem soloist_of_takeFrame {lane : Lane} {next : World → Fiber → Frame → World}
    (ready : w.ready = f :: rest) (todo : f.todo = a :: after) (takes : a.lane? = some lane)
    (sources : 0 < w.feed.sources) (silent : w.levels = [])
    (turned : w.turn = { (w.taken f rest).takeFrame { f with todo := after } lane a next with
      actor := none })
    (goes : ∀ v c fr missed, w.feed.pull (f.place w.feed lane) = .frame fr c missed →
      (∃ g, next v (({ f with todo := after } : Fiber).setCursor lane c) fr = v.resume g ∧
        g.id = f.id ∧ g.role = f.role ∧ g.fault = none ∧ g.cursorOn lane = some c ∧
        Stroke w.settings f.todo f.pressed [.frame fr] g.todo g.pressed) ∨ w.Overflows f) :
    Soloist w f := by
  have place : (({ f with todo := after } : Fiber).cursorOn lane).getD w.feed.subscribe =
      f.place w.feed lane := by
    cases lane <;> rfl
  unfold takeFrame at turned
  rw [show (w.taken f rest).feed = w.feed from rfl, place] at turned
  cases pulled : w.feed.pull (f.place w.feed lane) with
  | closed => exact absurd pulled (Feed.pull_ne_closed _ sources)
  | waiting =>
    have same : Fiber.first { f with todo := after } [a] = f := by
      show { f with todo := a :: after } = f
      rw [← todo]
    have parked : w.turn = { (w.taken f rest).park .frame f with actor := none } := by
      rw [turned, pulled]
      exact same ▸ rfl
    have grown : w.turn.entries = w.entries ++ [] := by
      rw [parked, List.append_nil]
      rfl
    refine .waits ?_ ((marksIn_turn ready grown).trans (by rw [silent]; rfl)) (by rw [parked]; rfl)
    rw [parked]
    have last : (⟨.frame, f⟩ : Parked) ∈ ((w.taken f rest).park .frame f).blocked :=
      List.mem_append_right _ (List.mem_singleton.mpr rfl)
    exact mem_hands_of_blocked last
  | frame fr c missed =>
    let v := ((w.taken f rest).lagged missed).record (.took fr)
    have grown : ∃ es : List Entry, v.entries = w.entries ++ es ∧
        es.filterMap (·.deed.mark?) = [.frame fr] := by
      rw [show v.entries = _ from entries_record _ _]
      unfold lagged
      split
      · exact ⟨_, rfl, rfl⟩
      · rw [remark, entries_record, List.append_assoc]
        exact ⟨_, rfl, rfl⟩
    obtain ⟨es, grown, marks⟩ := grown
    have heard : v.mixer = w.mixer := by
      show ((w.taken f rest).lagged missed).mixer = w.mixer
      unfold lagged
      split <;> rfl
    rcases goes v c fr missed pulled with ⟨g, resumed, id, role, fault, cursor, stroke⟩ | overflows
    · have turned : w.turn = { v.resume g with actor := none } := by
        rw [turned, pulled]
        exact resumed ▸ rfl
      refine soloist_of_resume ready turned grown (by rw [silent, marks]; rfl) id role fault stroke ?_
        heard
      exact .takes (by rw [todo]; exact takes) pulled cursor
    · exact .bursts overflows

theorem mixer_paint (w : World) (share : Float32) (p : Paint) :
    (w.paint share p).mixer = (p.marks share).foldl Mixer.heed w.mixer := by
  cases p <;> rfl

theorem mixer_paintLast (w : World) (p : Paint) :
    (w.paintLast p).mixer = p.lastMarks.foldl Mixer.heed w.mixer := by
  cases p <;> rfl

theorem act?_going (ready : w.ready = f :: rest) (spared : f.doomed = false)
    (going : w.isCancelled f = false) (fault : f.fault = none) (todo : f.todo = a :: after) :
    w.act? = some a := by
  simp [act?, ready, actOf?, spared, going, fault, todo]

theorem levels_of_act (act : w.act? = some a) : w.levels = a.levels := by
  rw [World.levels, act]
  cases a <;> rfl

/-- What a sample on the way marks: the level it sets, and what it tells. -/
theorem entries_paint (v : World) {s : Sweep} (going : s.elapsed < s.span) : ∃ es : List Entry,
    (v.paint s.share s.paint).entries = v.entries ++ es ∧
      s.levels ++ es.filterMap (·.deed.mark?) = s.paint.marks s.share := by
  cases paint : s.paint with
  | nothing => exact ⟨[], (List.append_nil _).symm, by rw [Sweep.levels, paint]; rfl⟩
  | tint | board => exact ⟨_, entries_record _ _, by rw [Sweep.levels, paint]; rfl⟩
  | volume c =>
    refine ⟨[], (List.append_nil _).symm, ?_⟩
    rw [Sweep.levels, paint]
    exact (congrArg (· ++ []) (if_pos going)).trans (List.append_nil _)

theorem entries_paintLast (v : World) {s : Sweep} (spent : ¬ s.elapsed < s.span) :
    ∃ es : List Entry, (v.paintLast s.paint).entries = v.entries ++ es ∧
      s.levels ++ es.filterMap (·.deed.mark?) = s.paint.lastMarks := by
  cases paint : s.paint with
  | nothing => exact ⟨[], (List.append_nil _).symm, by rw [Sweep.levels, paint]; rfl⟩
  | tint | board => exact ⟨_, entries_record _ _, by rw [Sweep.levels, paint]; rfl⟩
  | volume c =>
    refine ⟨[], (List.append_nil _).symm, ?_⟩
    rw [Sweep.levels, paint]
    exact (congrArg (· ++ []) (if_neg spent)).trans (List.append_nil _)

theorem soloist_sweep {s : Sweep} (ready : w.ready = f :: rest) (fault : f.fault = none)
    (todo : f.todo = .sweep s :: after) (levels : w.levels = s.levels)
    (turned : w.turn = { (w.taken f rest).performSweep { f with todo := after } s with
      actor := none }) : Soloist w f := by
  rw [performSweep] at turned
  split at turned
  · rename_i going
    obtain ⟨es, grown, left⟩ := entries_paint (w.taken f rest) going
    refine soloist_of_still _ ready turned grown (levels ▸ left) (s.paint.framesOf_marks _) rfl fault
      (mixer_paint _ _ _) ?_
    rw [todo]
    exact .samples after f.pressed going
  · rename_i spent
    obtain ⟨es, grown, left⟩ := entries_paintLast (w.taken f rest) spent
    refine soloist_of_still _ ready turned grown (levels ▸ left) s.paint.framesOf_lastMarks rfl fault
      (mixer_paintLast _ _) ?_
    rw [todo]
    exact .lands after f.pressed spent

theorem soloist_reveal {r : Reveal} (ready : w.ready = f :: rest) (fault : f.fault = none)
    (todo : f.todo = .reveal r :: after) (levels : w.levels = [])
    (turned : w.turn = { (w.taken f rest).performReveal { f with todo := after } r with
      actor := none }) : Soloist w f := by
  have same : (w.taken f rest).entries = w.entries ++ [] := (List.append_nil _).symm
  rw [performReveal] at turned
  split at turned
  · rename_i ended
    refine soloist_of_still [] ready turned same (by rw [levels]; rfl) rfl rfl fault rfl ?_
    rw [todo]
    exact .stops after (.inl ended)
  rename_i more
  split at turned
  · rename_i cut
    have stroke : Stroke w.settings f.todo f.pressed [] after f.pressed := by
      rw [todo]
      exact .stops after (.inr cut)
    cases kind : r.kind with
    | sentence skippable =>
      rw [kind] at turned
      exact soloist_of_still [] ready turned (entries_record _ _) (by rw [levels]; rfl) rfl
        rfl fault rfl stroke
    | page =>
      rw [kind] at turned
      exact soloist_of_still [] ready turned same (by rw [levels]; rfl) rfl rfl fault
        rfl stroke
  · rename_i going
    refine soloist_of_still [] ready turned same (by rw [levels]; rfl) rfl rfl fault rfl ?_
    rw [todo]
    exact .reveals after (by omega) (by simpa using going)

theorem turn_soloist (ready : w.ready = f :: rest) (spared : f.doomed = false)
    (going : w.isCancelled f = false) (fault : f.fault = none) (todo : f.todo = a :: after)
    (solo : a.isSolo = true) (sources : 0 < w.feed.sources) : Soloist w f := by
  have turned := turn_going ready spared going fault todo
  have levels := levels_of_act (act?_going ready spared going fault todo)
  cases a with
  | stage call =>
    have left : w.levels ++ [Mark.call call] = [.call call] := by rw [levels]; rfl
    refine soloist_of_still _ ready turned (entries_record _ _) left rfl rfl fault rfl ?_
    rw [todo]
    exact .shows call after f.pressed
  | listen =>
    have same : (w.taken f rest).entries = w.entries ++ [] := (List.append_nil _).symm
    refine soloist_of_still [] ready turned same (by rw [levels]; rfl) rfl rfl fault rfl ?_
    rw [todo]
    exact .listens after f.pressed
  | sweep s => exact soloist_sweep ready fault todo levels turned
  | stride s =>
    refine soloist_of_takeFrame ready todo rfl sources levels turned fun v c fr missed pulled => ?_
    cases taken : s.take? fr with
    | none => exact .inr ⟨s, after, fr, c, missed, todo, pulled, taken⟩
    | some s' =>
      obtain rfl : _ = Sweep.after _ _ := (Sweep.of_take? taken).2
      refine .inl ⟨_, rfl, ?_⟩
      rw [todo]
      cases s.lane <;> exact ⟨rfl, rfl, fault, rfl, .takes s fr after f.pressed⟩
  | reveal r => exact soloist_reveal ready fault todo levels turned
  | confirm =>
    refine soloist_of_takeFrame ready todo rfl sources levels turned fun v c fr missed pulled => ?_
    refine .inl ⟨_, rfl, ?_⟩
    have heard : Stroke w.settings (.confirm :: after) f.pressed _ _ _ := .hears fr after f.pressed
    rw [todo]
    split
    · rename_i confirmed
      rw [if_pos confirmed] at heard
      exact ⟨rfl, rfl, fault, rfl, heard⟩
    · rename_i other
      rw [if_neg other] at heard
      exact ⟨rfl, rfl, fault, rfl, heard⟩
  | silence c =>
    have grown : ((w.taken f rest).silence c).entries = w.entries ++
        [⟨some f.id, .remark (.fadedOut c)⟩, ⟨some f.id, .sound (.fadedOut c)⟩] := by
      rw [silence, entries_record, remark, entries_record, List.append_assoc]
      rfl
    refine soloist_of_still [.sound (.fadedOut c)] ready turned grown (by rw [levels]; rfl) rfl
      rfl fault rfl ?_
    rw [todo]
    exact .silences c after f.pressed
  | _ => cases solo

end

/-! ### Pulse by pulse -/

/-- The place of the fiber on this lane is never more than the depth of the feed behind. -/
def KeepsUp (w : World) (lane : Lane) (ps : List Pulse) (id : Nat) : Prop :=
  ∀ pre, pre <+: ps → ∀ f ∈ (w.pulses pre).fibers, f.id = id → ∀ c, f.cursorOn lane = some c →
    (w.pulses pre).feed.count ≤ c.taken + (w.pulses pre).feed.depth

theorem KeepsUp.of_prefix {lane : Lane} {pre : List Pulse} (h : w.KeepsUp lane ps id)
    (before : pre <+: ps) : w.KeepsUp lane pre id := fun first early => h first (early.trans before)

/-- Nobody told the fiber to stop, nor the scope it belongs to. -/
def Unstopped (w : World) (ps : List Pulse) (id : Nat) : Prop :=
  ∀ pre, pre <+: ps → ∀ f ∈ (w.pulses pre).fibers, f.id = id →
    f.doomed = false ∧ (w.pulses pre).isCancelled f = false

/-- No fiber that can be seen between these pulses is told to stop. -/
def isCalm (w : World) (ps : List Pulse) : Bool :=
  ps.inits.all fun pre => (w.pulses pre).fibers.all fun f =>
    !f.doomed && !(w.pulses pre).isCancelled f

theorem unstopped_of_isCalm (calm : w.isCalm ps = true) : w.Unstopped ps id := by
  intro pre before f among _
  have here := List.all_eq_true.mp (List.all_eq_true.mp calm pre ((List.mem_inits _ _).mpr before))
    f among
  simpa using here

/-- No more frames come than the feed holds. -/
def isEarly (w : World) (ps : List Pulse) : Bool :=
  ps.inits.all fun pre => (w.pulses pre).feed.count ≤ (w.pulses pre).feed.depth

theorem keepsUp_of_isEarly {lane : Lane} (early : w.isEarly ps = true) : w.KeepsUp lane ps id := by
  intro pre before f _ _ c _
  have here := List.all_eq_true.mp early pre ((List.mem_inits _ _).mpr before)
  exact Nat.le_add_left_of_le (of_decide_eq_true here)

/-- In its turns the fiber does to the channels what its marks say. -/
def Sounded (w : World) (id : Nat) (ps : List Pulse) : Prop :=
  ∀ pre, pre ++ [.turn] <+: ps → (w.pulses pre).OwnTurn .turn id → (w.pulses pre).turn.mixer =
    ((w.pulses pre).marksIn id .turn).foldl Mixer.heed (w.pulses pre).mixer

theorem Sounded.concat (h : w.Sounded id ps) (last : (w.pulses ps).OwnTurn p id →
      (w.pulses ps).turn.mixer =
        ((w.pulses ps).marksIn id .turn).foldl Mixer.heed (w.pulses ps).mixer) :
    w.Sounded id (ps ++ [p]) := by
  intro pre before own
  rcases List.prefix_concat_iff.mp before with whole | before
  · obtain ⟨rfl, turn⟩ := List.append_inj' whole rfl
    obtain rfl := List.cons.inj turn |>.1
    exact last own
  · exact h pre before own

/-- After these pulses, `f` has come to have `left` of its first acts left to do, as the fiber `g`. -/
structure ComesTo (w : World) (f : Fiber) (acts after : List Act) (ps : List Pulse) (g : Fiber)
    (left : List Act) : Prop where
  among : g ∈ (w.pulses ps).hands
  id : g.id = f.id
  role : g.role = f.role
  fault : g.fault = none
  todo : g.todo = left ++ after
  passage : Passage w.settings acts f.pressed (w.marks f.id ps) left g.pressed
  sounded : w.Sounded f.id ps
  follows : ∀ lane c, ReadOn lane acts → f.cursorOn lane = some c → w.KeepsUp lane ps f.id →
    Follows (w.pulses ps).feed g lane c (framesOf (w.marks f.id ps))

/-- What has become of the first acts of `f`. -/
inductive Rendered (w : World) (f : Fiber) (acts after : List Act) (ps : List Pulse) : Prop where
  | under (g : Fiber) {left : List Act} : left ≠ [] → w.ComesTo f acts after ps g left →
      Rendered w f acts after ps
  | ended (g : Fiber) {pre : List Pulse} : pre <+: ps → w.ComesTo f acts after pre g [] →
      Rendered w f acts after ps
  /-- The fiber was told to stop, or its scope was, or time overflowed. -/
  | cut (g : Fiber) {pre : List Pulse} {left : List Act} : pre ++ [.turn] <+: ps → left ≠ [] →
      w.ComesTo f acts after pre g left → (w.pulses pre).ready.head? = some g →
      g.doomed = true ∨ (w.pulses pre).isCancelled g = true ∨ (w.pulses pre).Overflows g →
      Rendered w f acts after ps

section

variable {acts after left : List Act}

theorem ComesTo.other (h : w.ComesTo f acts after ps g left) (play : (w.pulses ps).InPlay)
    (other : ¬ (w.pulses ps).OwnTurn p f.id) :
    ∃ g', g'.calm = g.calm ∧ w.ComesTo f acts after (ps ++ [p]) g' left := by
  obtain ⟨g', among, calm⟩ := mem_hands_pulse play h.among (h.id ▸ other)
  have pressed : g'.pressed = g.pressed := Fiber.eq_of_calm calm Fiber.pressed fun _ => rfl
  have marks : w.marks f.id (ps ++ [p]) = w.marks f.id ps := by
    rw [marks_concat, marksIn_other other, List.append_nil]
  have after : w.pulses (ps ++ [p]) = (w.pulses ps).pulse p := pulses_concat ..
  refine ⟨g', calm, after ▸ among, (congrArg Fiber.id calm).trans h.id,
    (congrArg Fiber.role calm).trans h.role, (congrArg Fiber.fault calm).trans h.fault,
    (congrArg Fiber.todo calm).trans h.todo, ?_, h.sounded.concat fun own => ?_,
    fun lane c read stands keeps => ?_⟩
  · rw [marks, pressed]
    exact h.passage
  · exact (other own).elim
  · rw [marks, after]
    refine (h.follows lane c read stands (keeps.of_prefix (List.prefix_append ps _))).grows (play.grows p) ?_
    cases lane
    · exact Fiber.eq_of_calm calm Fiber.cursor fun _ => rfl
    · exact Fiber.eq_of_calm calm Fiber.boardCursor fun _ => rfl

theorem ComesTo.turn (h : w.ComesTo f acts after ps g left) (play : (w.pulses ps).InPlay)
    (settings : (w.pulses ps).settings = w.settings) (solo : ∀ a ∈ acts, a.isSolo = true)
    (due : left ≠ []) (ready : (w.pulses ps).ready = g :: rest) (spared : g.doomed = false)
    (going : (w.pulses ps).isCancelled g = false) :
    (w.pulses ps).Overflows g ∨ ∃ g' left', w.ComesTo f acts after (ps ++ [.turn]) g' left' := by
  obtain ⟨a, left, rfl⟩ := List.exists_cons_of_ne_nil due
  have turned : w.pulses (ps ++ [.turn]) = (w.pulses ps).turn := pulses_concat ..
  have marks : w.marks f.id (ps ++ [.turn]) = w.marks f.id ps ++ (w.pulses ps).marksIn g.id .turn := by
    rw [marks_concat, h.id]
  have feed : (w.pulses ps).turn.feed = (w.pulses ps).feed := play.screened.feed_turn play.order
  have takes : a.isSolo = true := h.passage.isSolo solo a List.mem_cons_self
  cases turn_soloist ready spared going h.fault h.todo takes play.screened.sources_pos with
  | bursts overflows => exact .inl overflows
  | waits among silent still =>
    refine .inr ⟨g, a :: left, turned ▸ among, h.id, h.role, h.fault, h.todo, ?_,
      h.sounded.concat fun _ => ?_, fun lane c read stands keeps => ?_⟩
    · rw [marks, silent, List.append_nil]
      exact h.passage
    · rw [← h.id, silent]
      exact still
    · rw [marks, silent, List.append_nil, turned, feed]
      exact h.follows lane c read stands (keeps.of_prefix (List.prefix_append ps _))
  | plays g' among id role fault stroke advances heard =>
    rw [h.todo, settings] at stroke
    obtain ⟨left', todo', stroke⟩ := Stroke.local (a :: left) stroke (List.cons_ne_nil _ _)
    refine .inr ⟨g', left', turned ▸ among, id.trans h.id, role.trans h.role, fault, todo', ?_,
      h.sounded.concat fun _ => ?_, fun lane c read stands keeps => ?_⟩
    · rw [marks]
      exact h.passage.goes stroke
    · rw [← h.id]
      exact heard
    have before := h.follows lane c read stands (keeps.of_prefix (List.prefix_append ps _))
    rw [marks, framesOf_append, turned, feed]
    generalize framesOf ((w.pulses ps).marksIn g.id .turn) = taken at advances
    cases advances with
    | stands same =>
      rw [List.append_nil]
      exact before.grows (.refl _) (same lane)
    | @takes lane' fr c' missed here pulled place =>
      obtain rfl : lane' = lane := by
        refine h.passage.readOn read a List.mem_cons_self lane' (Act.reads?_of_lane? ?_)
        rw [h.todo] at here
        exact here
      refine before.takes ?_ pulled place
      exact keeps ps (List.prefix_append ps _) g (mem_hands.mp h.among) h.id _ before.place

theorem InPlay.settings (play : w.InPlay) (ps : List Pulse) :
    (w.pulses ps).settings = w.settings :=
  play.induction (P := fun _ x => x.settings = w.settings) rfl
    (fun _ p play same => (settings_pulse play p).trans same) ps

/-- Whatever others and the host do, the fiber does its acts one after the other. -/
theorem rendered_pulses (play : w.InPlay) (among : f ∈ w.hands) (fault : f.fault = none)
    (todo : f.todo = acts ++ after) (solo : ∀ a ∈ acts, a.isSolo = true) (ps : List Pulse) :
    w.Rendered f acts after ps := by
  induction ps using List.reverseRecOn with
  | nil =>
    have start : w.ComesTo f acts after [] f acts :=
      ⟨among, rfl, rfl, fault, todo, .begins, fun pre before => by simp at before,
        fun lane c _ stands _ => .start stands⟩
    cases acts with
    | nil => exact .ended f (List.prefix_refl _) start
    | cons => exact .under f (List.cons_ne_nil _ _) start
  | append_singleton ps p ih =>
    have longer : ps <+: ps ++ [p] := List.prefix_append ps [p]
    cases ih with
    | ended g early comes => exact .ended g (early.trans longer) comes
    | cut g early due comes head why => exact .cut g (early.trans longer) due comes head why
    | under g due comes =>
      have here := play.pulses ps
      by_cases own : (w.pulses ps).OwnTurn p f.id
      · obtain ⟨rfl, h, head, same⟩ := own
        obtain ⟨rest, ready⟩ := List.head?_eq_some_iff.mp head
        obtain rfl : h = g := here.order.eq_of_hands (mem_hands_of_ready ready) comes.among
          (same.trans comes.id.symm)
        by_cases stops : h.doomed = true ∨ (w.pulses ps).isCancelled h = true
        · exact .cut h (List.prefix_refl _) due comes head (stops.imp_right .inl)
        obtain ⟨spared, going⟩ := not_or.mp stops
        rcases comes.turn here (play.settings ps) solo due ready (Bool.eq_false_iff.mpr spared)
          (Bool.eq_false_iff.mpr going) with overflows | ⟨g', left', comes'⟩
        · exact .cut h (List.prefix_refl _) due comes head (.inr (.inr overflows))
        · cases left' with
          | nil => exact .ended g' (List.prefix_refl _) comes'
          | cons => exact .under g' (List.cons_ne_nil _ _) comes'
      · obtain ⟨g', -, comes'⟩ := comes.other here own
        exact .under g' due comes'

/-! ### What has been performed -/

/-- After these pulses `f` has become `g`. As long as it kept up, it took the frames from its place
`c` on. -/
structure Becomes (w : World) (f : Fiber) (lane : Lane) (c : Cursor) (ps : List Pulse) (g : Fiber) :
    Prop where
  among : g ∈ (w.pulses ps).hands
  id : g.id = f.id
  role : g.role = f.role
  fault : g.fault = none
  sounded : w.Sounded f.id ps
  follows : w.KeepsUp lane ps f.id →
    Follows (w.pulses ps).feed g lane c (framesOf (w.marks f.id ps))

/-- How far the fiber has come with acts that it does before it goes on with `after`. `Whole` says what
they leave when they are done, and which keys were heard by then. -/
inductive Performed (w : World) (f : Fiber) (lane : Lane) (c : Cursor)
    (Whole : List Mark → Keys → Prop) (after : List Act) (ps : List Pulse) : Prop where
  /-- If it is parked, it waits for one more frame, and has taken all there are. -/
  | under (g : Fiber) : w.Becomes f lane c ps g → (∃ more k, Whole (w.marks f.id ps ++ more) k) →
      (∀ b ∈ (w.pulses ps).blocked, b.fiber = g → b.wait = .frame ∧
        (∃ fr more k, Whole (w.marks f.id ps ++ .frame fr :: more) k) ∧
        (w.KeepsUp lane ps f.id → framesOf (w.marks f.id ps) = (w.pulses ps).feed.since c)) →
      Performed w f lane c Whole after ps
  | ended (g : Fiber) {pre : List Pulse} : pre <+: ps → w.Becomes f lane c pre g → g.todo = after →
      Whole (w.marks f.id pre) g.pressed → Performed w f lane c Whole after ps
  /-- The fiber was told to stop, or its scope was, or time overflowed. -/
  | cut (g : Fiber) {pre : List Pulse} : pre ++ [.turn] <+: ps → w.Becomes f lane c pre g →
      (w.pulses pre).ready.head? = some g → (∃ more k, Whole (w.marks f.id pre ++ more) k) →
      g.doomed = true ∨ (w.pulses pre).isCancelled g = true ∨ (w.pulses pre).Overflows g →
      Performed w f lane c Whole after ps

theorem ComesTo.becomes {lane : Lane} {c : Cursor} (h : w.ComesTo f acts after ps g left)
    (read : ReadOn lane acts) (stands : f.cursorOn lane = some c) : w.Becomes f lane c ps g :=
  ⟨h.among, h.id, h.role, h.fault, h.sounded, h.follows lane c read stands⟩

/-- A fiber that is parked in the middle wants a frame, and there is none left. -/
theorem ComesTo.parked {b : Parked} (h : w.ComesTo f acts after ps g left)
    (halted : b.Halted (w.pulses ps).feed) (same : b.fiber = g) (due : left ≠ [])
    (solo : ∀ a ∈ acts, a.isSolo = true) : b.wait = .frame ∧
      (∃ fr more k, Sounds w.settings acts f.pressed (w.marks f.id ps ++ .frame fr :: more) k) ∧
      ∀ lane c, ReadOn lane acts → f.cursorOn lane = some c → w.KeepsUp lane ps f.id →
        framesOf (w.marks f.id ps) = (w.pulses ps).feed.since c := by
  obtain ⟨a, left, rfl⟩ := List.exists_cons_of_ne_nil due
  obtain ⟨a', after', todo, halts⟩ := halted.stands
  rw [same, h.todo] at todo
  obtain ⟨rfl, -⟩ := List.cons.inj todo
  have others := h.passage.isSolo solo
  have own := others a List.mem_cons_self
  obtain ⟨suspends, lane', takes, wait⟩ : a.suspends = true ∧
      ∃ lane', a.lane? = some lane' ∧ b.wait = .frame := by
    generalize b.wait = wait at halts
    cases a <;> cases wait <;> first
      | exact ⟨rfl, _, rfl, rfl⟩
      | exact absurd halts Bool.false_ne_true
      | exact absurd own Bool.false_ne_true
  refine ⟨wait, ?_, fun lane c read stands keeps => ?_⟩
  · obtain ⟨more, k, rest⟩ := exists_sounds w.settings others g.pressed
    obtain ⟨fr, more, rfl⟩ := rest.frame_of_suspends own suspends
    exact ⟨fr, more, k, h.passage.sounds rest⟩
  · obtain rfl : lane' = lane :=
      h.passage.readOn read a List.mem_cons_self lane' (Act.reads?_of_lane? takes)
    refine (h.follows lane' c read stands keeps).eq_since fun c' place => ?_
    refine halted.read wait lane' ?_ c' (same ▸ place)
    rw [same, h.todo]
    exact takes

theorem performed_pulses (o : Opening) (before ps : List Pulse) {lane : Lane} {c : Cursor}
    {Whole : List Mark → Keys → Prop} (among : f ∈ (o.world.pulses before).hands)
    (fault : f.fault = none) (todo : f.todo = acts ++ after) (solo : ∀ a ∈ acts, a.isSolo = true)
    (read : ReadOn lane acts) (stands : f.cursorOn lane = some c)
    (whole : ∀ ms k, Sounds (o.world.pulses before).settings acts f.pressed ms k → Whole ms k) :
    (o.world.pulses before).Performed f lane c Whole after ps := by
  have play := inPlay_pulses o before
  generalize world : o.world.pulses before = w at *
  have carried {pre : List Pulse} {g : Fiber} {left : List Act}
      (h : w.ComesTo f acts after pre g left) : ∃ more k, Whole (w.marks f.id pre ++ more) k := by
    obtain ⟨more, k, sounds⟩ := h.passage.carried_on solo
    exact ⟨more, k, whole _ _ sounds⟩
  cases rendered_pulses play among fault todo solo ps with
  | under g due comes =>
    refine .under g (comes.becomes read stands) (carried comes) fun b parked same => ?_
    have halted : b.Halted (w.pulses ps).feed := by
      have all := halted_pulses o (before ++ ps)
      rw [pulses_append, world] at all
      exact all b parked
    obtain ⟨wait, ⟨fr, more, k, sounds⟩, taken⟩ := comes.parked halted same due solo
    exact ⟨wait, ⟨fr, more, k, whole _ _ sounds⟩, taken lane c read stands⟩
  | ended g early comes =>
    exact .ended g early (comes.becomes read stands) comes.todo (whole _ _ comes.passage.whole)
  | cut g early due comes head why =>
    exact .cut g early (comes.becomes read stands) head (carried comes) why

theorem grown_since (play : w.InPlay) {pre : List Pulse} {c : Cursor} (early : pre <+: ps) :
    (w.pulses pre).feed.since c <+: (w.pulses ps).feed.since c := by
  obtain ⟨post, rfl⟩ := early
  rw [pulses_append]
  exact ((play.pulses pre).grows_pulses post).since

/-- Once everybody waits, whoever kept up and was let alone is done with what the frames were enough
for, and it did that and nothing else. `alike` says that the frames leave no choice. -/
theorem Performed.through {o : Opening} {before : List Pulse} {lane : Lane} {c : Cursor}
    {Whole : List Mark → Keys → Prop} {ms : List Mark} {k : Keys}
    (h : (o.world.pulses before).Performed f lane c Whole after ps)
    (rest : ((o.world.pulses before).pulses ps).ready = [])
    (unstopped : (o.world.pulses before).Unstopped ps f.id)
    (keeps : (o.world.pulses before).KeepsUp lane ps f.id)
    (fits : ((o.world.pulses before).pulses ps).feed.total.nanos < Span.limit)
    (alike : ∀ ms k ms' k', Whole ms k → Whole ms' k' → framesOf ms <+: framesOf ms' → ms = ms')
    (whole : Whole ms k)
    (first : framesOf ms <+: ((o.world.pulses before).pulses ps).feed.since c) :
    ∃ pre g, pre <+: ps ∧ (o.world.pulses before).Becomes f lane c pre g ∧ g.todo = after ∧
      (o.world.pulses before).marks f.id pre = ms := by
  have play := inPlay_pulses o before
  have pace (pre : List Pulse) : ((o.world.pulses before).pulses pre).backstage.InPace := by
    rw [← pulses_append]
    exact inPace_pulses o (before ++ pre)
  generalize o.world.pulses before = w at *
  cases h with
  | under g becomes _ held =>
    obtain ⟨b, parked, same⟩ := parked_of_rest rest becomes.among
    obtain ⟨-, ⟨fr, more, k', longer⟩, taken⟩ := held b parked same
    have frames : framesOf (w.marks f.id ps ++ .frame fr :: more) =
        (w.pulses ps).feed.since c ++ fr :: framesOf more := by
      rw [framesOf_append, taken keeps]
      rfl
    have all : framesOf ms <+: framesOf (w.marks f.id ps ++ .frame fr :: more) :=
      frames ▸ first.trans (List.prefix_append _ _)
    rw [alike _ _ _ _ whole longer all, frames] at first
    have le := first.length_le
    rw [List.length_append, List.length_cons] at le
    omega
  | @ended g pre early becomes todo done =>
    refine ⟨pre, g, early, becomes, todo, ?_⟩
    have taken := (becomes.follows (keeps.of_prefix early)).isPrefix.trans (grown_since play early)
    rcases List.prefix_or_prefix_of_prefix taken first with shorter | longer
    · exact alike _ _ _ _ done whole shorter
    · exact (alike _ _ _ _ whole done longer).symm
  | @cut g pre early becomes head _ why =>
    have before : pre <+: ps := (List.prefix_append pre [.turn]).trans early
    obtain ⟨spared, going⟩ := unstopped pre before g (mem_hands.mp becomes.among) becomes.id
    rcases why with doomed | cancelled | ⟨s, after', fr, c', missed, todo, pulled, overflow⟩
    · rw [spared] at doomed
      cases doomed
    · rw [going] at cancelled
      cases cancelled
    · have bounded : (w.pulses pre).feed.total.nanos < Span.limit := by
        obtain ⟨post, rfl⟩ := before
        rw [pulses_append] at fits
        exact Nat.lt_of_le_of_lt ((play.pulses pre).grows_pulses post).total_le fits
      have among : .stride s ∈ g.todo := todo ▸ List.mem_cons_self
      exact absurd overflow (take?_of_inPace (pace pre g becomes.among) among pulled bounded)

end

end World

end SceneScript
