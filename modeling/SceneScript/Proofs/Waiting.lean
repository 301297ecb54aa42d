import SceneScript.Proofs.Readers
/-!
What fibers wait for. Six acts make a fiber wait, each for one thing (`turn_parks`). Whoever waits
for a time waits for one that is to come, so time only goes on, and every performance falls into
pulses (`pulses_after`).
-/

namespace SceneScript

namespace World

/-- What a fiber may wait for when it does an act. -/
def Awaits (w : World) : Act → Wait → Prop
  | .finish _, .permit | .stride _, .frame | .confirm, .frame => True
  | .answer .., .answer _ | .enterScene _, .scene => True
  | .count .., .time due => w.now < due
  | _, _ => False

/-- Who waits in `x` waited in `w` already. -/
def Rests (w x : World) : Prop :=
  ∀ b ∈ x.blocked, ∃ b' ∈ w.blocked, b'.wait = b.wait ∧ b'.fiber.calm = b.fiber.calm

inductive Parks (w : World) (a : Act) (x : World) : Prop where
  | goes : Rests w x → Parks w a x
  | waits (wait : Wait) (f : Fiber) : w.Awaits a wait → x.blocked = w.blocked ++ [⟨wait, f⟩] →
      Parks w a x

variable {w w₁ x : World} {f : Fiber} {a : Act} {p : Pulse}

theorem rests_of_eq (same : x.blocked = w.blocked) : Rests w x :=
  fun b among => ⟨b, same ▸ among, rfl, rfl⟩

theorem Keeps.resumes (kept : Keeps False w w₁) (f : Fiber) :
    Parks w a (w₁.resume f) :=
  .goes kept.blocked

theorem parks_resume (w : World) (f : Fiber) (a : Act) : Parks w a (w.resume f) :=
  .goes (rests_of_eq rfl)

section

variable {lane : Lane} {act : Act} {next : World → Fiber → Frame → World}
  (goes : ∀ (w₁ : World) (f : Fiber) (fr : Frame), w₁.blocked = w.blocked → Rests w₁ (next w₁ f fr))

include goes

theorem rests_takeFrame (fed : w.feed.pull (f.place w.feed lane) ≠ .waiting) :
    Rests w (w.takeFrame f lane act next) := by
  unfold takeFrame
  split
  · exact absurd ‹_› fed
  · exact rests_of_eq rfl
  · rename_i fr c missed _
    have same : ((w.lagged missed).record (.took fr)).blocked = w.blocked := by
      unfold lagged
      split <;> rfl
    intro b among
    obtain ⟨b', among', kept⟩ := goes _ _ fr same b among
    exact ⟨b', same ▸ among', kept⟩

theorem parks_takeFrame (awaits : w.Awaits a .frame) : Parks w a (w.takeFrame f lane act next) := by
  by_cases fed : w.feed.pull (f.place w.feed lane) = .waiting
  · have fed : w.feed.pull ((f.cursorOn lane).getD w.feed.subscribe) = .waiting := fed
    unfold takeFrame
    rw [fed]
    exact .waits .frame _ awaits rfl
  · exact .goes (rests_takeFrame goes fed)

end

theorem rests_performSweep (w : World) (f : Fiber) (s : Sweep) : Rests w (w.performSweep f s) := by
  unfold performSweep
  split
  · exact (keeps_paint w _ _ : Keeps False w _).blocked
  · exact (keeps_paintLast w _ : Keeps False w _).blocked

theorem rests_strided (w : World) (f : Fiber) (s : Sweep) (fr : Frame) :
    Rests w (match s.take? fr with
      | some s => w.resume (f.first [.sweep s])
      | none => w.conclude f (.panicked overflowText)) := by
  split
  · exact rests_of_eq rfl
  · exact (keeps_conclude_any w f _).blocked

theorem parks_performStride (w : World) (f : Fiber) (s : Sweep) :
    Parks w (.stride s) (w.performStride f s) :=
  parks_takeFrame (fun w f fr _ => rests_strided w f s fr) trivial

theorem rests_performStride {s : Sweep} {after : List Act} (todo : f.todo = .stride s :: after)
    (fed : w.starves f = false) : Rests w (w.performStride { f with todo := after } s) := by
  refine rests_takeFrame (fun w f fr _ => rests_strided w f s fr) fun waiting => ?_
  have waiting : w.feed.pull ((f.cursorOn s.lane).getD w.feed.subscribe) = .waiting := waiting
  rw [starves, todo] at fed
  simp only [waiting] at fed
  cases fed

theorem parks_performReveal (w : World) (f : Fiber) (r : Reveal) :
    Parks w (.reveal r) (w.performReveal f r) := by
  unfold performReveal
  split
  · exact parks_resume w f _
  split
  · split
    · exact (keeps_remark w _).resumes f
    · exact parks_resume w f _
  · exact parks_resume w _ _

theorem parks_afterCall {α : Type} (kept : Keeps False w w₁) (f : Fiber) (kind : CallbackKind)
    (index : Nat) (an : Answer α) (next : α → Fiber) :
    Parks w a (w₁.afterCall f kind index an next) := by
  cases an with
  | value x => exact kept.resumes (next x)
  | panicked text => exact .goes (kept.trans (keeps_conclude_any w₁ f _)).blocked
  | unknown => exact kept.resumes _

/-- Acts that only work and go on, or do not go on at all. -/
theorem parks_called {α : Type} {called : World × Answer α} (kept : Keeps False w called.1)
    (f : Fiber) (kind : CallbackKind) (index : Nat) (reply : Option Reply) (next : α → Fiber) :
    Parks w a ((called.1.noteReply reply).afterCall f kind index called.2 next) :=
  parks_afterCall (kept.trans (keeps_noteReply _ _)) f kind index called.2 next

theorem keeps_callPredicate (w : World) (index : Nat) :
    Keeps False w (w.callPredicate index).1 := by
  unfold callPredicate
  split
  · exact .refl w
  · exact keeps_untracked ..

theorem keeps_callSelector (w : World) (index : Nat) :
    Keeps False w (w.callSelector index).1 := by
  unfold callSelector
  split
  · exact .refl w
  · exact keeps_untracked ..

theorem keeps_callAction (w : World) (index : Nat) : Keeps False w (w.callAction index).1 := by
  unfold callAction
  split
  · exact .refl w
  · exact keeps_runEffects w _

theorem parks_performGoto (w : World) (f : Fiber) (label : String) :
    Parks w (.goto label) (w.performGoto f label) := by
  unfold performGoto
  split
  · split
    · exact (keeps_remark w _).resumes _
    · exact parks_resume w _ _
  · exact parks_resume w f _

theorem parks_performOffer (w : World) (f : Fiber) (options : List String) :
    Parks w (.offer options) (w.performOffer f options) := by
  unfold performOffer
  split
  · exact parks_resume w _ _
  · exact .goes (rests_of_eq rfl)

theorem parks_performAnswer (w : World) (f : Fiber) (receiver : Nat) (options : List String) :
    Parks w (.answer receiver options) (w.performAnswer f receiver options) := by
  unfold performAnswer
  split
  · exact .waits (.answer receiver) _ trivial rfl
  · exact .goes (rests_of_eq rfl)
  · exact parks_resume w _ _

theorem parks_performCount (w : World) (f : Fiber) (timer : Nat) (due : Option Span) :
    Parks w (.count timer due) (w.performCount f timer due) := by
  unfold performCount
  split
  · exact parks_resume w f _
  dsimp only
  split
  · exact (keeps_timeOut w _).resumes f
  split
  · exact (keeps_remark w _).resumes f
  split
  · exact .goes (rests_of_eq rfl)
  · rename_i later
    exact .waits (.time _) _ (Nat.lt_of_not_le later) rfl

theorem parks_performLoad (w : World) (f : Fiber) (job : SceneJob) :
    Parks w (.load job) (w.performLoad f job) := by
  unfold performLoad
  split
  · exact .goes (rests_of_eq rfl)
  · exact parks_resume w _ _
  · split <;> exact .goes (rests_of_eq rfl)

theorem parks_performEnterScene (w : World) (f : Fiber) (scene : String) :
    Parks w (.enterScene scene) (w.performEnterScene f scene) := by
  have kept : Keeps False w (w.spendRelease.enterScene scene).1 :=
    (keeps_spendRelease w).trans (keeps_enterScene _ scene)
  unfold performEnterScene
  split
  · exact .waits .scene _ trivial rfl
  split
  · rename_i h
    exact (h ▸ kept).resumes f
  · rename_i h
    exact (h ▸ kept).resumes _

theorem parks_performHush (w : World) (f : Fiber) (channel : Channel) (span : Span) :
    Parks w (.hush channel span) (w.performHush f channel span) := by
  have kept : Keeps False w (w.fadeOut channel span).1 := keeps_fadeOut w channel span
  unfold performHush
  split
  · rename_i h
    exact (h ▸ kept).resumes f
  · rename_i h
    exact ((h ▸ kept).trans (keeps_remark _ _)).resumes f

theorem parks_performHushMusic (w : World) (f : Fiber) (span : Span) :
    Parks w (.hushMusic span) (w.performHushMusic f span) := by
  have kept : Keeps False w (w.fadeOut .bgm span).1 := keeps_fadeOut w .bgm span
  unfold performHushMusic
  split
  · rename_i h
    exact (h ▸ kept).resumes f
  · rename_i h
    exact ((h ▸ kept).trans (keeps_remark _ _)).resumes f

theorem perform_parks (w : World) (f : Fiber) (a : Act) : Parks w a (w.perform f a) := by
  cases a with
  | finish an =>
    show Parks w _ (w.performFinish f an)
    unfold performFinish
    split
    · exact .waits .permit _ trivial rfl
    · refine .goes (rests_of_eq ?_)
      dsimp only
      split <;> rfl
  | sweep s => exact .goes (rests_performSweep w f s)
  | stride s => exact parks_performStride w f s
  | reveal r => exact parks_performReveal w f r
  | confirm =>
    show Parks w _ (w.performConfirm f)
    exact parks_takeFrame (fun _ _ _ _ => rests_of_eq rfl) trivial
  | offer options => exact parks_performOffer w f options
  | answer receiver options => exact parks_performAnswer w f receiver options
  | branch predicate => exact parks_called (keeps_callPredicate w predicate) f _ _ _ _
  | switch selector => exact parks_called (keeps_callSelector w selector) f _ _ _ _
  | action action => exact parks_called (keeps_callAction w action) f _ _ _ _
  | goto label => exact parks_performGoto w f label
  | play channel clip pitch => exact (keeps_play w channel clip pitch).resumes f
  | hush channel span => exact parks_performHush w f channel span
  | timer c => exact (keeps_startCountdown w c).resumes f
  | stopTimer =>
    exact ((keeps_remark w _).trans (keeps_stopCountdown _)).resumes f
  | count timer due => exact parks_performCount w f timer due
  | load job => exact parks_performLoad w f job
  | hushMusic span => exact parks_performHushMusic w f span
  | enterScene scene => exact parks_performEnterScene w f scene
  | _ => exact .goes (rests_of_eq rfl)

/-- A turn makes nobody wait but the fiber whose turn it is. -/
theorem turn_parks (w : World) :
    Rests w w.turn ∨ ∃ a wait f, w.act? = some a ∧ w.Awaits a wait ∧
      w.turn.blocked = w.blocked ++ [⟨wait, f⟩] := by
  cases ready : w.ready with
  | nil =>
    refine .inl (rests_of_eq ?_)
    rw [turn, ready]
  | cons f rest =>
    rw [act?_cons ready, turn_cons ready]
    have same : (w.taken f rest).actOf? f = w.actOf? f := rfl
    rw [← same]
    generalize taken : w.taken f rest = w₁
    have concluded (o : Outcome) : Rests w₁ (w₁.conclude f o) := (keeps_conclude_any w₁ f o).blocked
    have awaits {a : Act} {wait : Wait} (h : w₁.Awaits a wait) : w.Awaits a wait := by
      rw [← taken] at h
      cases a <;> cases wait <;> exact h
    suffices h : Rests w₁ (w₁.advance f) ∨ ∃ a wait g, w₁.actOf? f = some a ∧ w₁.Awaits a wait ∧
        (w₁.advance f).blocked = w₁.blocked ++ [⟨wait, g⟩] by
      have blocked : w₁.blocked = w.blocked := taken ▸ rfl
      rcases h with rests | ⟨a, wait, g, act, h, left⟩
      · exact .inl fun b among => blocked ▸ rests b among
      · exact .inr ⟨a, wait, g, act, awaits h, blocked ▸ left⟩
    unfold advance actOf?
    split
    · exact .inl (concluded _)
    split
    · refine .inl (rests_of_eq ?_)
      unfold noteCancelled
      split <;> rfl
    split
    · unfold fetch
      split
      · split
        · exact .inl (concluded _)
        · exact .inl (rests_of_eq rfl)
      · exact .inl (concluded _)
    · exact .inl (concluded _)
    · rename_i spared going a rest' todo fault
      cases perform_parks w₁ { f with todo := rest' } a with
      | goes rests => exact .inl rests
      | waits wait g h left => exact .inr ⟨a, wait, g, by simp_all, h, left⟩
    · rename_i a rest' e _ _
      obtain ⟨w₂, f', kept, heq, -⟩ := unwind_resumes w₁ { f with todo := rest' } e a
      rw [heq]
      exact .inl kept.blocked

end World

/-! ### Dials -/

/-- What countdowns go by. -/
def Backstage.dials (b : Backstage) : Flags × Array Timer × Span := (b.flags, b.timers, b.now)

/-- Acts that turn a countdown on, off or forward. -/
def Act.dials : Act → Bool
  | .timer _ | .stopTimer | .count .. => true
  | _ => false

namespace World

variable {w x : World} {f : Fiber} {p : Pulse}

theorem dials_yield (b : Backstage) (f : Fiber) : (b.yield f).dials = b.dials := by
  unfold Backstage.yield
  split
  · split <;> rfl
  · rfl

theorem dials_cancel (b : Backstage) (c : Channel) : (b.cancel c).dials = b.dials := by
  unfold Backstage.cancel
  split <;> rfl

theorem dials_play (w : World) (c : Channel) (clip : Clip) (pitch : Float32) :
    (w.play c clip pitch).backstage.dials = w.backstage.dials := by
  rw [backstage_play]
  split
  · split
    · exact dials_cancel _ c
    · rfl
  · rfl

theorem dials_fadeOut (w : World) (c : Channel) (span : Span) :
    (w.fadeOut c span).1.backstage.dials = w.backstage.dials := by
  rw [backstage_fadeOut]
  split
  · split <;> exact dials_cancel _ c
  · rfl

theorem dials_work (w : World) {a : Act} (idle : a.dials = false) :
    (w.work a).backstage.dials = w.backstage.dials := by
  cases a with
  | sweep s =>
    show (if s.elapsed < s.span then w.paint s.share s.paint else w).backstage.dials = _
    split
    · cases s.paint <;> rfl
    · rfl
  | play c clip pitch => exact dials_play w c clip pitch
  | hush c span => exact dials_fadeOut w c span
  | hushMusic span => exact dials_fadeOut w .bgm span
  | timer | stopTimer | count => cases idle
  | _ => rfl

/-- The turn of a fiber leaves the dials alone, unless it does an act that does not. -/
theorem dials_turn (order : w.InOrder) (idle : ∀ a, w.act? = some a → a.dials = false) :
    w.turn.backstage.dials = w.backstage.dials := by
  cases ready : w.ready with
  | nil => rw [turn, ready]
  | cons f rest =>
    show _ = (w.taken f rest).backstage.dials
    cases turn_turns order ready with
    | ends _ same => exact same ▸ dials_yield _ f
    | fetches _ _ _ _ _ _ _ _ _ _ _ _ same => exact same ▸ rfl
    | @works a _ act _ _ _ works =>
      cases works with
      | goes _ _ _ same => exact same ▸ dials_work _ (idle a act)
      | takes _ _ _ _ _ same => exact same ▸ rfl
      | bursts _ _ _ same => exact same ▸ dials_yield _ _
      | falls _ same => exact same ▸ dials_yield _ _
    | @unwinds a _ _ _ _ _ _ _ _ _ _ _ _ _ same =>
      rw [same]
      cases a <;> rfl

/-- What a turn does to the dials when it is that of a fiber with such an act to do. -/
theorem dials_turn_act {a : Act} (order : w.InOrder) (act : w.act? = some a)
    (dials : a.dials = true) : ∃ f rest, w.ready = f :: rest ∧ a ∈ f.todo ∧
      w.turn.backstage.dials = ((w.taken f rest).work a).backstage.dials := by
  obtain ⟨f, rest, after, ready, -, -, todo, works⟩ := turn_act order act
  refine ⟨f, rest, ready, by simp [todo], ?_⟩
  cases works with
  | goes _ _ _ same => exact same ▸ rfl
  | takes _ lane => cases a <;> simp_all [Act.lane?, Act.dials]
  | bursts same => cases same ▸ dials
  | falls told =>
    cases a with
    | timer | stopTimer | count => cases told
    | _ => cases dials

/-! ### Time -/

/-- The time that passes in a pulse. -/
def lapse : Pulse → Span
  | .pass span => span
  | _ => .zero

theorem now_turn (order : w.InOrder) : w.turn.now = w.now := by
  by_cases idle : ∀ a, w.act? = some a → a.dials = false
  · exact congrArg (·.2.2) (dials_turn order idle)
  push Not at idle
  obtain ⟨a, act, dials⟩ := idle
  obtain ⟨f, rest, -, -, same⟩ := dials_turn_act order act (by simpa using dials)
  refine (congrArg (·.2.2) same).trans ?_
  cases a with
  | timer c => exact congrArg Backstage.now (backstage_startCountdown (w.taken f rest) c)
  | stopTimer => exact congrArg Backstage.now (backstage_stopCountdown (w.taken f rest))
  | count timer due => exact congrArg Backstage.now (backstage_countDown (w.taken f rest) timer due)
  | _ => simp [Act.dials] at dials

/-- The host leaves the dials alone but when it starts a program, ends the side effects or lets time
pass. -/
theorem dials_host (w : World) {s : HostStep} (brief : s.isBrief = true)
    (running : ∀ n, s ≠ .execute n) (sparing : s ≠ .cancelSideEffects) :
    (w.pulse (.host s brief)).backstage.dials = w.backstage.dials := by
  generalize heq : (w.pulse (.host s brief)).backstage = b
  cases heq ▸ pulse_hosts w (p := .host s brief) (by simp) with
  | stays feed now still =>
    have now : now = w.now := still (by simp)
    rw [now]
    rfl
  | executes => exact absurd rfl (running _)
  | cancels => exact absurd rfl sparing
  | plays => exact dials_play w _ _ _
  | fades => exact dials_fadeOut w _ _
  | stops =>
    rw [backstage_stopChannel]
    exact dials_cancel _ _
  | loads | aborts => rfl

theorem now_pulse (order : w.InOrder) (p : Pulse) : (w.pulse p).now = w.now + lapse p := by
  cases p with
  | turn => exact now_turn order
  | publish | pass => rfl
  | host s brief =>
    show (w.pulse (.host s brief)).backstage.now = w.now
    by_cases running : ∃ n, s = .execute n
    · obtain ⟨n, rfl⟩ := running
      rcases backstage_executeNumber w n with ⟨e, -, same⟩ | ⟨q, -, -, same⟩
      · exact congrArg Backstage.now same
      · refine (congrArg Backstage.now same).trans ?_
        exact congrArg Backstage.now (backstage_renewScope w)
    by_cases sparing : s = .cancelSideEffects
    · subst sparing
      exact congrArg Backstage.now (backstage_cancelSideEffects w)
    · exact congrArg (·.2.2) (dials_host w brief (fun n same => running ⟨n, same⟩) sparing)

theorem settings_pulse (play : w.InPlay) (p : Pulse) : (w.pulse p).settings = w.settings := by
  by_cases turn : p = .turn
  · subst turn
    obtain ⟨-, same | ⟨f, rest, w₁, x, ready, kept, left, heq⟩⟩ :=
      turn_cases w play.order.crewed play.order.staged.attended
    · exact congrArg World.settings same
    · rw [show w.pulse .turn = w.turn from rfl, heq]
      cases left <;> exact kept.settings
  · exact (hosted_pulse w turn).keeps.settings

/-- Whoever waits for a time waits for one to come. -/
def Punctual (w : World) : Prop := ∀ b ∈ w.blocked, ∀ due, b.wait = .time due → w.now < due

theorem Punctual.pulse (h : w.Punctual) (play : w.InPlay) (p : Pulse) : (w.pulse p).Punctual := by
  intro b among due wait
  have now := now_pulse play.order p
  by_cases turn : p = .turn
  · subst turn
    have now : (w.pulse .turn).now = w.now := now
    rw [now]
    rcases turn_parks w with rests | ⟨a, wait', f, -, awaits, left⟩
    · obtain ⟨b', among', wait', -⟩ := rests b among
      exact h b' among' due (wait'.trans wait)
    · have among : b ∈ w.turn.blocked := among
      rw [left] at among
      rcases List.mem_append.mp among with among | here
      · exact h b among due wait
      · obtain rfl := List.mem_singleton.mp here
        obtain rfl : wait' = .time due := wait
        cases a with
        | count => exact awaits
        | _ => exact awaits.elim
  cases p with
  | turn => exact absurd rfl turn
  | pass span =>
    have kept := (List.mem_filter.mp among).2
    simp only [wait, Bool.not_eq_true', decide_eq_false_iff_not] at kept
    exact Nat.lt_of_not_le kept
  | publish | host =>
    obtain ⟨b', among', wait', -⟩ := (hosted_pulse w turn).keeps.blocked b among
    rw [now]
    exact h b' among' due (wait'.trans wait)

theorem punctual_pulses (o : Opening) (ps : List Pulse) : (o.world.pulses ps).Punctual :=
  (inPlay_opening o).induction (P := fun _ w => w.Punctual) (fun _ among => nomatch among)
    (fun _ p play h => h.pulse play p) ps

/-! ### Performances -/

/-- `x` comes from `w` pulse by pulse. -/
def Pulsed (w x : World) : Prop := ∃ ps, w.pulses ps = x

theorem Pulsed.refl (w : World) : Pulsed w w := ⟨[], rfl⟩

theorem Pulsed.single (w : World) (p : Pulse) : Pulsed w (w.pulse p) := ⟨[p], rfl⟩

theorem Pulsed.trans {w' w'' : World} : Pulsed w w' → Pulsed w' w'' → Pulsed w w''
  | ⟨ps, first⟩, ⟨qs, second⟩ => ⟨ps ++ qs, by rw [pulses_append, first, second]⟩

theorem Pulsed.foldl {α : Type} {step : World → α → World} (h : ∀ w a, Pulsed w (step w a))
    (l : List α) (w : World) : Pulsed w (l.foldl step w) := by
  induction l generalizing w with
  | nil => exact .refl w
  | cons a l ih => exact (h w a).trans (ih (step w a))

theorem pulsed_turns (n : Nat) (w : World) : Pulsed w (w.turns n) := by
  induction n generalizing w with
  | zero => exact .refl w
  | succ n ih =>
    unfold turns
    split
    · exact .refl w
    · exact (Pulsed.single w .turn).trans (ih w.turn)

theorem pulsed_tick (w : World) (delta : Span) (keys : Keys) : Pulsed w (w.tick delta keys) :=
  ((pulsed_turns patience w).trans (.single _ (.publish delta keys))).trans
    (pulsed_turns patience _)

theorem pulsed_reach {time : Span} (ahead : w.now ≤ time) : Pulsed w (w.reach time) := by
  have same : w.now + time.without w.now = time := by
    have ahead : w.now.nanos ≤ time.nanos := ahead
    show Span.mk (w.now.nanos + (time.nanos - w.now.nanos)) = time
    rw [Nat.add_sub_cancel' ahead]
  refine ⟨[.pass (time.without w.now)], ?_⟩
  show w.reach (w.now + time.without w.now) = w.reach time
  rw [same]

/-- A world that is under way, and in which time only goes on. -/
structure OnTime (w : World) : Prop where
  play : w.InPlay
  punctual : w.Punctual

theorem OnTime.pulses (h : w.OnTime) (ps : List Pulse) : (w.pulses ps).OnTime :=
  h.play.induction (P := fun _ x => x.OnTime) h
    (fun _ p play h => ⟨play.pulse p, h.punctual.pulse play p⟩) ps

theorem OnTime.along (h : w.OnTime) : Pulsed w x → x.OnTime
  | ⟨ps, same⟩ => same ▸ h.pulses ps

theorem now_turns (h : w.OnTime) (n : Nat) : (w.turns n).now = w.now := by
  induction n generalizing w with
  | zero => rfl
  | succ n ih =>
    unfold turns
    split
    · rfl
    · exact (ih (h.along (.single w .turn))).trans (now_turn h.play.order)

theorem earlier_eq {sofar : Option Span} {t due : Span} (h : earlier sofar t = some due) :
    sofar = some due ∨ t = due := by
  unfold earlier at h
  split at h
  · exact .inr (Option.some.inj h)
  · split at h
    · exact .inr (Option.some.inj h)
    · exact .inl h

theorem foldl_earlier {due : Span} {step : Option Span → Parked → Option Span}
    (one : ∀ sofar b, step sofar b = sofar ∨
      ∃ t, b.wait = .time t ∧ step sofar b = earlier sofar t) (l : List Parked)
    (sofar : Option Span) (found : l.foldl step sofar = some due) :
    sofar = some due ∨ ∃ b ∈ l, b.wait = .time due := by
  induction l generalizing sofar with
  | nil => exact .inl found
  | cons b l ih =>
    rcases ih _ found with here | ⟨b', among, wait⟩
    · rcases one sofar b with same | ⟨t, wait, next⟩
      · exact .inl (same ▸ here)
      · rcases earlier_eq (next ▸ here) with same | rfl
        · exact .inl same
        · exact .inr ⟨b, List.mem_cons_self, wait⟩
    · exact .inr ⟨b', List.mem_cons_of_mem b among, wait⟩

theorem nextDue_mem {due : Span} (next : w.nextDue = some due) :
    ∃ b ∈ w.blocked, b.wait = .time due := by
  unfold nextDue at next
  have found := foldl_earlier (fun sofar b => ?_) w.blocked none next
  · rcases found with none | found
    · cases none
    · exact found
  · split
    · exact .inr ⟨_, ‹_›, rfl⟩
    · exact .inl rfl

theorem pulsed_fireTimers {goal : Span} (included : Bool) (n : Nat) (h : w.OnTime)
    (ahead : w.now ≤ goal) :
    Pulsed w (fireTimers goal included n w) ∧ (fireTimers goal included n w).now ≤ goal := by
  induction n generalizing w with
  | zero => exact ⟨.refl w, ahead⟩
  | succ n ih =>
    unfold fireTimers
    split
    · rename_i due next
      split
      · rename_i fires
        obtain ⟨b, among, wait⟩ := nextDue_mem next
        have reached : Pulsed w (w.reach due) :=
          pulsed_reach (Nat.le_of_lt (h.punctual b among due wait))
        have onTime := h.along reached
        have settled := reached.trans (pulsed_turns patience (w.reach due))
        have now : (w.reach due).settle.now = due := now_turns onTime patience
        have within : due ≤ goal := by
          rcases fires with before | ⟨-, rfl⟩
          · exact Nat.le_of_lt before
          · exact Nat.le_refl _
        obtain ⟨more, still⟩ := ih (h.along settled) (now.symm ▸ within)
        exact ⟨settled.trans more, still⟩
      · exact ⟨.refl w, ahead⟩
    · exact ⟨.refl w, ahead⟩

theorem Span.le_ceilMillis (s : Span) : s ≤ s.ceilMillis := by
  show s.nanos ≤ (s.nanos + (Span.perMilli - 1)) / Span.perMilli * Span.perMilli
  unfold Span.perMilli
  omega

theorem pulsed_passTime (h : w.OnTime) (span : Span) : Pulsed w (w.passTime span) := by
  have settled : Pulsed w w.settle := pulsed_turns patience w
  have onTime := h.along settled
  have ahead : w.settle.now ≤ (w.settle.now + span).ceilMillis :=
    Nat.le_trans (Nat.le_add_right _ _) (Span.le_ceilMillis _)
  obtain ⟨fired, still⟩ := pulsed_fireTimers true
    (w.settle.timersUntil (w.settle.now + span).ceilMillis) onTime ahead
  exact (settled.trans fired).trans (pulsed_reach still)

theorem pulsed_move (h : w.OnTime) (m : Move) : Pulsed w (w.move m) := by
  have ticked (w : World) (fr : Span × Keys) : Pulsed w (w.tick fr.1 fr.2) :=
    pulsed_tick w fr.1 fr.2
  have published (w : World) (fr : Span × Keys) : Pulsed w (w.publish fr.1 fr.2) :=
    .single w (.publish fr.1 fr.2)
  cases m with
  | turn => exact .single w .turn
  | host s =>
    cases brief : s.isBrief with
    | true => exact .single w (.host s brief)
    | false =>
      cases s with
      | tick frames => exact Pulsed.foldl ticked frames w
      | burst frames => exact Pulsed.foldl published frames w
      | sleep span => exact pulsed_passTime h span
      | _ => cases brief

theorem onTime_opening (o : Opening) : o.world.OnTime := ⟨inPlay_opening o, punctual_pulses o []⟩

theorem pulsed_after (h : w.OnTime) (ms : List Move) : Pulsed w (w.after ms) := by
  induction ms generalizing w with
  | nil => exact .refl w
  | cons m ms ih => exact (pulsed_move h m).trans (ih (h.along (pulsed_move h m)))

/-- Whatever a host does, and in whatever order fibers have their turns, comes about pulse by pulse. -/
theorem pulses_after (o : Opening) (ms : List Move) : ∃ ps, o.world.pulses ps = o.world.after ms :=
  pulsed_after (onTime_opening o) ms

theorem onTime_after (o : Opening) (ms : List Move) : (o.world.after ms).OnTime :=
  (onTime_opening o).along (pulsed_after (onTime_opening o) ms)

end World

end SceneScript
