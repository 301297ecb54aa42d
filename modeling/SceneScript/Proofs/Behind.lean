import SceneScript.Proofs.Past
/-!
Turns behind a past. A fiber does in its turn what it would do without the past, as long as nobody is
left of the past who is in its way (`perform_behind`, `advance_behind`). Only a callback that starts a
program is left out: the programs may be others.
-/

namespace SceneScript

variable {p : Past} {w : World} {f : Fiber}

/-- What the past must be like for the host to work on `w` behind it. -/
structure Past.Suits (p : Past) (w : World) : Prop where
  stopped : p.Stopped
  /-- The feed is open behind the past if it is open without it. -/
  sources : p.sources = 0 ∨ w.feed.sources ≠ 0
  /-- Permits that were granted in the past open no gate. -/
  permits : p.permits = 0 ∨ w.rig.gatedStage = false
  young : ∀ f ∈ p.ready, f.id < p.fibers
  /-- Whoever is left of the past is no run and no load. -/
  aside : ∀ f ∈ p.ready, f.watches ≠ none

/-- What the past must be like for the fibers of `w` to take their turns behind it. -/
structure Past.Fits (p : Past) (w : World) : Prop extends p.Suits w where
  clear : p.ready = []

theorem Past.Suits.of_eq {w' : World} (h : p.Suits w) (feed : w'.feed.sources = w.feed.sources)
    (rig : w'.rig = w.rig) : p.Suits w' :=
  { h with sources := feed ▸ h.sources, permits := rig ▸ h.permits }

theorem Past.Fits.of_eq {w' : World} (h : p.Fits w) (feed : w'.feed.sources = w.feed.sources)
    (rig : w'.rig = w.rig) : p.Fits w' :=
  ⟨h.toSuits.of_eq feed rig, h.clear⟩

namespace Pull

def behind (p : Past) : Pull → Pull
  | .frame f c missed => .frame (f.behind p) (c.behind p) missed
  | .waiting => .waiting
  | .closed => .closed

end Pull

theorem pull_behind (feed : Feed) (c : Cursor) (sources : p.sources = 0 ∨ feed.sources ≠ 0) :
    (feed.behind p).pull (c.behind p) = (feed.pull c).behind p := by
  have size : (feed.behind p).frames.size = p.frames.size + feed.frames.size := by
    simp [Feed.behind]
  have place : max (c.behind p).taken ((feed.behind p).frames.size - (feed.behind p).depth) =
      p.frames.size + max c.taken (feed.frames.size - feed.depth) := by
    rw [size, show (c.behind p).taken = p.frames.size + c.taken from rfl,
      show (feed.behind p).depth = feed.depth from rfl]
    omega
  have closed : (feed.behind p).sources = 0 ↔ feed.sources = 0 := by
    rw [show (feed.behind p).sources = p.sources + feed.sources from rfl]
    omega
  unfold Feed.pull
  dsimp only
  rw [place]
  have found : (feed.behind p).frames[p.frames.size + max c.taken (feed.frames.size - feed.depth)]? =
      feed.frames[max c.taken (feed.frames.size - feed.depth)]?.map (Frame.behind p) := by
    simp [Feed.behind, Array.getElem?_append_right]
  rw [found]
  cases feed.frames[max c.taken (feed.frames.size - feed.depth)]? with
  | some fr =>
    simp only [Option.map_some, Pull.behind, Cursor.behind, Nat.add_assoc, Nat.add_sub_add_left]
  | none =>
    simp only [Option.map_none, closed]
    split <;> rfl

namespace Fiber

theorem first_behind (f : Fiber) (acts : List Act) :
    (f.behind p).first (acts.map (Act.behind p)) = (f.first acts).behind p := by
  simp [first, behind]

theorem setCursor_behind (f : Fiber) (lane : Lane) (c : Cursor) :
    (f.behind p).setCursor lane (c.behind p) = (f.setCursor lane c).behind p := by
  cases lane <;> rfl

theorem cursorOn_behind (f : Fiber) (lane : Lane) :
    (f.behind p).cursorOn lane = (f.cursorOn lane).map (Cursor.behind p) := by
  cases lane <;> rfl

theorem holdsScene_behind (f : Fiber) : (f.behind p).holdsScene = f.holdsScene := by
  have kept (a : Act) : isRelease (a.behind p) = isRelease a := by cases a <;> rfl
  simp [holdsScene, behind, Function.comp_def, kept]

end Fiber

namespace Command

theorem acts_behind (settings : Settings) (page : Page) (c : Command) :
    (c.acts settings page).map (Act.behind p) = c.acts settings page := by
  cases c with
  | boxState opening => cases opening <;> rfl
  | image layer texture => cases texture <;> rfl
  | portrait place texture => cases texture <;> rfl
  | _ => rfl

end Command

theorem SceneJob.acts_behind (job : SceneJob) : job.acts.map (Act.behind p) = job.acts := by
  obtain ⟨scene, color, span, fadeMusic⟩ := job
  cases fadeMusic <;> rfl

namespace World

/-! ### The end of a fiber -/

theorem yieldScene_behind (w : World) (f : Fiber) :
    (w.behind p).yieldScene (f.behind p) = (w.yieldScene f).behind p := by
  unfold yieldScene
  rw [Fiber.holdsScene_behind]
  split <;> rfl

theorem concludeRun_behind (w : World) (o : Outcome) :
    (w.behind p).concludeRun o = (w.concludeRun o).behind p := by
  have told (r : Remark) (e : Event) (same : e.behind p = e) :
      (((w.behind p).settleIdle.remark r).emit e) = ((w.settleIdle.remark r).emit e).behind p := by
    rw [settleIdle_behind, remark_behind, ← emit_behind, same]
  cases o <;> exact told _ _ rfl

theorem conclude_behind (w : World) (f : Fiber) (o : Outcome) :
    (w.behind p).conclude (f.behind p) o = (w.conclude f o).behind p := by
  unfold conclude
  dsimp only
  rw [yieldScene_behind]
  generalize w.yieldScene f = v
  cases role : f.role with
  | run r =>
    simp only [Fiber.behind, role, Role.behind]
    rw [concludeRun_behind]
    exact record_behind _ (.outcome r.number o)
  | tween target scope =>
    simp only [Fiber.behind, role, Role.behind]
    cases o <;> first | exact remark_behind _ _ | rfl
  | countdown timer stop =>
    simp only [Fiber.behind, role, Role.behind]
  | fade channel =>
    simp only [Fiber.behind, role, Role.behind]
    have holds : (v.behind p).mixer.fades.get channel = some (p.fibers + f.id) ↔
        v.mixer.fades.get channel = some f.id := by
      rw [fade_behind]
      cases v.mixer.fades.get channel <;> simp
    simp only [holds]
    split
    · exact setFade_behind v channel none
    · rfl
  | load number =>
    simp only [Fiber.behind, role, Role.behind]
    cases o with
    | cancelled => rfl
    | completed | failed | panicked => exact record_behind _ (.loaded number _)

/-! ### Frames and sweeps -/

theorem lagged_behind (w : World) (missed : Nat) :
    (w.behind p).lagged missed = (w.lagged missed).behind p := by
  unfold lagged
  split
  · rfl
  · exact remark_behind w _

theorem park_first_behind (w : World) (wait : Wait) (f : Fiber) (acts : List Act) :
    (w.behind p).park (wait.behind p) ((f.behind p).first (acts.map (Act.behind p))) =
      (w.park wait (f.first acts)).behind p := by
  rw [Fiber.first_behind, park_behind]

theorem resume_first_behind (clear : p.ready = []) (w : World) (f : Fiber) (acts : List Act) :
    (w.behind p).resume ((f.behind p).first (acts.map (Act.behind p))) =
      (w.resume (f.first acts)).behind p := by
  rw [Fiber.first_behind, resume_behind clear]

theorem pull_cursorOn_behind (fits : p.Suits w) (f : Fiber) (lane : Lane) :
    (w.behind p).feed.pull (((f.behind p).cursorOn lane).getD (w.behind p).feed.subscribe) =
      (w.feed.pull ((f.cursorOn lane).getD w.feed.subscribe)).behind p := by
  have place : ((f.behind p).cursorOn lane).getD (w.behind p).feed.subscribe =
      ((f.cursorOn lane).getD w.feed.subscribe).behind p := by
    rw [Fiber.cursorOn_behind, show (w.behind p).feed = w.feed.behind p from rfl,
      subscribe_behind]
    cases f.cursorOn lane <;> rfl
  rw [place, show (w.behind p).feed = w.feed.behind p from rfl, pull_behind _ _ fits.sources]

theorem takeFrame_behind (fits : p.Fits w) (f : Fiber) (lane : Lane) (a : Act)
    (same : a.behind p = a) {next : World → Fiber → Frame → World}
    (goes : ∀ w f fr, next (w.behind p) (f.behind p) (fr.behind p) = (next w f fr).behind p) :
    (w.behind p).takeFrame (f.behind p) lane a next = (w.takeFrame f lane a next).behind p := by
  unfold takeFrame
  rw [pull_cursorOn_behind fits.toSuits]
  cases w.feed.pull ((f.cursorOn lane).getD w.feed.subscribe) with
  | waiting =>
    have parked := park_first_behind (p := p) w .frame f [a]
    rw [List.map_singleton, same] at parked
    exact parked
  | closed => exact resume_behind fits.clear w (f.fail .frameSourceClosed)
  | frame fr c missed =>
    simp only [Pull.behind]
    rw [lagged_behind, Fiber.setCursor_behind, ← goes]
    exact congrArg (next · _ _) (record_behind (w.lagged missed) (.took fr))

theorem paint_behind (w : World) (share : Float32) (paint : Paint) :
    (w.behind p).paint share paint = (w.paint share paint).behind p := by
  cases paint with
  | nothing => rfl
  | tint => exact stage_behind w _
  | board => exact setBoard_behind w _
  | volume => rfl

theorem paintLast_behind (w : World) (paint : Paint) :
    (w.behind p).paintLast paint = (w.paintLast paint).behind p := by
  cases paint with
  | nothing | volume => rfl
  | tint => exact stage_behind w _
  | board => exact setBoard_behind w _

theorem performSweep_behind (clear : p.ready = []) (w : World) (f : Fiber) (s : Sweep) :
    (w.behind p).performSweep (f.behind p) s = (w.performSweep f s).behind p := by
  unfold performSweep
  rw [paint_behind, paintLast_behind]
  split
  · exact resume_first_behind clear _ f [.stride s]
  · exact resume_behind clear _ { f with pressed := f.pressed.merge s.pressed }

theorem performStride_behind (fits : p.Fits w) (f : Fiber) (s : Sweep) :
    (w.behind p).performStride (f.behind p) s = (w.performStride f s).behind p := by
  refine takeFrame_behind fits f s.lane (.stride s) rfl fun w f fr => ?_
  rw [show s.take? (fr.behind p) = s.take? fr from rfl]
  cases s.take? fr with
  | some s' => exact resume_first_behind fits.clear w f [.sweep s']
  | none => exact conclude_behind w f _

/-! ### Text and choices -/

theorem performReveal_behind (clear : p.ready = []) (w : World) (f : Fiber) (r : Reveal) :
    (w.behind p).performReveal (f.behind p) r = (w.performReveal f r).behind p := by
  unfold performReveal
  rw [show (f.behind p).pressed = f.pressed from rfl,
    show (w.behind p).settings = w.settings from rfl]
  split
  · exact resume_behind clear w f
  split
  · split
    · rw [remark_behind]
      exact resume_behind clear _ f
    · exact resume_behind clear w f
  · exact resume_first_behind clear w f [.stage (r.call (r.shown + 1)),
      .sweep (.pause (r.delay w.settings)), .reveal { r with shown := r.shown + 1 }]

theorem performConfirm_behind (fits : p.Fits w) (f : Fiber) :
    (w.behind p).performConfirm (f.behind p) = (w.performConfirm f).behind p := by
  refine takeFrame_behind fits f .own .confirm rfl fun w f fr => ?_
  rw [show (fr.behind p).keys = fr.keys from rfl]
  split
  · exact resume_behind fits.clear w f
  · exact resume_first_behind fits.clear w f [.confirm]

theorem performOffer_behind (clear : p.ready = []) (w : World) (f : Fiber) (options : List String) :
    (w.behind p).performOffer (f.behind p) options = (w.performOffer f options).behind p := by
  unfold performOffer
  rw [show (w.behind p).settings = w.settings from rfl,
    show (w.behind p).slot = w.slot.behind p from rfl, offer_behind]
  split
  · exact resume_behind clear w (f.fail _)
  · exact resume_first_behind clear { w with slot := (w.slot.offer options.length).1 } f
      ([.stage (.setCursorVisible true), .stage (.showChoices options)] ++
        Command.animate .choiceBoxOpen ++ [.answer (w.slot.offer options.length).2 options])

theorem performAnswer_behind (clear : p.ready = []) (w : World) (f : Fiber) (receiver : Nat)
    (options : List String) :
    (w.behind p).performAnswer (f.behind p) (p.receipts.size + receiver) options =
      (w.performAnswer f receiver options).behind p := by
  unfold performAnswer
  rw [show (w.behind p).slot = w.slot.behind p from rfl, receipt_behind]
  cases w.slot.receipt receiver with
  | waiting => exact park_first_behind w (.answer receiver) f [.answer receiver options]
  | answered index =>
    simp only [mark_behind]
    exact resume_first_behind clear { w with slot := w.slot.mark receiver .spent } f
      [.resync, .chosen index options]
  | abandoned | spent | dropped => exact resume_behind clear w (f.fail _)

theorem performChosen_behind (clear : p.ready = []) (w : World) (f : Fiber) (index : Nat)
    (options : List String) : (w.behind p).performChosen (f.behind p) index options =
      (w.performChosen f index options).behind p := by
  unfold performChosen
  dsimp only
  rw [remark_behind, show Event.choiceMade index = (Event.choiceMade index).behind p from rfl,
    emit_behind]
  exact resume_first_behind clear _ f (Command.animate .choiceBoxClose ++
    [.stage .hideChoices, .stage (.setCursorVisible false)])

/-! ### Callbacks and jumps -/

theorem noteReply_behind (w : World) (r : Option Reply) :
    (w.behind p).noteReply r = (w.noteReply r).behind p := by
  cases r with
  | none => rfl
  | some r => exact record_behind w (.replied r)

theorem note_behind (w : World) (n : Note) : (w.behind p).note (n.behind p) = (w.note n).behind p :=
  record_behind w (.note n)

theorem callPredicate_behind (w : World) (index : Nat) : (w.behind p).callPredicate index =
    ((w.callPredicate index).1.behind p, (w.callPredicate index).2) := by
  unfold callPredicate
  rw [show (w.behind p).registry = w.registry from rfl]
  split <;> rfl

theorem callSelector_behind (w : World) (index : Nat) : (w.behind p).callSelector index =
    ((w.callSelector index).1.behind p, (w.callSelector index).2) := by
  unfold callSelector
  rw [show (w.behind p).registry = w.registry from rfl]
  split <;> rfl

theorem runEffect_behind (w : World) {e : Effect} (other : ∀ n, e ≠ .execute n) :
    (w.behind p).runEffect e = (w.runEffect e).behind p := by
  cases e with
  | note text => exact note_behind w (.text text)
  | set | add | setChosen | panic => rfl
  | execute n => exact absurd rfl (other n)
  | select index =>
    show ((w.behind p).select index).1.note (.selected (failure? ((w.behind p).select index).2)) = _
    rw [select_behind]
    exact note_behind _ (.selected _)
  | view => exact note_behind w (.viewed w.state.view w.state.command)
  | register kind =>
    exact note_behind { w with registry := (w.registry.addIdle kind).1 }
      (.registered kind (w.registry.addIdle kind).2)

theorem afterCall_behind {α : Type} (clear : p.ready = []) (w : World) (f : Fiber)
    (kind : CallbackKind) (index : Nat) (a : Answer α) {next next' : α → Fiber}
    (same : ∀ x, next' x = (next x).behind p) :
    (w.behind p).afterCall (f.behind p) kind index a next' =
      (w.afterCall f kind index a next).behind p := by
  cases a with
  | value x =>
    simp only [afterCall, same]
    exact resume_behind clear w _
  | panicked text => exact conclude_behind w f _
  | unknown => exact resume_behind clear w (f.fail _)

theorem performBranch_behind (clear : p.ready = []) (w : World) (f : Fiber) (predicate : Nat)
    (otherwise : String) : (w.behind p).performBranch (f.behind p) predicate otherwise =
      (w.performBranch f predicate otherwise).behind p := by
  unfold performBranch
  rw [callPredicate_behind]
  dsimp only
  rw [noteReply_behind]
  refine afterCall_behind clear _ f _ _ _ fun holds => ?_
  cases holds
  · exact f.first_behind [.goto otherwise]
  · rfl

theorem performSwitch_behind (clear : p.ready = []) (w : World) (f : Fiber) (selector : Nat) :
    (w.behind p).performSwitch (f.behind p) selector =
      (w.performSwitch f selector).behind p := by
  unfold performSwitch
  rw [callSelector_behind]
  dsimp only
  rw [noteReply_behind]
  exact afterCall_behind clear _ f _ _ _ fun label => f.first_behind [.goto label]

theorem performGoto_behind (clear : p.ready = []) (w : World) (f : Fiber) (label : String) :
    (w.behind p).performGoto (f.behind p) label = (w.performGoto f label).behind p := by
  unfold performGoto
  rw [show (f.behind p).role = f.role.behind p from rfl]
  cases f.role with
  | run r =>
    dsimp only [Role.behind]
    rw [show (r.behind p).program = r.program from rfl]
    cases r.program.resolve label with
    | ok place =>
      dsimp only
      rw [remark_behind]
      exact resume_behind clear _ { f with role := .run { r with pointer := place } }
    | error e => exact resume_behind clear w (f.fail e)
  | tween | countdown | fade | load => exact resume_behind clear w f

/-! ### The countdown -/

theorem modifyTimer_behind (w : World) (i : Nat) (c : Countdown) :
    (w.behind p).modifyTimer (p.timers.size + i) c = (w.modifyTimer i c).behind p := by
  have modified : (w.behind p).timers.modify (p.timers.size + i) (fun t => { t with left := c }) =
      p.timers ++ (w.timers.modify i fun t => { t with left := c }).map (Timer.behind p) := by
    refine Array.ext_getElem? fun j => ?_
    simp only [behind, Array.getElem?_modify, Array.getElem?_append, Array.getElem?_map]
    by_cases below : j < p.timers.size
    · have apart : p.timers.size + i ≠ j := by omega
      simp [below, apart]
    · obtain ⟨k, rfl⟩ := Nat.exists_eq_add_of_le (Nat.le_of_not_lt below)
      have inside : ¬ p.timers.size + k < p.timers.size := below
      by_cases same : i = k
      · simp only [same, if_neg inside, Nat.add_sub_cancel_left]
        simp [Function.comp_def, Timer.behind]
      · simp [same]
  unfold modifyTimer
  rw [modified]
  rfl

theorem isRaised_behind (w : World) (flag : Nat) :
    (w.behind p).flags.isRaised (p.flags.size + flag) = w.flags.isRaised flag :=
  Flags.isRaised_behind p.flags w.flags flag

theorem timeOut_behind (w : World) (stop : Nat) :
    (w.behind p).timeOut (p.flags.size + stop) = (w.timeOut stop).behind p := by
  unfold timeOut
  rw [isRaised_behind]
  split
  · rfl
  · dsimp only
    rw [raise_behind, remark_behind, stage_behind]
    exact emit_behind _ .countdownTimedOut

theorem performCount_behind (clear : p.ready = []) (w : World) (f : Fiber) (i : Nat)
    (due : Option Span) :
    (w.behind p).performCount (f.behind p) (p.timers.size + i) (due.map (p.now + ·)) =
      (w.performCount f i due).behind p := by
  have found : (w.behind p).timers[p.timers.size + i]? = w.timers[i]?.map (Timer.behind p) := by
    simp [behind, Array.getElem?_append_right]
  have next : (due.map (p.now + ·)).getD ((w.behind p).now + (w.behind p).settings.tickPeriod) =
      p.now + due.getD (w.now + w.settings.tickPeriod) := by
    cases due with
    | some due => rfl
    | none => exact Span.add_assoc ..
  unfold performCount
  rw [found]
  cases w.timers[i]? with
  | none => exact resume_behind clear w f
  | some t =>
    simp only [Option.map_some]
    rw [next, show (t.behind p).left = t.left from rfl,
      show (t.behind p).stop = p.flags.size + t.stop from rfl, isRaised_behind,
      show (w.behind p).now = p.now + w.now from rfl]
    simp only [Span.add_le_add_left_iff]
    generalize due.getD (w.now + w.settings.tickPeriod) = d
    split
    · rw [timeOut_behind]
      exact resume_behind clear _ f
    split
    · rw [remark_behind]
      exact resume_behind clear _ f
    split
    · rw [modifyTimer_behind, stage_behind, Span.add_assoc]
      exact resume_first_behind clear _ f [.count i (some (d + w.settings.tickPeriod))]
    · exact park_first_behind w (.time d) f [.count i (some d)]

/-! ### Scenes -/

theorem performLoad_behind (clear : p.ready = []) (w : World) (f : Fiber) (job : SceneJob) :
    (w.behind p).performLoad (f.behind p) job = (w.performLoad f job).behind p := by
  unfold performLoad
  rw [show (w.behind p).rig = w.rig from rfl, show (w.behind p).loading = w.loading from rfl]
  cases w.rig.scenes with
  | noted =>
    have noted := record_behind (p := p) w (.scene (.load job))
    dsimp only
    rw [← resume_behind clear, ← noted]
    rfl
  | failing => exact resume_behind clear w (f.fail _)
  | board gated =>
    dsimp only
    split
    · rw [remark_behind]
      exact resume_behind clear _ (f.fail _)
    · have masked := maskBoard_behind (p := p) { w with loading := true } true
      have resumed := resume_first_behind clear ({ w with loading := true }.maskBoard true) f job.acts
      rw [SceneJob.acts_behind, ← masked] at resumed
      exact resumed

theorem performHushMusic_behind (fits : p.Fits w) (f : Fiber) (span : Span) :
    (w.behind p).performHushMusic (f.behind p) span = (w.performHushMusic f span).behind p := by
  unfold performHushMusic
  rw [fadeOut_behind fits.young]
  rcases w.fadeOut .bgm span with ⟨v, _ | e⟩
  · dsimp only
    rw [remark_behind]
    exact resume_behind fits.clear _ f
  · exact resume_behind fits.clear v f

theorem performHush_behind (fits : p.Fits w) (f : Fiber) (channel : Channel) (span : Span) :
    (w.behind p).performHush (f.behind p) channel span =
      (w.performHush f channel span).behind p := by
  unfold performHush
  rw [fadeOut_behind fits.young]
  rcases w.fadeOut channel span with ⟨v, _ | e⟩
  · dsimp only
    rw [remark_behind]
    exact resume_behind fits.clear _ f
  · exact resume_behind fits.clear v f

theorem spendRelease_behind (w : World) : (w.behind p).spendRelease = w.spendRelease.behind p := by
  unfold spendRelease
  rw [show (w.behind p).rig = w.rig from rfl]
  split <;> rfl

theorem performEnterScene_behind (clear : p.ready = []) (w : World) (f : Fiber) (scene : String) :
    (w.behind p).performEnterScene (f.behind p) scene =
      (w.performEnterScene f scene).behind p := by
  unfold performEnterScene
  rw [show (w.behind p).waitsForRelease = w.waitsForRelease from rfl, spendRelease_behind,
    enterScene_behind]
  split
  · exact park_first_behind w .scene f [.enterScene scene]
  · rcases w.spendRelease.enterScene scene with ⟨v, e | _⟩
    · exact resume_behind clear v (f.fail e)
    · exact resume_behind clear v f

theorem performRelease_behind (clear : p.ready = []) (w : World) (f : Fiber) :
    (w.behind p).performRelease (f.behind p) = (w.performRelease f).behind p := by
  unfold performRelease
  rw [maskBoard_behind]
  exact resume_behind clear { w.maskBoard false with loading := false }
    { f with boardCursor := none }

theorem watchBoard_behind (w : World) (f : Fiber) :
    (w.behind p).watchBoard (f.behind p) = (w.watchBoard f).behind p := by
  unfold watchBoard
  rw [show (w.behind p).feed = w.feed.behind p from rfl, subscribe_behind]
  exact f.setCursor_behind .board _

/-! ### Acts -/

theorem performFinish_behind (fits : p.Fits w) (f : Fiber) (a : Animation) :
    (w.behind p).performFinish (f.behind p) a = (w.performFinish f a).behind p := by
  unfold performFinish
  rw [show (w.behind p).rig = w.rig from rfl,
    show (w.behind p).permits = p.permits + w.permits from rfl]
  cases gated : w.rig.gatedStage with
  | false =>
    simp only [Bool.false_and, Bool.false_eq_true, if_false, stage_behind]
    exact resume_behind fits.clear _ f
  | true =>
    have none : p.permits = 0 := by simpa [gated] using fits.permits
    simp only [Bool.true_and, if_true, none, Nat.zero_add]
    split
    · exact park_first_behind w .permit f [.finish a]
    · have spent : { w.behind p with permits := w.permits - 1 } =
          { w with permits := w.permits - 1 }.behind p := by
        simp [behind, none]
      refine (congrArg (fun v => (v.stage (.animationFinished a)).resume (f.behind p)) spent).trans ?_
      rw [stage_behind]
      exact resume_behind fits.clear _ f

theorem performTween_behind (clear : p.ready = []) (w : World) (f : Fiber) (target : Target)
    (span : Span) (start stop : Color) :
    (w.behind p).performTween (f.behind p) target span start stop =
      (w.performTween f target span start stop).behind p := by
  have spawned := spawn_behind (p := p) w (.tween target w.scope) (some w.feed.subscribe)
    [.sweep (.start .own (.tint target start stop) span)]
  rw [Option.map_some, ← subscribe_behind] at spawned
  unfold performTween
  rw [← resume_behind clear, ← spawned]
  rfl

theorem perform_behind (fits : p.Fits w) (f : Fiber) {a : Act} (other : ∀ i, a ≠ .action i) :
    (w.behind p).perform (f.behind p) (a.behind p) = (w.perform f a).behind p := by
  have clear := fits.clear
  cases a with
  | remark r =>
    simp only [perform, Act.behind, remark_behind]
    exact resume_behind clear _ f
  | stage call =>
    simp only [perform, Act.behind, stage_behind]
    exact resume_behind clear _ f
  | finish a => exact performFinish_behind fits f a
  | resync =>
    have resumed := resume_behind clear w (f.setCursor .own w.feed.subscribe)
    rw [← Fiber.setCursor_behind, ← subscribe_behind] at resumed
    exact resumed
  | sweep s => exact performSweep_behind clear w f s
  | stride s => exact performStride_behind fits f s
  | listen => exact resume_behind clear w { f with pressed := .nothing }
  | reveal r => exact performReveal_behind clear w f r
  | confirm => exact performConfirm_behind fits f
  | offer options => exact performOffer_behind clear w f options
  | answer receiver options => exact performAnswer_behind clear w f receiver options
  | chosen index options => exact performChosen_behind clear w f index options
  | branch predicate otherwise => exact performBranch_behind clear w f predicate otherwise
  | switch selector => exact performSwitch_behind clear w f selector
  | goto label => exact performGoto_behind clear w f label
  | tween target span start stop => exact performTween_behind clear w f target span start stop
  | play channel clip pitch =>
    simp only [perform, Act.behind, play_behind fits.young]
    exact resume_behind clear _ f
  | hush channel span => exact performHush_behind fits f channel span
  | action i => exact absurd rfl (other i)
  | timer c =>
    simp only [perform, Act.behind, startCountdown_behind fits.stopped]
    exact resume_behind clear _ f
  | stopTimer =>
    simp only [perform, Act.behind, remark_behind, stopCountdown_behind fits.stopped]
    exact resume_behind clear _ f
  | count i due => exact performCount_behind clear w f i due
  | load job => exact performLoad_behind clear w f job
  | loaded => exact resume_behind clear w f
  | hushMusic span => exact performHushMusic_behind fits f span
  | watchBoard =>
    simp only [perform, Act.behind, watchBoard_behind]
    exact resume_behind clear w _
  | switchScene scene =>
    have noted := record_behind (p := p) w (.scene (.switch scene))
    simp only [perform, Act.behind]
    rw [← resume_behind clear, ← noted]
    rfl
  | enterScene scene => exact performEnterScene_behind clear w f scene
  | release => exact performRelease_behind clear w f
  | clearBoard span =>
    simp only [perform, Act.behind, watchBoard_behind]
    exact resume_first_behind clear w (w.watchBoard f)
      [.sweep (.start .board (.board w.boardColor w.boardColor.a 0) span)]
  | silence channel =>
    simp only [perform, Act.behind, silence_behind]
    exact resume_behind clear _ f

theorem unwind_behind (clear : p.ready = []) (w : World) (f : Fiber) (e : Failure) (a : Act) :
    (w.behind p).unwind (f.behind p) e (a.behind p) = (w.unwind f e a).behind p := by
  cases a with
  | release => exact performRelease_behind clear w f
  | loaded scene =>
    simp only [unwind, Act.behind, remark_behind]
    exact resume_behind clear _ { f with fault := none }
  | silence channel =>
    simp only [unwind, Act.behind, remark_behind, silence_behind]
    exact resume_behind clear _ { f with fault := none }
  | _ => exact resume_behind clear w f

theorem fetch_behind (clear : p.ready = []) (w : World) (f : Fiber) :
    (w.behind p).fetch (f.behind p) = (w.fetch f).behind p := by
  unfold fetch
  cases role : f.role with
  | tween | countdown | fade | load =>
    simp only [show (f.behind p).role = f.role.behind p from rfl, role, Role.behind]
    exact conclude_behind w f _
  | run r =>
    simp only [show (f.behind p).role = f.role.behind p from rfl, role, Role.behind, Run.behind]
    cases r.program.commands[r.pointer]? with
    | none => exact conclude_behind w f _
    | some c =>
      have entered : { w.behind p with state := (w.behind p).state.enter r.pointer c } =
          { w with state := w.state.enter r.pointer c }.behind p := rfl
      have stepped : Event.stepped r.pointer c.opcode =
          (Event.stepped r.pointer c.opcode).behind p := rfl
      dsimp only
      rw [entered, remark_behind, stepped, emit_behind, ← resume_behind clear]
      refine congrArg (resume _) ?_
      simp only [Fiber.behind, Role.behind, Run.behind, Command.acts_behind]
      rfl

theorem starves_behind (fits : p.Suits w) (f : Fiber) :
    (w.behind p).starves (f.behind p) = w.starves f := by
  unfold starves
  rw [show (f.behind p).todo = f.todo.map (Act.behind p) from rfl]
  cases f.todo with
  | nil => rfl
  | cons a rest =>
    cases a with
    | stride s =>
      simp only [List.map_cons, Act.behind]
      rw [pull_cursorOn_behind fits]
      cases w.feed.pull ((f.cursorOn s.lane).getD w.feed.subscribe) <;> rfl
    | _ => rfl

theorem hasty_behind (w : World) (id : Nat) : (w.behind p).hasty (p.fibers + id) = w.hasty id := by
  show (if p.fibers + id < p.fibers then _ else w.hasty (p.fibers + id - p.fibers)) = _
  rw [if_neg (by omega), Nat.add_sub_cancel_left]

theorem isCancelled_behind (fits : p.Suits w) (f : Fiber) :
    (w.behind p).isCancelled (f.behind p) = w.isCancelled f := by
  unfold isCancelled
  cases role : f.role with
  | tween target scope =>
    simp only [show (f.behind p).role = f.role.behind p from rfl, role, Role.behind]
    have raised : (w.behind p).flags.isRaised (p.flags.size + scope) = w.flags.isRaised scope :=
      isRaised_behind w scope
    rw [raised, show (f.behind p).id = p.fibers + f.id from rfl, hasty_behind, starves_behind fits]
  | run | countdown | fade | load =>
    simp only [show (f.behind p).role = f.role.behind p from rfl, role, Role.behind]

theorem noteCancelled_behind (w : World) (f : Fiber) :
    (w.behind p).noteCancelled (f.behind p) = (w.noteCancelled f).behind p := by
  unfold noteCancelled
  cases role : f.role with
  | tween target scope =>
    simp only [show (f.behind p).role = f.role.behind p from rfl, role, Role.behind]
    exact remark_behind w _
  | run | countdown | fade | load =>
    simp only [show (f.behind p).role = f.role.behind p from rfl, role, Role.behind]

theorem advance_behind (fits : p.Fits w) (f : Fiber)
    (other : f.doomed = false → w.isCancelled f = false → f.fault = none →
      ∀ i, f.todo.head? ≠ some (.action i)) :
    (w.behind p).advance (f.behind p) = (w.advance f).behind p := by
  unfold advance
  rw [isCancelled_behind fits.toSuits, noteCancelled_behind, show (f.behind p).doomed = f.doomed from rfl]
  split
  · exact conclude_behind w f _
  rename_i spared
  split
  · rfl
  rename_i current
  have other := other (by simpa using spared) (by simpa using current)
  obtain ⟨id, role, doomed, todo, fault, cursor, boardCursor, pressed⟩ := f
  cases todo with
  | nil =>
    cases fault with
    | none => exact fetch_behind fits.clear w _
    | some e => exact conclude_behind w _ (.failed e)
  | cons a rest =>
    cases fault with
    | none =>
      have other (i : Nat) : a ≠ .action i := fun same => other rfl i (congrArg some same)
      exact perform_behind fits ⟨id, role, doomed, rest, none, cursor, boardCursor, pressed⟩ other
    | some e =>
      exact unwind_behind fits.clear w
        ⟨id, role, doomed, rest, some e, cursor, boardCursor, pressed⟩ e a

/-! ### Frames and time -/

theorem publish_behind (w : World) (delta : Span) (keys : Keys) :
    (w.behind p).publish delta keys = (w.publish delta keys).behind p := by
  have fed : (w.feed.behind p).publish delta keys = (w.feed.publish delta keys).behind p := by
    simp [Feed.publish, Feed.behind, Frame.behind, Nat.add_assoc]
  have published : ({ w with feed := w.feed.publish delta keys }.behind p).record
      (.published ⟨((w.feed.publish delta keys).behind p).count, delta, keys⟩) =
      ({ w with feed := w.feed.publish delta keys }.record
        (.published ⟨(w.feed.publish delta keys).count, delta, keys⟩)).behind p := by
    have count : ((w.feed.publish delta keys).behind p).count =
        p.frames.size + (w.feed.publish delta keys).count := by
      simp [Feed.count, Feed.behind]
    rw [count]
    exact record_behind _ (.published ⟨_, delta, keys⟩)
  unfold publish
  dsimp only
  rw [show (w.behind p).feed = w.feed.behind p from rfl, fed]
  refine (congrArg (wake · _) published).trans (wake_behind (fun b => ?_) _)
  cases wait : b.wait <;> simp [Parked.behind, Wait.behind, wait]

theorem reach_behind (w : World) (time : Span) :
    (w.behind p).reach (p.now + time) = (w.reach time).behind p := by
  refine wake_behind (fun b => ?_) { w with now := time }
  cases wait : b.wait <;> simp [Parked.behind, Wait.behind, wait, Span.add_le_add_left_iff]

theorem earlier_behind (due : Option Span) (t : Span) :
    earlier (due.map (p.now + ·)) (p.now + t) = (earlier due t).map (p.now + ·) := by
  cases due with
  | none => rfl
  | some due =>
    simp only [earlier, Option.map_some, Span.add_lt_add_left_iff]
    split <;> rfl

theorem nextDue_behind (w : World) : (w.behind p).nextDue = w.nextDue.map (p.now + ·) := by
  show List.foldl _ (none.map (p.now + ·)) (w.blocked.map (Parked.behind p)) = _
  rw [List.foldl_map, nextDue]
  refine List.foldl_hom (Option.map (p.now + ·)) fun due b => ?_
  cases wait : b.wait <;> simp [Parked.behind, Wait.behind, wait, earlier_behind]

/-! ### Steps of the host -/

theorem grantPermits_behind (w : World) (n : Nat) :
    (w.behind p).grantPermits n = (w.grantPermits n).behind p := by
  have granted : { w.behind p with permits := (w.behind p).permits + n } =
      { w with permits := w.permits + n }.behind p := by
    simp [behind, Nat.add_assoc]
  unfold grantPermits
  dsimp only
  rw [granted]
  refine wake_behind (fun b => ?_) _
  cases wait : b.wait <;> simp [Parked.behind, Wait.behind, wait]

theorem grantRelease_behind (w : World) : (w.behind p).grantRelease = w.grantRelease.behind p := by
  refine wake_behind (fun b => ?_) { w with releases := w.releases + 1 }
  cases wait : b.wait <;> simp [Parked.behind, Wait.behind, wait]

theorem spawnLoad_behind (w : World) {acts : List Act} (same : acts.map (Act.behind p) = acts) :
    (w.behind p).spawnLoad acts = ((w.spawnLoad acts).1.behind p, p.loads + w.loads) := by
  have spawned := spawn_behind (p := p) { w with loads := w.loads + 1 } (.load w.loads) none acts
  rw [same] at spawned
  exact congrArg (·, p.loads + w.loads) spawned

/-- The first fiber that plays a part, which none of the past does: the one the host means by its
number. -/
theorem find?_behind {q q' : Fiber → Bool} (past : ∀ f ∈ p.ready, q' f = false) (w : World)
    (same : ∀ f, q' (f.behind p) = q f) :
    (w.behind p).fibers.find? q' = (w.fibers.find? q).map (Fiber.behind p) := by
  have fibers : (w.behind p).fibers = p.ready ++ w.fibers.map (Fiber.behind p) := by
    simp [World.fibers, behind, Parked.behind, Function.comp_def]
  have none : p.ready.find? q' = none := by simpa using past
  rw [fibers, List.find?_append, none, Option.none_or, List.find?_map]
  exact congrArg (Option.map _) (congrArg (List.find? · _) (funext same))

theorem runFiber?_behind (aside : ∀ f ∈ p.ready, f.watches ≠ none) (w : World) (number : Nat) :
    (w.behind p).runFiber? (p.runs + number) = (w.runFiber? number).map (Fiber.behind p) := by
  refine find?_behind (fun f member => ?_) w fun f => ?_
  · have watches := aside f member
    cases role : f.role <;> simp_all [Fiber.watches]
  · cases role : f.role <;> simp [Fiber.behind, Role.behind, Run.behind, role]

theorem loadFiber?_behind (aside : ∀ f ∈ p.ready, f.watches ≠ none) (w : World) (number : Nat) :
    (w.behind p).loadFiber? (p.loads + number) = (w.loadFiber? number).map (Fiber.behind p) := by
  refine find?_behind (fun f member => ?_) w fun f => ?_
  · have watches := aside f member
    cases role : f.role <;> simp_all [Fiber.watches]
  · cases role : f.role <;> simp [Fiber.behind, Role.behind, role]

theorem abortFiber_behind (young : ∀ f ∈ p.ready, f.id < p.fibers) (w : World)
    (f : Option Fiber) : (w.behind p).abortFiber (f.map (Fiber.behind p)) =
      ((w.abortFiber f).1.behind p, (w.abortFiber f).2) := by
  cases f with
  | none => rfl
  | some f => exact congrArg (·, true) (abort_behind young w f.id)

theorem dropClock_behind (sources : p.sources = 0) (w : World) :
    (w.behind p).dropClock = w.dropClock.behind p := by
  have same : (w.behind p).feed.sources = w.feed.sources := by
    simp [behind, Feed.behind, sources]
  unfold dropClock
  rw [same, show (w.behind p).rig = w.rig from rfl]
  split
  · simp [behind, Feed.behind, sources]
  · rfl

end World

namespace HostStep

/-- A step with the runs and loads it is about numbered on from the past. -/
def behind (p : Past) : HostStep → HostStep
  | .abort run => .abort (p.runs + run)
  | .abortLoad number => .abortLoad (p.loads + number)
  | s => s

/-- What the numbers in the host's answer begin with. -/
def past (p : Past) : HostStep → Nat
  | .execute _ => p.runs
  | .tick _ | .burst _ => p.frames.size
  | .load _ | .boardIn _ _ | .boardOut _ => p.loads
  | _ => 0

end HostStep

namespace HostReply

def behind (n : Nat) : HostReply → HostReply
  | .number k => .number (n + k)
  | r => r

end HostReply

end SceneScript
