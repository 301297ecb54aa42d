import SceneScript.Proofs.Backstage
import SceneScript.Proofs.Pulse
/-!
What a turn does behind the stage (`advance_works`). A fiber is done, fetches a command, takes a
frame, or does the work of its act; the acts it puts in the place of that one are listed once.
-/

namespace SceneScript

namespace Act

/-- Acts that take a frame, and the lane they take it on. -/
def lane? : Act → Option Lane
  | .stride s => some s.lane
  | .confirm => some .own
  | _ => none

/-- What a fiber that does an act may put in its place, unless an error comes up. -/
def Puts : Act → List Act → Prop
  | .finish a, new => new = [] ∨ new = [.finish a]
  | .sweep s, new => new = [] ∨ s.elapsed < s.span ∧ new = [.stride s]
  | .stride s, new => new = [.stride s] ∨ ∃ s' : Sweep, s'.Of s ∧ new = [.sweep s']
  | .reveal r, new => new = [] ∨ r.shown < r.last ∧ ∃ call span,
      new = [.stage call, .sweep (.pause span), .reveal { r with shown := r.shown + 1 }]
  | .confirm, new => new = [] ∨ new = [.confirm]
  | .offer options, new => ∃ receiver, new = opening receiver options
  | .answer receiver options, new => new = [.answer receiver options] ∨ ∃ index,
      new = [.resync, .chosen index options]
  | .chosen .., new => new = closing
  | .branch _ otherwise, new => new = [] ∨ new = [.goto otherwise]
  | .switch _, new => ∃ label, new = [.goto label]
  | .count i _, new => new = [] ∨ ∃ due, new = [.count i due]
  | .load job, new => new = [] ∨ new = job.acts
  | .enterScene scene, new => new = [] ∨ new = [.enterScene scene]
  | .clearBoard _, new => ∃ color start stop span,
      new = [.sweep (.start .board (.board color start stop) span)]
  | _, new => new = []

/-- The same fiber when it has done an act. An error puts nothing in its place. -/
structure Onward (a : Act) (f f' : Fiber) : Prop where
  id : f'.id = f.id
  doomed : f'.doomed = f.doomed
  isRun : f'.isRun = f.isRun
  role : f.isRun = false → f'.role = f.role
  goes : (f'.fault = f.fault ∧ ∃ new, f'.todo = new ++ f.todo ∧ a.Puts new) ∨
    (∃ e, f'.fault = some e) ∧ f'.todo = f.todo

theorem Onward.of_eq {a : Act} {f f' : Fiber} (id : f'.id = f.id) (doomed : f'.doomed = f.doomed)
    (role : f'.role = f.role) (fault : f'.fault = f.fault) {new : List Act}
    (todo : f'.todo = new ++ f.todo) (puts : a.Puts new) : a.Onward f f' where
  id := id
  doomed := doomed
  isRun := by rw [Fiber.isRun, Fiber.run?, role]; rfl
  role := fun _ => role
  goes := .inl ⟨fault, new, todo, puts⟩

theorem Onward.fails (a : Act) (f : Fiber) (e : Failure) : a.Onward f (f.fail e) where
  id := rfl
  doomed := rfl
  isRun := rfl
  role := fun _ => rfl
  goes := .inr ⟨⟨e, rfl⟩, rfl⟩

/-- Where a fiber stands in the feed when it has done an act, if it took no frame. -/
def place (feed : Feed) (cursor : Option Cursor) : Act → Option Cursor
  | .resync => some feed.subscribe
  | _ => cursor

/-- The same for the place of a scene change. -/
def boardPlace (feed : Feed) (cursor : Option Cursor) : Act → Option Cursor
  | .watchBoard | .clearBoard _ => some feed.subscribe
  | .release => none
  | _ => cursor

end Act

def Fiber.place (f : Fiber) (feed : Feed) (lane : Lane) : Cursor :=
  (f.cursorOn lane).getD feed.subscribe

def Answer.isPanic {α : Type} : Answer α → Bool
  | .panicked _ => true
  | _ => false

namespace World

/-- What the turn of a countdown does to the countdowns. -/
def countDown (w : World) (timer : Nat) (due : Option Span) : World :=
  match w.timers[timer]? with
  | none => w
  | some t =>
    if t.left.isExpired then w.timeOut t.stop
    else if w.flags.isRaised t.stop then w
    else if due.getD (w.now + w.settings.tickPeriod) ≤ w.now then w.modifyTimer timer t.left.tick.1
    else w

theorem countDown_cases (w : World) (timer : Nat) (due : Option Span) :
    w.countDown timer due = w ∨ ∃ t, w.timers[timer]? = some t ∧
      (t.left.isExpired = true ∧ w.countDown timer due = w.timeOut t.stop ∨
        t.left.isExpired = false ∧ w.flags.isRaised t.stop = false ∧
          w.countDown timer due = w.modifyTimer timer t.left.tick.1) := by
  unfold countDown
  cases found : w.timers[timer]? with
  | none => exact .inl rfl
  | some t =>
    dsimp only
    split
    · exact .inr ⟨t, rfl, .inl ⟨‹_›, rfl⟩⟩
    split
    · exact .inl rfl
    split
    · exact .inr ⟨t, rfl, .inr ⟨Bool.eq_false_iff.mpr ‹_›, Bool.eq_false_iff.mpr ‹_›, rfl⟩⟩
    · exact .inl rfl

theorem backstage_timeOut (w : World) (stop : Nat) :
    (w.timeOut stop).backstage = { w.backstage with flags := (w.timeOut stop).flags } := by
  unfold timeOut
  split
  · rfl
  · rw [backstage_emit, backstage_stage, backstage_remark, backstage_raise]
    rfl

theorem timers_timeOut (w : World) (stop : Nat) : (w.timeOut stop).timers = w.timers :=
  congrArg Backstage.timers (backstage_timeOut w stop)

theorem timers_modifyTimer (w : World) (timer : Nat) (c : Countdown) :
    (w.modifyTimer timer c).timers = w.timers.modify timer fun t => { t with left := c } := rfl

theorem backstage_countDown (w : World) (timer : Nat) (due : Option Span) :
    (w.countDown timer due).backstage = { w.backstage with
      flags := (w.countDown timer due).flags, timers := (w.countDown timer due).timers } := by
  rcases countDown_cases w timer due with same | ⟨t, -, ⟨-, out⟩ | ⟨-, -, ticked⟩⟩
  · rw [same]
    rfl
  · rw [out, backstage_timeOut, timers_timeOut]
    rfl
  · rw [ticked]
    rfl

/-- The work of an act behind the stage. -/
def work (w : World) : Act → World
  | .sweep s => if s.elapsed < s.span then w.paint s.share s.paint else w
  | .tween target span start stop =>
    w.spawn (.tween target w.scope) (some w.feed.subscribe)
      [.sweep (.start .own (.tint target start stop) span)]
  | .play channel clip pitch => w.play channel clip pitch
  | .hush channel span => (w.fadeOut channel span).1
  | .hushMusic span => (w.fadeOut .bgm span).1
  | .silence channel => w.silence channel
  | .timer c => w.startCountdown c
  | .stopTimer => w.stopCountdown
  | .count timer due => w.countDown timer due
  | _ => w

/-- The callback that the act calls panics. -/
def callPanics (w : World) : Act → Bool
  | .branch predicate _ => (w.callPredicate predicate).2.isPanic
  | .switch selector => (w.callSelector selector).2.isPanic
  | .action action => (w.callAction action).2.isPanic
  | _ => false

/-- What a fiber that does an act leaves behind the stage. -/
inductive Works (w : World) (f : Fiber) (a : Act) (x : World) : Prop where
  | goes (f' : Fiber) : a.Onward f f' → f'.cursor = a.place w.feed f.cursor →
      x.backstage = (w.work a).backstage.join f' →
      f'.boardCursor = a.boardPlace w.feed f.boardCursor →
      (∀ s, a = .stride s → f'.todo = .stride s :: f.todo ∨ f'.todo = f.todo) → Works w f a x
  | takes {lane : Lane} {fr : Frame} {c : Cursor} {missed : Nat} (f' : Fiber) :
      a.lane? = some lane → w.feed.pull (f.place w.feed lane) = .frame fr c missed →
      a.Onward f f' → f'.cursor = (if lane = .own then some c else f.cursor) →
      x.backstage = (w.backstage.write ⟨w.actor, .took fr⟩).join f' →
      f'.boardCursor = (if lane = .board then some c else f.boardCursor) →
      (∀ s, a = .stride s → ∃ s', s.take? fr = some s' ∧ f'.todo = .sweep s' :: f.todo) →
      Works w f a x
  | bursts {s : Sweep} {fr : Frame} {c : Cursor} {missed : Nat} : a = .stride s →
      w.feed.pull (f.place w.feed s.lane) = .frame fr c missed → s.take? fr = none →
      x.backstage = (w.backstage.write ⟨w.actor, .took fr⟩).yield f → Works w f a x
  | falls : a.isAside = false → x.backstage = w.backstage.yield f → w.callPanics a = true →
      Works w f a x

variable {w w₁ : World} {f f' g : Fiber} {a : Act}

theorem works_of_resume (id : f'.id = f.id) (doomed : f'.doomed = f.doomed)
    (role : f'.role = f.role) (fault : f'.fault = f.fault) {new : List Act}
    (todo : f'.todo = new ++ f.todo) (puts : a.Puts new)
    (cursor : f'.cursor = a.place w.feed f.cursor)
    (worked : w₁.backstage = (w.work a).backstage)
    (board : f'.boardCursor = a.boardPlace w.feed f.boardCursor)
    (strides : ∀ s, a = .stride s → new = [.stride s] ∨ new = []) :
    Works w f a (w₁.resume f') := by
  refine .goes f' (.of_eq id doomed role fault todo puts) cursor ?_ board fun s same => ?_
  · rw [backstage_resume, worked]
  · rcases strides s same with rfl | rfl
    · exact .inl todo
    · exact .inr todo

theorem works_resume (puts : a.Puts []) (place : a.place w.feed f.cursor = f.cursor)
    (worked : w₁.backstage = (w.work a).backstage)
    (board : a.boardPlace w.feed f.boardCursor = f.boardCursor) :
    Works w f a (w₁.resume f) :=
  works_of_resume rfl rfl rfl rfl rfl puts place.symm worked board.symm fun _ _ => .inr rfl

theorem works_first {new : List Act} (puts : a.Puts new)
    (place : a.place w.feed f.cursor = f.cursor)
    (worked : w₁.backstage = (w.work a).backstage)
    (board : a.boardPlace w.feed f.boardCursor = f.boardCursor)
    (strides : ∀ s, a = .stride s → new = [.stride s] ∨ new = []) :
    Works w f a (w₁.resume (f.first new)) :=
  works_of_resume rfl rfl rfl rfl rfl puts place.symm worked board.symm strides

theorem works_park {new : List Act} (wait : Wait) (puts : a.Puts new)
    (place : a.place w.feed f.cursor = f.cursor)
    (worked : w₁.backstage = (w.work a).backstage)
    (board : a.boardPlace w.feed f.boardCursor = f.boardCursor)
    (strides : ∀ s, a = .stride s → new = [.stride s]) :
    Works w f a (w₁.park wait (f.first new)) := by
  refine .goes (f.first new) (.of_eq rfl rfl rfl rfl rfl puts) place.symm ?_ board.symm
    fun s same => .inl ?_
  · rw [backstage_park, worked]
  · rw [Fiber.first, strides s same]
    rfl

theorem works_fail (e : Failure) (place : a.place w.feed f.cursor = f.cursor)
    (worked : w₁.backstage = (w.work a).backstage)
    (board : a.boardPlace w.feed f.boardCursor = f.boardCursor) :
    Works w f a (w₁.resume (f.fail e)) := by
  refine .goes (f.fail e) (.fails a f e) place.symm ?_ board.symm fun _ _ => .inr rfl
  rw [backstage_resume, worked]

/-! ### Frames -/

theorem cursor_setCursor (f : Fiber) (lane : Lane) (c : Cursor) :
    (f.setCursor lane c).cursor = if lane = .own then some c else f.cursor := by
  cases lane <;> rfl

theorem boardCursor_setCursor (f : Fiber) (lane : Lane) (c : Cursor) :
    (f.setCursor lane c).boardCursor = if lane = .board then some c else f.boardCursor := by
  cases lane <;> rfl

theorem backstage_took (w : World) (missed : Nat) (fr : Frame) :
    ((w.lagged missed).record (.took fr)).backstage =
      w.backstage.write ⟨w.actor, .took fr⟩ := by
  have actor : (w.lagged missed).actor = w.actor := by
    unfold lagged
    split <;> rfl
  rw [backstage_record_logged _ rfl, backstage_lagged, actor]

theorem works_takeFrame {lane : Lane} {next : World → Fiber → Frame → World}
    (stays : a.Puts [a]) (place : a.place w.feed f.cursor = f.cursor)
    (board : a.boardPlace w.feed f.boardCursor = f.boardCursor) (worked : w.work a = w)
    (goes : ∀ (w₁ : World) (fr : Frame) (c : Cursor) (missed : Nat),
      w.feed.pull (f.place w.feed lane) = .frame fr c missed →
      w₁.backstage = w.backstage.write ⟨w.actor, .took fr⟩ →
      Works w f a (next w₁ (f.setCursor lane c) fr)) :
    Works w f a (w.takeFrame f lane a next) := by
  unfold takeFrame
  split
  · exact works_park .frame stays place (by rw [worked]) board fun s same => by rw [same]
  · exact works_fail .frameSourceClosed place (by rw [worked]) board
  · rename_i fr c missed pulled
    exact goes _ fr c missed pulled (backstage_took w missed fr)

theorem works_performStride (w : World) (f : Fiber) (s : Sweep) :
    Works w f (.stride s) (w.performStride f s) := by
  refine works_takeFrame (.inl rfl) rfl rfl rfl fun w₁ fr c missed pulled took => ?_
  obtain ⟨id, role, todo, fault⟩ := setCursor_fields f s.lane c
  have doomed : (f.setCursor s.lane c).doomed = f.doomed := by cases s.lane <;> rfl
  split
  · rename_i s' taken
    have puts : (Act.stride s).Puts [.sweep s'] :=
      .inr ⟨s', Sweep.Of.take ⟨rfl, rfl, rfl⟩ taken, rfl⟩
    have next : ((f.setCursor s.lane c).first [.sweep s']).todo = .sweep s' :: f.todo := by
      show _ :: (f.setCursor s.lane c).todo = _
      rw [todo]
    refine .takes ((f.setCursor s.lane c).first [.sweep s']) rfl pulled
      (.of_eq id doomed role fault next puts) (cursor_setCursor f s.lane c) ?_
      (boardCursor_setCursor f s.lane c) fun s₀ same => ?_
    · rw [backstage_resume, took]
    · cases same
      exact ⟨s', taken, next⟩
  · rename_i overflow
    refine .bursts rfl pulled overflow ?_
    rw [backstage_conclude, took, Backstage.yield, Backstage.yield, role, id]

theorem works_performConfirm (w : World) (f : Fiber) :
    Works w f .confirm (w.performConfirm f) := by
  refine works_takeFrame (.inr rfl) rfl rfl rfl fun w₁ fr c missed pulled took => ?_
  split
  · refine .takes (f.setCursor .own c) rfl pulled (.of_eq rfl rfl rfl rfl rfl (.inl rfl)) rfl ?_ rfl
      (by simp)
    rw [backstage_resume, took]
  · refine .takes ((f.setCursor .own c).first [.confirm]) rfl pulled
      (.of_eq rfl rfl rfl rfl rfl (.inr rfl)) rfl ?_ rfl (by simp)
    rw [backstage_resume, took]

/-! ### Callbacks -/

theorem backstage_noteReply (w : World) (r : Option Reply) :
    (w.noteReply r).backstage = w.backstage := by
  cases r with
  | none => rfl
  | some r => exact backstage_record w rfl

theorem busy_runEffect (w : World) (e : Effect) (busy : w.state.executing = true) :
    (w.runEffect e).backstage = w.backstage ∧ (w.runEffect e).state.executing = true := by
  cases e with
  | set | add | setChosen | panic => exact ⟨rfl, busy⟩
  | note | view => exact ⟨backstage_record w rfl, busy⟩
  | register kind => cases kind <;> exact ⟨backstage_record _ rfl, busy⟩
  | select index =>
    refine ⟨(backstage_record _ rfl).trans (backstage_select w index), ?_⟩
    show (w.select index).1.state.executing = true
    unfold select
    split <;> exact busy
  | execute n =>
    rcases execute_cases w (w.programs.getD n (.ofCommands [])) with
      ⟨e, rm, q, heq, -⟩ | ⟨q, idle, -⟩
    · have refused : w.executeNumber n =
          ({ w.remark rm with programs := w.programs.setIfInBounds n q }, .error e) := by
        rw [executeNumber, heq]
        rfl
      rw [runEffect, refused]
      exact ⟨(backstage_record _ rfl).trans (backstage_remark w rm), busy⟩
    · rw [busy] at idle
      cases idle

theorem backstage_runEffects (w : World) (es : List Effect) (busy : w.state.executing = true) :
    (w.runEffects es).1.backstage = w.backstage := by
  fun_induction runEffects w es with
  | case1 | case2 => rfl
  | case3 w e rest _ ih =>
    obtain ⟨same, still⟩ := busy_runEffect w e busy
    exact (ih still).trans same

theorem works_afterCall {α : Type} {kind : CallbackKind} {index : Nat} {an : Answer α}
    {next : α → Fiber} (told : a.isAside = false) (panics : w.callPanics a = an.isPanic)
    (place : a.place w.feed f.cursor = f.cursor)
    (board : a.boardPlace w.feed f.boardCursor = f.boardCursor) (worked : w.work a = w)
    (same : w₁.backstage = w.backstage)
    (goes : ∀ x, Works w f a (w₁.resume (next x))) :
    Works w f a (w₁.afterCall f kind index an next) := by
  cases an with
  | value x => exact goes x
  | panicked text =>
    refine .falls told ?_ panics
    show (w₁.conclude f (.panicked text)).backstage = _
    rw [backstage_conclude, same]
  | unknown => exact works_fail _ place (by rw [same, worked]) board

theorem works_performBranch (w : World) (f : Fiber) (predicate : Nat) (otherwise : String) :
    Works w f (.branch predicate otherwise) (w.performBranch f predicate otherwise) := by
  have same : (w.callPredicate predicate).1.backstage = w.backstage := by
    unfold callPredicate
    split <;> rfl
  refine works_afterCall rfl rfl rfl rfl rfl ((backstage_noteReply _ _).trans same) fun holds => ?_
  cases holds with
  | true => exact works_resume (.inl rfl) rfl ((backstage_noteReply _ _).trans same) rfl
  | false => exact works_first (.inr rfl) rfl ((backstage_noteReply _ _).trans same) rfl (by simp)

theorem works_performSwitch (w : World) (f : Fiber) (selector : Nat) :
    Works w f (.switch selector) (w.performSwitch f selector) := by
  have same : (w.callSelector selector).1.backstage = w.backstage := by
    unfold callSelector
    split <;> rfl
  refine works_afterCall rfl rfl rfl rfl rfl ((backstage_noteReply _ _).trans same) fun label => ?_
  exact works_first ⟨label, rfl⟩ rfl ((backstage_noteReply _ _).trans same) rfl (by simp)

theorem works_performAction (w : World) (f : Fiber) (action : Nat)
    (busy : w.state.executing = true) :
    Works w f (.action action) (w.performAction f action) := by
  have same : (w.callAction action).1.backstage = w.backstage := by
    unfold callAction
    split
    · rfl
    · exact backstage_runEffects w _ busy
  refine works_afterCall rfl rfl rfl rfl rfl ((backstage_noteReply _ _).trans same) fun _ => ?_
  exact works_resume rfl rfl ((backstage_noteReply _ _).trans same) rfl

theorem works_performGoto (w : World) (f : Fiber) (label : String) :
    Works w f (.goto label) (w.performGoto f label) := by
  unfold performGoto
  split
  · rename_i r role
    split
    · rename_i place _
      refine .goes { f with role := .run { r with pointer := place } }
        ⟨rfl, rfl, ?_, fun idle => ?_, .inl ⟨rfl, [], rfl, rfl⟩⟩ rfl ?_ rfl (by simp)
      · exact ((Fiber.isRun_iff f).mpr ⟨r, role⟩).symm
      · exact absurd role ((Fiber.isRun_eq_false_iff f).mp idle r)
      · rw [backstage_resume, backstage_remark]
        rfl
    · exact works_fail _ rfl rfl rfl
  · exact works_resume rfl rfl rfl rfl

/-! ### The other acts -/

theorem works_performSweep (w : World) (f : Fiber) (s : Sweep) :
    Works w f (.sweep s) (w.performSweep f s) := by
  unfold performSweep
  split
  · rename_i going
    exact works_first (.inr ⟨going, rfl⟩) rfl (by rw [work, if_pos going]) rfl (by simp)
  · rename_i spent
    refine works_of_resume rfl rfl rfl rfl rfl (.inl rfl) rfl ?_ rfl (by simp)
    rw [work, if_neg spent]
    cases s.paint <;> simp [paintLast]

theorem works_performReveal (w : World) (f : Fiber) (r : Reveal) :
    Works w f (.reveal r) (w.performReveal f r) := by
  unfold performReveal
  split
  · exact works_resume (.inl rfl) rfl rfl rfl
  rename_i hidden
  split
  · split
    · exact works_resume (.inl rfl) rfl (backstage_remark w _) rfl
    · exact works_resume (.inl rfl) rfl rfl rfl
  · exact works_first (.inr ⟨Nat.lt_of_not_le hidden, _, _, rfl⟩) rfl rfl rfl (by simp)

theorem works_performOffer (w : World) (f : Fiber) (options : List String) :
    Works w f (.offer options) (w.performOffer f options) := by
  unfold performOffer
  split
  · exact works_fail _ rfl rfl rfl
  · exact works_first ⟨_, rfl⟩ rfl rfl rfl (by simp)

theorem works_performAnswer (w : World) (f : Fiber) (receiver : Nat) (options : List String) :
    Works w f (.answer receiver options) (w.performAnswer f receiver options) := by
  unfold performAnswer
  split
  · exact works_park _ (.inl rfl) rfl rfl rfl (by simp)
  · exact works_first (.inr ⟨_, rfl⟩) rfl rfl rfl (by simp)
  · exact works_fail _ rfl rfl rfl

theorem works_performCount (w : World) (f : Fiber) (timer : Nat) (due : Option Span) :
    Works w f (.count timer due) (w.performCount f timer due) := by
  cases found : w.timers[timer]? with
  | none =>
    rw [performCount, found]
    exact works_resume (.inl rfl) rfl (by rw [work, countDown, found]) rfl
  | some t =>
    have worked : w.work (.count timer due) = if t.left.isExpired then w.timeOut t.stop
        else if w.flags.isRaised t.stop then w
        else if due.getD (w.now + w.settings.tickPeriod) ≤ w.now then
          w.modifyTimer timer t.left.tick.1
        else w := by
      rw [work, countDown, found]
    rw [performCount, found]
    dsimp only
    split
    · rename_i zero
      exact works_resume (.inl rfl) rfl (by rw [worked, if_pos zero]) rfl
    rename_i left
    split
    · rename_i up
      refine works_resume (.inl rfl) rfl ?_ rfl
      rw [worked, if_neg left, if_pos up, backstage_remark]
    rename_i down
    split
    · rename_i late
      refine works_first (.inr ⟨_, rfl⟩) rfl ?_ rfl (by simp)
      rw [worked, if_neg left, if_neg down, if_pos late, backstage_stage]
    · rename_i early
      refine works_park _ (.inr ⟨_, rfl⟩) rfl ?_ rfl (by simp)
      rw [worked, if_neg left, if_neg down, if_neg early]

theorem works_performLoad (w : World) (f : Fiber) (job : SceneJob) :
    Works w f (.load job) (w.performLoad f job) := by
  unfold performLoad
  split
  · exact works_resume (.inl rfl) rfl (backstage_record w rfl) rfl
  · exact works_fail _ rfl rfl rfl
  · split
    · exact works_fail _ rfl (backstage_remark w _) rfl
    · exact works_first (.inr rfl) rfl (backstage_maskBoard _ _) rfl (by simp)

theorem works_performEnterScene (w : World) (f : Fiber) (scene : String) :
    Works w f (.enterScene scene) (w.performEnterScene f scene) := by
  have entered := (backstage_enterScene w.spendRelease scene).trans (backstage_spendRelease w)
  unfold performEnterScene
  split
  · exact works_park _ (.inr rfl) rfl rfl rfl (by simp)
  split
  · rename_i h
    rw [h] at entered
    exact works_resume (.inl rfl) rfl entered rfl
  · rename_i h
    rw [h] at entered
    exact works_fail _ rfl entered rfl

theorem works_performFinish (w : World) (f : Fiber) (an : Animation) :
    Works w f (.finish an) (w.performFinish f an) := by
  unfold performFinish
  split
  · exact works_park _ (.inr rfl) rfl rfl rfl (by simp)
  · refine works_resume (.inl rfl) rfl ?_ rfl
    rw [backstage_stage]
    split <;> rfl

theorem works_performHush (w : World) (f : Fiber) (channel : Channel) (span : Span) :
    Works w f (.hush channel span) (w.performHush f channel span) := by
  have worked : w.work (.hush channel span) = (w.fadeOut channel span).1 := rfl
  unfold performHush
  split
  · rename_i h
    exact works_resume rfl rfl (by rw [worked, h]) rfl
  · rename_i h
    exact works_resume rfl rfl (by rw [worked, h, backstage_remark]) rfl

theorem works_performHushMusic (w : World) (f : Fiber) (span : Span) :
    Works w f (.hushMusic span) (w.performHushMusic f span) := by
  have worked : w.work (.hushMusic span) = (w.fadeOut .bgm span).1 := rfl
  unfold performHushMusic
  split
  · rename_i h
    exact works_resume rfl rfl (by rw [worked, h]) rfl
  · rename_i h
    exact works_resume rfl rfl (by rw [worked, h, backstage_remark]) rfl

/-- What every act does behind the stage. -/
theorem perform_works (w : World) (f : Fiber) (a : Act)
    (busy : ∀ i, a = .action i → w.state.executing = true) : Works w f a (w.perform f a) := by
  cases a with
  | remark r => exact works_resume rfl rfl (backstage_remark w r) rfl
  | stage call => exact works_resume rfl rfl (backstage_stage w call) rfl
  | finish an => exact works_performFinish w f an
  | resync | listen => exact works_of_resume rfl rfl rfl rfl rfl rfl rfl rfl rfl (by simp)
  | sweep s => exact works_performSweep w f s
  | stride s => exact works_performStride w f s
  | reveal r => exact works_performReveal w f r
  | confirm => exact works_performConfirm w f
  | offer options => exact works_performOffer w f options
  | answer receiver options => exact works_performAnswer w f receiver options
  | chosen index options =>
    refine works_first rfl rfl ?_ rfl (by simp)
    rw [backstage_emit, backstage_remark]
    rfl
  | branch predicate otherwise => exact works_performBranch w f predicate otherwise
  | switch selector => exact works_performSwitch w f selector
  | goto label => exact works_performGoto w f label
  | tween | play | timer | silence => exact works_resume rfl rfl rfl rfl
  | hush channel span => exact works_performHush w f channel span
  | action action => exact works_performAction w f action (busy action rfl)
  | stopTimer =>
    refine works_resume rfl rfl ?_ rfl
    show (w.remark _).stopCountdown.backstage = w.stopCountdown.backstage
    rw [backstage_stopCountdown, backstage_stopCountdown, backstage_remark]
    rfl
  | count timer due => exact works_performCount w f timer due
  | load job => exact works_performLoad w f job
  | loaded => exact works_resume rfl rfl rfl rfl
  | hushMusic span => exact works_performHushMusic w f span
  | watchBoard => exact works_of_resume rfl rfl rfl rfl rfl rfl rfl rfl rfl (by simp)
  | switchScene => exact works_resume rfl rfl (backstage_record w rfl) rfl
  | enterScene scene => exact works_performEnterScene w f scene
  | release =>
    exact works_of_resume rfl rfl rfl rfl rfl rfl rfl (backstage_maskBoard w false) rfl (by simp)
  | clearBoard span => exact works_of_resume rfl rfl rfl rfl rfl ⟨_, _, _, _, rfl⟩ rfl rfl rfl (by simp)

/-! ### Turns -/

/-- The work of an act that an error skips. -/
def amend (w : World) : Act → World
  | .silence channel => w.silence channel
  | _ => w

/-- The act that a fiber does in its turn. -/
def actOf? (w : World) (f : Fiber) : Option Act :=
  if f.doomed || w.isCancelled f || f.fault.isSome then none else f.todo.head?

def act? (w : World) : Option Act := w.ready.head?.bind w.actOf?

/-- What the turn of a fiber leaves behind the stage when it does `act`, with `w` as it was without
the fiber. -/
inductive Turns (w : World) (f : Fiber) (act : Option Act) (x : World) : Prop where
  | ends : act = none → x.backstage = w.backstage.yield f →
      f.doomed = true ∨ w.isCancelled f = true ∨ f.todo = [] → Turns w f act x
  | fetches {r : Run} {c : Command} (f' : Fiber) : act = none → f.doomed = false → f.role = .run r →
      f.todo = [] → f.fault = none → f'.id = f.id → f'.doomed = false → f'.isRun = true →
      f'.todo = c.acts w.settings r.page → f'.fault = none → f'.cursor = f.cursor →
      x.backstage = w.backstage.join f' → f'.boardCursor = f.boardCursor → Turns w f act x
  | works {a : Act} {rest : List Act} : act = some a → f.doomed = false → f.todo = a :: rest →
      f.fault = none → Works w { f with todo := rest } a x → Turns w f act x
  | unwinds {a : Act} {rest : List Act} {e : Failure} (f' : Fiber) : act = none →
      f.doomed = false → f.todo = a :: rest → f.fault = some e → f'.id = f.id →
      f'.doomed = false → f'.role = f.role → f'.todo = rest →
      (f'.fault = some e ∨ a.catches = true ∧ f'.fault = none) → f'.cursor = f.cursor →
      x.backstage = (w.amend a).backstage.join f' →
      f'.boardCursor = f.boardCursor ∨ f'.boardCursor = none → Turns w f act x

theorem unwind_turns (w : World) {act : Option Act} {rest : List Act} {e : Failure}
    (idle : act = none) (spared : f.doomed = false) (todo : f.todo = a :: rest)
    (fault : f.fault = some e) : Turns w f act (w.unwind { f with todo := rest } e a) := by
  unfold unwind
  split
  · refine .unwinds { f with todo := rest, boardCursor := none } idle spared todo fault rfl spared rfl
      rfl (.inl fault) rfl ?_ (.inr rfl)
    have lifted : backstage { w.maskBoard false with loading := false } = w.backstage :=
      backstage_maskBoard w false
    rw [performRelease, backstage_resume, lifted]
    rfl
  · rename_i scene
    refine .unwinds { f with todo := rest, fault := none } idle spared todo fault rfl spared rfl rfl
      (.inr ⟨rfl, rfl⟩) rfl ?_ (.inl rfl)
    rw [backstage_resume, backstage_remark]
    rfl
  · rename_i channel
    refine .unwinds { f with todo := rest, fault := none } idle spared todo fault rfl spared rfl rfl
      (.inr ⟨rfl, rfl⟩) rfl ?_ (.inl rfl)
    rw [backstage_resume, backstage_silence, backstage_remark, amend, backstage_silence]
    rfl
  · rename_i other
    have same : w.amend a = w := by
      unfold amend
      split
      · exact (other _ rfl).elim
      · rfl
    refine .unwinds { f with todo := rest } idle spared todo fault rfl spared rfl rfl (.inl fault) rfl
      ?_ (.inl rfl)
    rw [backstage_resume, same]

theorem advance_turns (w : World) (f : Fiber)
    (busy : ∀ i, f.todo.head? = some (.action i) → w.state.executing = true) :
    Turns w f (w.actOf? f) (w.advance f) := by
  unfold advance
  split
  · rename_i doomed
    exact .ends (by simp [actOf?, doomed]) (backstage_conclude w f _) (.inl doomed)
  rename_i spared
  have spared : f.doomed = false := by simpa using spared
  split
  · rename_i cancelled
    refine .ends (by simp [actOf?, cancelled]) ?_ (.inr (.inl cancelled))
    unfold noteCancelled Backstage.yield
    unfold isCancelled at cancelled
    split
    · rename_i role
      rw [backstage_remark, role]
    · rename_i other
      split at cancelled
      · rename_i role
        exact absurd role (other _ _)
      · cases cancelled
  rename_i going
  have going : w.isCancelled f = false := by simpa using going
  split
  · rename_i todo fault
    have idle : w.actOf? f = none := by simp [actOf?, todo]
    unfold fetch
    split
    · rename_i r role
      split
      · exact .ends idle (backstage_conclude w f _) (.inr (.inr todo))
      · rename_i c _
        refine .fetches (c := c) { f with
          role := .run { r with pointer := r.pointer + 1, page := c.pageAfter w.settings r.page }
          todo := c.acts w.settings r.page } idle spared role todo fault rfl spared rfl rfl fault
          rfl ?_ rfl
        rw [backstage_resume, backstage_emit, backstage_remark]
        rfl
    · exact .ends idle (backstage_conclude w f _) (.inr (.inr todo))
  · rename_i todo _
    exact .ends (by simp [actOf?, todo]) (backstage_conclude w f _) (.inr (.inr todo))
  · rename_i a rest todo fault
    refine .works (by simp [actOf?, spared, going, fault, todo]) spared todo fault
      (perform_works w _ a fun i same => busy i ?_)
    rw [todo, same]
    rfl
  · rename_i a rest e todo fault
    exact unwind_turns w (by simp [actOf?, fault]) spared todo fault

theorem InOrder.nodup_hands (order : w.InOrder) : (w.hands.map (·.id)).Nodup := by
  have ids : (w.crew.map (·.id)).Nodup := order.crewed.ids
  rw [crew, List.map_map] at ids
  exact ids

theorem InOrder.below_hands (order : w.InOrder) : ∀ f ∈ w.hands, f.id < w.nextFiber := fun f among =>
  order.crewed.below f.calm (List.mem_map_of_mem (mem_hands.mp among))

theorem dutiful_hands (order : w.InOrder) (among : f ∈ w.hands) : f.Dutiful :=
  order.crewed.dutiful f.calm (List.mem_map_of_mem (mem_hands.mp among))

theorem backstage_taken {rest : List Fiber} (ready : w.ready = f :: rest) :
    w.backstage = (w.taken f rest).backstage.join f := by
  have hands : w.hands = f ::ₘ (w.taken f rest).hands := by
    rw [hands, hands, fibers, ready]
    rfl
  rw [backstage, hands]
  rfl

theorem mem_hands_of_taken {rest : List Fiber} (ready : w.ready = f :: rest)
    (among : g ∈ (w.taken f rest).hands) : g ∈ w.hands := by
  rw [show w.hands = _ from congrArg Backstage.hands (backstage_taken ready)]
  exact Multiset.mem_cons_of_mem among

theorem InOrder.fresh_join (order : w.InOrder) {b : Backstage} (heq : w.backstage = b.join f) :
    ∀ g ∈ b.hands, g.id ≠ f.id :=
  Backstage.fresh_of_nodup (heq ▸ order.nodup_hands)

theorem InOrder.fresh_taken (order : w.InOrder) {rest : List Fiber} (ready : w.ready = f :: rest) :
    ∀ g ∈ (w.taken f rest).hands, g.id ≠ f.id :=
  order.fresh_join (backstage_taken ready)

/-- Nobody else has the identifier of a fiber that comes back. -/
theorem eq_of_join (order : w.InOrder) {b : Backstage} (heq : w.backstage = b.join f)
    (among : g ∈ w.hands) (same : g.id = f.id) : g = f := by
  rw [show w.hands = f ::ₘ b.hands from congrArg Backstage.hands heq] at among
  exact (Multiset.mem_cons.mp among).resolve_right fun away => order.fresh_join heq g away same

theorem act?_cons {rest : List Fiber} (ready : w.ready = f :: rest) : w.act? = w.actOf? f := by
  rw [act?, ready]
  rfl

/-- The turn of a fiber that does an act. -/
theorem turn_doing (act : w.act? = some a) : ∃ f rest after, w.ready = f :: rest ∧
    f.doomed = false ∧ f.fault = none ∧ f.todo = a :: after ∧
    w.turn = { (w.taken f rest).perform { f with todo := after } a with actor := none } := by
  cases ready : w.ready with
  | nil =>
    rw [act?, ready] at act
    cases act
  | cons f rest =>
    rw [act?_cons ready, actOf?] at act
    split at act
    · cases act
    rename_i free
    simp only [Bool.not_eq_true, Bool.or_eq_false_iff, Option.isSome_eq_false_iff,
      Option.isNone_iff_eq_none] at free
    obtain ⟨⟨spared, going⟩, fault⟩ := free
    obtain ⟨after, todo⟩ := List.head?_eq_some_iff.mp act
    exact ⟨f, rest, after, rfl, spared, fault, todo, turn_going ready spared going fault todo⟩

theorem turn_turns (order : w.InOrder) {rest : List Fiber} (ready : w.ready = f :: rest) :
    Turns (w.taken f rest) f w.act? w.turn := by
  have turned := advance_turns (w.taken f rest) f fun i head => by
    obtain ⟨after, todo⟩ := List.head?_eq_some_iff.mp head
    obtain ⟨r, role⟩ := order.run_of_act ready (a := .action i) (by simp [todo]) rfl
    exact (taken_run order.staged.attended ready role).2.2
  rw [turn_cons ready, act?_cons ready]
  have same : (w.taken f rest).actOf? f = w.actOf? f := rfl
  rw [← same]
  generalize (w.taken f rest).advance f = x at turned
  cases turned with
  | ends act same why => exact .ends act same why
  | fetches f' act spared role todo fault id spared' run acts fault' cursor same board =>
    exact .fetches f' act spared role todo fault id spared' run acts fault' cursor same board
  | works act spared todo fault works =>
    refine .works act spared todo fault ?_
    cases works with
    | goes f' onward cursor same board strides => exact .goes f' onward cursor same board strides
    | takes f' lane pulled onward cursor same board strides =>
      exact .takes f' lane pulled onward cursor same board strides
    | bursts act pulled overflow same => exact .bursts act pulled overflow same
    | falls told same panics => exact .falls told same panics
  | unwinds f' act spared todo fault id spared' role todo' fault' cursor same board =>
    exact .unwinds f' act spared todo fault id spared' role todo' fault' cursor same board

/-- The turn in which a fiber does an act. -/
theorem turn_act (order : w.InOrder) (act : w.act? = some a) :
    ∃ f rest after, w.ready = f :: rest ∧ f.doomed = false ∧ f.fault = none ∧
      f.todo = a :: after ∧ Works (w.taken f rest) { f with todo := after } a w.turn := by
  cases ready : w.ready with
  | nil =>
    rw [act?, ready] at act
    cases act
  | cons f rest =>
    cases turn_turns order ready with
    | ends none | fetches _ none | unwinds _ none =>
      rw [act] at none
      cases none
    | works act' spared todo fault works =>
      obtain rfl := Option.some.inj (act.symm.trans act')
      exact ⟨f, rest, _, rfl, spared, fault, todo, works⟩

/-! ### Pulses without a turn -/

/-- What the host does behind the stage, and what the feed and the clock do. -/
inductive Hosts (w : World) : Pulse → Backstage → Prop where
  | stays {p : Pulse} (feed : Feed) (now : Span) : ((∀ span, p ≠ .pass span) → now = w.now) →
      w.now ≤ now → Hosts w p { w.backstage with feed, now }
  | executes {n : Nat} {brief : (HostStep.execute n).isBrief = true} (q : Program) :
      w.state.executing = false → (w.executeNumber n).2 = .ok w.runs →
      Hosts w (.host (.execute n) brief) (w.renewScope.backstage.join
        (.start w.nextFiber (.run ⟨w.runs, q, 0, .empty⟩) (some w.feed.subscribe) []))
  | cancels {brief : HostStep.cancelSideEffects.isBrief = true} :
      Hosts w (.host .cancelSideEffects brief) w.cancelSideEffects.backstage
  | plays {c : Channel} {clip : Clip} {pitch : Float32}
      {brief : (HostStep.play c clip pitch).isBrief = true} :
      Hosts w (.host (.play c clip pitch) brief) (w.play c clip pitch).backstage
  | fades {c : Channel} {span : Span} {brief : (HostStep.fadeOut c span).isBrief = true} :
      Hosts w (.host (.fadeOut c span) brief) (w.fadeOut c span).1.backstage
  | stops {c : Channel} {brief : (HostStep.stopChannel c).isBrief = true} :
      Hosts w (.host (.stopChannel c) brief) (w.stopChannel c).backstage
  | loads {p : Pulse} {acts : List Act} : (∀ a ∈ acts, a.isScenic = true) →
      (∀ a ∈ acts, ∀ s, a.sweep? = some s → s.elapsed = .zero) →
      (∀ a ∈ acts, a.suspends = false) →
      Hosts w p (w.backstage.join (.start w.nextFiber (.load w.loads) none acts))
  | aborts {p : Pulse} {f : Fiber} : f ∈ w.hands →
      (∃ r, f.role = .run r) ∨ (∃ n, f.role = .load n) → Hosts w p (w.backstage.doom f.id)

theorem hosts_still {x : World} (p : Pulse) (same : x.backstage = w.backstage) :
    Hosts w p x.backstage := by
  rw [same]
  exact .stays w.feed w.now (fun _ => rfl) (Nat.le_refl _)

theorem hosts_abortFiber (p : Pulse) (found : Option Fiber)
    (among : ∀ f, found = some f → f ∈ w.hands ∧ ((∃ r, f.role = .run r) ∨ ∃ n, f.role = .load n)) :
    Hosts w p (w.abortFiber found).1.backstage := by
  cases found with
  | none => exact hosts_still p rfl
  | some f =>
    obtain ⟨member, role⟩ := among f rfl
    show Hosts w p (w.abort f.id).backstage
    rw [backstage_abort]
    exact .aborts member role

theorem hosts_spawnLoad (p : Pulse) {acts : List Act} (scenic : ∀ a ∈ acts, a.isScenic = true)
    (fresh : ∀ a ∈ acts, ∀ s, a.sweep? = some s → s.elapsed = .zero)
    (ready : ∀ a ∈ acts, a.suspends = false) : Hosts w p (w.spawnLoad acts).1.backstage := by
  have spawned : (w.spawnLoad acts).1.backstage =
      w.backstage.join (.start w.nextFiber (.load w.loads) none acts) := backstage_spawn _ _ _ _
  rw [spawned]
  exact .loads scenic fresh ready

theorem runFiber?_some {number : Nat} (found : w.runFiber? number = some f) :
    f ∈ w.hands ∧ ∃ r, f.role = .run r := by
  refine ⟨mem_hands.mpr (List.mem_of_find?_eq_some found), ?_⟩
  have numbered := List.find?_some found
  split at numbered
  · exact ⟨_, ‹_›⟩
  · cases numbered

theorem loadFiber?_some {number : Nat} (found : w.loadFiber? number = some f) :
    f ∈ w.hands ∧ ∃ n, f.role = .load n := by
  refine ⟨mem_hands.mpr (List.mem_of_find?_eq_some found), ?_⟩
  have numbered := List.find?_some found
  split at numbered
  · exact ⟨_, ‹_›⟩
  · cases numbered

theorem pulse_hosts (w : World) {p : Pulse} (untaken : p ≠ .turn) :
    Hosts w p (w.pulse p).backstage := by
  cases p with
  | turn => exact absurd rfl untaken
  | publish delta keys =>
    have published : (w.publish delta keys).backstage =
        { w.backstage with feed := w.feed.publish delta keys } := by
      unfold publish
      dsimp only
      rw [backstage_wake, backstage_record _ rfl]
      rfl
    rw [pulse, published]
    exact .stays _ w.now (fun _ => rfl) (Nat.le_refl _)
  | pass span =>
    have reached : (w.reach (w.now + span)).backstage = { w.backstage with now := w.now + span } :=
      backstage_wake _ _
    rw [pulse, reached]
    exact .stays w.feed _ (fun other => absurd rfl (other span)) (Nat.le_add_right _ _)
  | host s brief =>
    cases s with
    | tick | burst | sleep => cases brief
    | setVar | failScenes | setChosen | look => exact hosts_still _ rfl
    | select index => exact hosts_still _ (backstage_select w index)
    | finishAnimation | release => exact hosts_still _ (backstage_wake _ _)
    | dropClock =>
      show Hosts w _ w.dropClock.backstage
      unfold dropClock
      split
      · exact .stays _ w.now (fun _ => rfl) (Nat.le_refl _)
      · exact hosts_still _ rfl
    | execute n =>
      rcases backstage_executeNumber w n with ⟨e, -, same⟩ | ⟨q, idle, accepted, same⟩
      · exact hosts_still _ same
      · show Hosts w _ (w.executeNumber n).1.backstage
        rw [same]
        exact .executes q idle accepted
    | cancelSideEffects => exact .cancels
    | play => exact .plays
    | fadeOut => exact .fades
    | stopChannel => exact .stops
    | load job =>
      exact hosts_spawnLoad _ (by simp [Act.isScenic]) (by simp [Act.sweep?])
        (by simp [Act.suspends])
    | boardIn color span =>
      exact hosts_spawnLoad _ (by simp [Act.isScenic, Sweep.start])
        (by simp [Act.sweep?, Sweep.start]) (by simp [Act.suspends])
    | boardOut span =>
      exact hosts_spawnLoad _ (by simp [Act.isScenic]) (by simp [Act.sweep?])
        (by simp [Act.suspends])
    | abort run =>
      refine hosts_abortFiber _ _ fun f found => ?_
      obtain ⟨member, role⟩ := runFiber?_some found
      exact ⟨member, .inl role⟩
    | abortLoad number =>
      refine hosts_abortFiber _ _ fun f found => ?_
      obtain ⟨member, role⟩ := loadFiber?_some found
      exact ⟨member, .inr role⟩

end World

end SceneScript
