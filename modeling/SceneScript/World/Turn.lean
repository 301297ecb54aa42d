import SceneScript.World.Callback
/-!
The turns of fibers: what one act does, how an error travels to the act that handles it, and how a
fiber ends.
-/

namespace SceneScript

namespace World

/-! ### The end of a fiber -/

def cancellation : Failure := .aborted "execution cancelled"

def yieldScene (w : World) (f : Fiber) : World :=
  if f.holdsScene then { w with loading := false } else w

def concludeRun (w : World) : Outcome → World
  | .completed => (w.settleIdle.remark .programCompleted).emit .completed
  | .failed e => (w.settleIdle.remark (.programAborted e)).emit (.aborted e)
  | .cancelled | .panicked _ => (w.settleIdle.remark .programCancelled).emit (.aborted cancellation)

/-- The fiber is gone. -/
def conclude (w : World) (f : Fiber) (o : Outcome) : World :=
  let w := w.yieldScene f
  match f.role, o with
  | .run r, o => (w.concludeRun o).record (.outcome r.number o)
  | .tween target _, .failed e => w.remark (.tweenInterrupted target e)
  | .fade channel, _ =>
    if w.mixer.fades.get channel = some f.id then w.setFade channel none else w
  | .load _, .cancelled => w
  | .load number, o => w.record (.loaded number o)
  | _, _ => w

/-! ### Frames -/

def lagged (w : World) (missed : Nat) : World :=
  if missed = 0 then w else w.remark (.cursorLagged missed)

def overflowText : String := "overflow when adding durations"

/-- Takes the next frame on a lane, or waits for it with `act` still to do. -/
def takeFrame (w : World) (f : Fiber) (lane : Lane) (act : Act)
    (next : World → Fiber → Frame → World) : World :=
  match w.feed.pull ((f.cursorOn lane).getD w.feed.subscribe) with
  | .waiting => w.park .frame (f.first [act])
  | .closed => w.resume (f.fail .frameSourceClosed)
  | .frame fr c missed => next ((w.lagged missed).record (.took fr)) (f.setCursor lane c) fr

/-! ### Sweeps -/

def paint (w : World) (share : Float32) : Paint → World
  | .nothing => w
  | .tint target start stop => w.stage (.setColor target (start.lerp stop share))
  | .board color start stop => w.setBoard (color.withAlpha (Color.blend start stop share))
  | .volume channel =>
    w.modifyStrip channel fun s => { s with volume := Strip.fullVolume * (1 - share) }

def paintLast (w : World) : Paint → World
  | .nothing | .volume _ => w
  | .tint target _ stop => w.stage (.setColor target stop)
  | .board color _ stop => w.setBoard (color.withAlpha stop)

def performSweep (w : World) (f : Fiber) (s : Sweep) : World :=
  if s.elapsed < s.span then (w.paint s.share s.paint).resume (f.first [.stride s])
  else (w.paintLast s.paint).resume { f with pressed := f.pressed.merge s.pressed }

def performStride (w : World) (f : Fiber) (s : Sweep) : World :=
  w.takeFrame f s.lane (.stride s) fun w f fr =>
    match s.take? fr with
    | some s => w.resume (f.first [.sweep s])
    | none => w.conclude f (.panicked overflowText)

/-! ### Text -/

def performReveal (w : World) (f : Fiber) (r : Reveal) : World :=
  if r.last ≤ r.shown then w.resume f
  else if r.isCutShort f.pressed then
    match r.kind with
    | .sentence _ => (w.remark (.textSkipped (r.shown + 1) r.last)).resume f
    | .page => w.resume f
  else
    w.resume (f.first
      [.stage (r.call (r.shown + 1)), .sweep (.pause (r.delay w.settings)),
        .reveal { r with shown := r.shown + 1 }])

def performConfirm (w : World) (f : Fiber) : World :=
  w.takeFrame f .own .confirm fun w f fr =>
    w.resume (if fr.keys.confirm then f else f.first [.confirm])

/-! ### Choices -/

def performOffer (w : World) (f : Fiber) (options : List String) : World :=
  if w.settings.maxChoices < options.length then
    w.resume (f.fail (.tooManyChoices options.length w.settings.maxChoices))
  else
    let (slot, receiver) := w.slot.offer options.length
    let w := { w with slot }
    w.resume (f.first
      ([.stage (.setCursorVisible true), .stage (.showChoices options)] ++
        Command.animate .choiceBoxOpen ++ [.answer receiver options]))

def performAnswer (w : World) (f : Fiber) (receiver : Nat) (options : List String) : World :=
  match w.slot.receipt receiver with
  | .waiting => w.park (.answer receiver) (f.first [.answer receiver options])
  | .answered index =>
    let w := { w with slot := w.slot.mark receiver .spent }
    w.resume (f.first [.resync, .chosen index options])
  | _ => w.resume (f.fail (.aborted "choice abandoned"))

def performChosen (w : World) (f : Fiber) (index : Nat) (options : List String) : World :=
  let w := w.remark (.choiceMade index (options.getD index ""))
  (w.emit (.choiceMade index)).resume (f.first
    (Command.animate .choiceBoxClose ++
      [.stage .hideChoices, .stage (.setCursorVisible false)]))

/-! ### Callbacks and jumps -/

def afterCall {α : Type} (w : World) (f : Fiber) (kind : CallbackKind) (index : Nat)
    (a : Answer α) (next : α → Fiber) : World :=
  match a with
  | .value a => w.resume (next a)
  | .panicked text => w.conclude f (.panicked text)
  | .unknown => w.resume (f.fail (.unknownCallback kind index))

def performBranch (w : World) (f : Fiber) (predicate : Nat) (otherwise : String) : World :=
  let (w, a) := w.callPredicate predicate
  (w.noteReply (a.reply? .holds)).afterCall f .predicate predicate a fun holds =>
    if holds then f else f.first [.goto otherwise]

def performSwitch (w : World) (f : Fiber) (selector : Nat) : World :=
  let (w, a) := w.callSelector selector
  (w.noteReply (a.reply? .label)).afterCall f .selector selector a fun label => f.first [.goto label]

def performAction (w : World) (f : Fiber) (action : Nat) : World :=
  let (w, a) := w.callAction action
  (w.noteReply (a.reply? fun _ => .done)).afterCall f .action action a fun _ => f

def performGoto (w : World) (f : Fiber) (label : String) : World :=
  match f.role with
  | .run r =>
    match r.program.resolve label with
    | .ok place =>
      (w.remark (.jump label place)).resume { f with role := .run { r with pointer := place } }
    | .error e => w.resume (f.fail e)
  | _ => w.resume f

/-! ### The countdown -/

def modifyTimer (w : World) (timer : Nat) (c : Countdown) : World :=
  { w with timers := w.timers.modify timer fun t => { t with left := c } }

/-- A countdown at zero times out once, unless it was stopped. -/
def timeOut (w : World) (stop : Nat) : World :=
  if w.flags.isRaised stop then w
  else
    let w := w.raise stop
    let w := w.remark .countdownTimedOut
    let w := w.stage (.playAnimation .timerTextExit)
    w.emit .countdownTimedOut

def performCount (w : World) (f : Fiber) (timer : Nat) (due : Option Span) : World :=
  match w.timers[timer]? with
  | none => w.resume f
  | some t =>
    let due := due.getD (w.now + w.settings.tickPeriod)
    if t.left.isExpired then (w.timeOut t.stop).resume f
    else if w.flags.isRaised t.stop then (w.remark .countdownStopped).resume f
    else if due ≤ w.now then
      let c := t.left.tick.1
      ((w.modifyTimer timer c).stage (.setTimerText c.text)).resume
        (f.first [.count timer (some (due + w.settings.tickPeriod))])
    else w.park (.time due) (f.first [.count timer (some due)])

/-! ### Scenes -/

def performLoad (w : World) (f : Fiber) (job : SceneJob) : World :=
  match w.rig.scenes with
  | .noted => (w.record (.scene (.load job))).resume f
  | .failing => w.resume (f.fail (.scene ("scene " ++ job.scene ++ " not found")))
  | .board _ =>
    if w.loading then (w.remark (.sceneBusy job.scene)).resume (f.fail .sceneLoadInProgress)
    else
      let w := { w with loading := true }
      (w.maskBoard true).resume (f.first job.acts)

def performHushMusic (w : World) (f : Fiber) (span : Span) : World :=
  match w.fadeOut .bgm span with
  | (w, .ok ()) => w.resume f
  | (w, .error e) => (w.remark (.musicFadeRejected e)).resume f

def waitsForRelease (w : World) : Bool :=
  match w.rig.scenes with
  | .board gated => gated && w.releases == 0
  | _ => false

def spendRelease (w : World) : World :=
  match w.rig.scenes with
  | .board true => { w with releases := w.releases - 1 }
  | _ => w

def performEnterScene (w : World) (f : Fiber) (scene : String) : World :=
  if w.waitsForRelease then w.park .scene (f.first [.enterScene scene])
  else
    match w.spendRelease.enterScene scene with
    | (w, .ok ()) => w.resume f
    | (w, .error e) => w.resume (f.fail e)

def performRelease (w : World) (f : Fiber) : World :=
  ({ w.maskBoard false with loading := false }).resume { f with boardCursor := none }

def watchBoard (w : World) (f : Fiber) : Fiber := f.setCursor .board w.feed.subscribe

/-! ### Acts -/

def performFinish (w : World) (f : Fiber) (a : Animation) : World :=
  if w.rig.gatedStage && w.permits == 0 then w.park .permit (f.first [.finish a])
  else
    let w := if w.rig.gatedStage then { w with permits := w.permits - 1 } else w
    (w.stage (.animationFinished a)).resume f

def performHush (w : World) (f : Fiber) (channel : Channel) (span : Span) : World :=
  match w.fadeOut channel span with
  | (w, .ok ()) => w.resume f
  | (w, .error e) => (w.remark (.soundStopRejected channel e)).resume f

def performTween (w : World) (f : Fiber) (target : Target) (span : Span) (start stop : Color) :
    World :=
  (w.spawn (.tween target w.scope) (some w.feed.subscribe)
    [.sweep (.start .own (.tint target start stop) span)]).resume f

def perform (w : World) (f : Fiber) : Act → World
  | .remark r => (w.remark r).resume f
  | .stage call => (w.stage call).resume f
  | .finish a => w.performFinish f a
  | .resync => w.resume (f.setCursor .own w.feed.subscribe)
  | .sweep s => w.performSweep f s
  | .stride s => w.performStride f s
  | .listen => w.resume { f with pressed := .nothing }
  | .reveal r => w.performReveal f r
  | .confirm => w.performConfirm f
  | .offer options => w.performOffer f options
  | .answer receiver options => w.performAnswer f receiver options
  | .chosen index options => w.performChosen f index options
  | .branch predicate otherwise => w.performBranch f predicate otherwise
  | .switch selector => w.performSwitch f selector
  | .goto label => w.performGoto f label
  | .tween target span start stop => w.performTween f target span start stop
  | .play channel clip pitch => (w.play channel clip pitch).resume f
  | .hush channel span => w.performHush f channel span
  | .action action => w.performAction f action
  | .timer c => (w.startCountdown c).resume f
  | .stopTimer => ((w.remark .countdownStopRequested).stopCountdown).resume f
  | .count timer due => w.performCount f timer due
  | .load job => w.performLoad f job
  | .loaded _ => w.resume f
  | .hushMusic span => w.performHushMusic f span
  | .watchBoard => w.resume (w.watchBoard f)
  | .switchScene scene => (w.record (.scene (.switch scene))).resume f
  | .enterScene scene => w.performEnterScene f scene
  | .release => w.performRelease f
  | .clearBoard span =>
    w.resume ((w.watchBoard f).first
      [.sweep (.start .board (.board w.boardColor w.boardColor.a 0) span)])
  | .silence channel => (w.silence channel).resume f

/-- An error skips acts until one handles it; the board is released on the way. -/
def unwind (w : World) (f : Fiber) (e : Failure) : Act → World
  | .release => w.performRelease f
  | .loaded scene => (w.remark (.sceneLoadFailed scene e)).resume { f with fault := none }
  | .silence channel =>
    ((w.remark (.fadeInterrupted channel e)).silence channel).resume { f with fault := none }
  | _ => w.resume f

/-- A run goes on with its next command or completes; any other fiber is done. -/
def fetch (w : World) (f : Fiber) : World :=
  match f.role with
  | .run r =>
    match r.program.commands[r.pointer]? with
    | none => w.conclude f .completed
    | some c =>
      let w := { w with state := w.state.enter r.pointer c }
      let w := w.remark (.dispatching r.pointer c.opcode)
      let w := w.emit (.stepped r.pointer c.opcode)
      w.resume { f with
        role := .run { r with
          pointer := r.pointer + 1
          page := c.pageAfter w.settings r.page }
        todo := c.acts w.settings r.page }
  | _ => w.conclude f .completed

/-- The fiber is about to wait for a frame. -/
def starves (w : World) (f : Fiber) : Bool :=
  match f.todo with
  | .stride s :: _ =>
    match w.feed.pull ((f.cursorOn s.lane).getD w.feed.subscribe) with
    | .waiting => true
    | _ => false
  | _ => false

/-- A tween of a cancelled scope ends, a hasty one not before it has taken all the frames that there
are. -/
def isCancelled (w : World) (f : Fiber) : Bool :=
  match f.role with
  | .tween _ scope => w.flags.isRaised scope && (!w.hasty f.id || w.starves f)
  | _ => false

def noteCancelled (w : World) (f : Fiber) : World :=
  match f.role with
  | .tween target _ => w.remark (.tweenCancelled target)
  | _ => w

def advance (w : World) (f : Fiber) : World :=
  if f.doomed then w.conclude f .cancelled
  else if w.isCancelled f then w.noteCancelled f
  else
    match f.todo, f.fault with
    | [], none => w.fetch f
    | [], some e => w.conclude f (.failed e)
    | act :: rest, none => w.perform { f with todo := rest } act
    | act :: rest, some e => w.unwind { f with todo := rest } e act

def turn (w : World) : World :=
  match w.ready with
  | [] => w
  | f :: rest => { ({ w with ready := rest, actor := some f.id }).advance f with actor := none }

def turns : Nat → World → World
  | 0, w => w
  | n + 1, w => if w.ready.isEmpty then w else turns n w.turn

/-- More acts than any performance takes. A script may loop without ever waiting, so no bound comes
from the script itself. -/
def patience : Nat := Nat.pow 2 62

/-- Lets every fiber run until all of them wait. -/
def settle (w : World) : World := w.turns patience

end World

end SceneScript
