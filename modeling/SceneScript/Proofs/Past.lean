import Mathlib.Tactic.Common
import SceneScript.World.Host
/-!
A world behind a past. Whatever is numbered in the order in which it is handed out (frames, flags,
countdowns, receivers, runs, loads and fibers) is numbered on from the past, time goes on from it, and
so does the chronicle. The operations of a performance do not look behind it: they do the same with
and without a past (the theorems `_behind`).
-/

namespace SceneScript

structure Past where
  frames : Array Frame
  sources : Nat
  now : Span
  flags : Array Bool
  timers : Array Timer
  receipts : Array Receipt
  runs : Nat
  loads : Nat
  fibers : Nat
  hasty : Nat → Bool
  permits : Nat
  /-- The programs as they stand; they take the place of the world's own. -/
  programs : Array Program
  /-- Fibers that are still in the way of all others. -/
  ready : List Fiber
  chronicle : Array Entry

/-- The last countdown of the past was stopped. -/
def Past.Stopped (p : Past) : Prop := ∀ t, p.timers.back? = some t → p.flags[t.stop]? = some true

namespace Frame

def behind (p : Past) (f : Frame) : Frame := { f with index := p.frames.size + f.index }

end Frame

namespace Cursor

def behind (p : Past) (c : Cursor) : Cursor := ⟨p.frames.size + c.taken⟩

end Cursor

namespace Feed

def behind (p : Past) (feed : Feed) : Feed :=
  ⟨p.frames ++ feed.frames.map (Frame.behind p), feed.depth, p.sources + feed.sources⟩

end Feed

namespace Act

def behind (p : Past) : Act → Act
  | .answer receiver options => .answer (p.receipts.size + receiver) options
  | .count i due => .count (p.timers.size + i) (due.map (p.now + ·))
  | a => a

end Act

namespace Run

def behind (p : Past) (r : Run) : Run := { r with number := p.runs + r.number }

end Run

namespace Role

def behind (p : Past) : Role → Role
  | .run r => .run (r.behind p)
  | .tween target scope => .tween target (p.flags.size + scope)
  | .countdown timer stop => .countdown (p.timers.size + timer) (p.flags.size + stop)
  | .fade channel => .fade channel
  | .load number => .load (p.loads + number)

end Role

namespace Fiber

def behind (p : Past) (f : Fiber) : Fiber where
  id := p.fibers + f.id
  role := f.role.behind p
  doomed := f.doomed
  todo := f.todo.map (Act.behind p)
  fault := f.fault
  cursor := f.cursor.map (Cursor.behind p)
  boardCursor := f.boardCursor.map (Cursor.behind p)
  pressed := f.pressed

end Fiber

namespace Wait

def behind (p : Past) : Wait → Wait
  | .answer receiver => .answer (p.receipts.size + receiver)
  | .time due => .time (p.now + due)
  | wait => wait

end Wait

namespace Parked

def behind (p : Past) (b : Parked) : Parked := ⟨b.wait.behind p, b.fiber.behind p⟩

end Parked

namespace Execution

def behind (p : Past) (s : Execution) : Execution := { s with run := s.run.map (p.runs + ·) }

def View.behind (p : Past) (v : View) : View := { v with run := v.run.map (p.runs + ·) }

end Execution

namespace Offer

def behind (p : Past) (o : Offer) : Offer := { o with receiver := p.receipts.size + o.receiver }

end Offer

namespace ChoiceSlot

def behind (p : Past) (s : ChoiceSlot) : ChoiceSlot :=
  ⟨s.pending.map (Offer.behind p), p.receipts ++ s.receipts⟩

end ChoiceSlot

namespace Timer

def behind (p : Past) (t : Timer) : Timer := { t with stop := p.flags.size + t.stop }

end Timer

namespace Mixer

def behind (p : Past) (m : Mixer) : Mixer :=
  { m with fades := .ofFn fun c => (m.fades.get c).map (p.fibers + ·) }

end Mixer

namespace Event

def behind (p : Past) : Event → Event
  | .started run => .started (p.runs + run)
  | e => e

end Event

namespace Note

def behind (p : Past) : Note → Note
  | .viewed view command => .viewed (view.behind p) command
  | n => n

end Note

namespace Deed

def behind (p : Past) : Deed → Deed
  | .published f => .published (f.behind p)
  | .took f => .took (f.behind p)
  | .event e => .event (e.behind p)
  | .note n => .note (n.behind p)
  | .outcome run o => .outcome (p.runs + run) o
  | .loaded number error => .loaded (p.loads + number) error
  | d => d

end Deed

namespace Entry

def behind (p : Past) (e : Entry) : Entry := ⟨e.author.map (p.fibers + ·), e.deed.behind p⟩

end Entry

namespace World

def behind (p : Past) (w : World) : World where
  settings := w.settings
  rig := w.rig
  feed := w.feed.behind p
  now := p.now + w.now
  state := w.state.behind p
  slot := w.slot.behind p
  registry := w.registry
  vars := w.vars
  programs := p.programs
  flags := ⟨p.flags ++ w.flags.raised⟩
  scope := p.flags.size + w.scope
  timers := p.timers ++ w.timers.map (Timer.behind p)
  mixer := w.mixer.behind p
  loading := w.loading
  boardColor := w.boardColor
  sceneFails := w.sceneFails
  permits := p.permits + w.permits
  releases := w.releases
  ready := p.ready ++ w.ready.map (Fiber.behind p)
  blocked := w.blocked.map (Parked.behind p)
  nextFiber := p.fibers + w.nextFiber
  hasty id := if id < p.fibers then p.hasty id else w.hasty (id - p.fibers)
  runs := p.runs + w.runs
  loads := p.loads + w.loads
  actor := w.actor.map (p.fibers + ·)
  chronicle := p.chronicle ++ w.chronicle.map (Entry.behind p)

end World

variable {p : Past} {w : World} {f : Fiber}

namespace Span

theorem nanos_ext {a b : Span} (h : a.nanos = b.nanos) : a = b := by
  cases a; cases b; cases h; rfl

theorem add_le_add_left_iff {a b c : Span} : a + b ≤ a + c ↔ b ≤ c := by
  simp [le_def]

theorem add_lt_add_left_iff {a b c : Span} : a + b < a + c ↔ b < c := by
  simp [lt_def]

theorem add_left_inj {a b c : Span} : a + b = a + c ↔ b = c := by
  refine ⟨fun h => nanos_ext ?_, fun h => h ▸ rfl⟩
  have := congrArg nanos h
  simpa using this

theorem add_assoc (a b c : Span) : a + b + c = a + (b + c) :=
  nanos_ext (Nat.add_assoc ..)

end Span

namespace Flags

theorem isRaised_behind (a : Array Bool) (flags : Flags) (i : Nat) :
    (Flags.mk (a ++ flags.raised)).isRaised (a.size + i) = flags.isRaised i := by
  simp [isRaised, Array.getD_eq_getD_getElem?, Array.getElem?_append_right]

theorem raise_behind (a : Array Bool) (flags : Flags) (i : Nat) :
    (Flags.mk (a ++ flags.raised)).raise (a.size + i) = ⟨a ++ (flags.raise i).raised⟩ := by
  simp [raise]

end Flags

namespace World

/-! ### The chronicle -/

theorem record_behind (w : World) (d : Deed) :
    (w.behind p).record (d.behind p) = (w.record d).behind p := by
  simp [record, behind, Entry.behind]

theorem remark_behind (w : World) (r : Remark) :
    (w.behind p).remark r = (w.remark r).behind p :=
  record_behind w (.remark r)

theorem stage_behind (w : World) (c : StageCall) : (w.behind p).stage c = (w.stage c).behind p :=
  record_behind w (.stage c)

theorem emit_behind (w : World) (e : Event) :
    (w.behind p).emit (e.behind p) = (w.emit e).behind p :=
  record_behind w (.event e)

/-! ### Fibers -/

theorem resume_behind (clear : p.ready = []) (w : World) (f : Fiber) :
    (w.behind p).resume (f.behind p) = (w.resume f).behind p := by
  simp [resume, behind, clear]

theorem park_behind (w : World) (wait : Wait) (f : Fiber) :
    (w.behind p).park (wait.behind p) (f.behind p) = (w.park wait f).behind p := by
  simp [park, behind, Parked.behind]

theorem spawn_behind (w : World) (role : Role) (cursor : Option Cursor) (todo : List Act) :
    (w.behind p).spawn (role.behind p) (cursor.map (Cursor.behind p)) (todo.map (Act.behind p)) =
      (w.spawn role cursor todo).behind p := by
  simp [spawn, behind, Fiber.start, Fiber.behind, Nat.add_assoc]

theorem wake_behind {q q' : Parked → Bool} (same : ∀ b, q' (b.behind p) = q b) (w : World) :
    (w.behind p).wake q' = (w.wake q).behind p := by
  have filtered : (w.blocked.map (Parked.behind p)).filter q' =
      (w.blocked.filter q).map (Parked.behind p) := by
    rw [List.filter_map]
    exact congrArg _ (List.filter_congr fun b _ => same b)
  have rest : (w.blocked.map (Parked.behind p)).filter (fun b => !q' b) =
      (w.blocked.filter fun b => !q b).map (Parked.behind p) := by
    rw [List.filter_map]
    exact congrArg _ (List.filter_congr fun b _ => congrArg _ (same b))
  simp [wake, behind, filtered, rest, Parked.behind]

theorem abort_behind (young : ∀ f ∈ p.ready, f.id < p.fibers) (w : World) (id : Nat) :
    (w.behind p).abort (p.fibers + id) = (w.abort id).behind p := by
  have doomed (f : Fiber) : doom (p.fibers + id) (f.behind p) = (doom id f).behind p := by
    by_cases same : f.id = id <;> simp [doom, Fiber.behind, same]
  have spared : p.ready.map (doom (p.fibers + id)) = p.ready := by
    refine (List.map_congr_left fun f member => ?_).trans (List.map_id _)
    have below := young f member
    exact if_neg (by omega)
  have marked : { w.behind p with
      ready := (w.behind p).ready.map (doom (p.fibers + id))
      blocked := (w.behind p).blocked.map fun (b : Parked) =>
        ⟨b.wait, doom (p.fibers + id) b.fiber⟩ } =
      { w with
        ready := w.ready.map (doom id)
        blocked := w.blocked.map fun (b : Parked) => ⟨b.wait, doom id b.fiber⟩ }.behind p := by
    simp [behind, spared, Function.comp_def, doomed, Parked.behind]
  unfold abort
  dsimp only
  rw [marked]
  exact wake_behind (fun b => by simp [Parked.behind, Fiber.behind]) _

theorem watches_behind (f : Fiber) : (f.behind p).watches = f.watches.map (p.flags.size + ·) := by
  cases role : f.role <;> simp [Fiber.watches, Fiber.behind, role, Role.behind]

theorem raise_behind (w : World) (flag : Nat) :
    (w.behind p).raise (p.flags.size + flag) = (w.raise flag).behind p := by
  have raised : { w.behind p with flags := (w.behind p).flags.raise (p.flags.size + flag) } =
      { w with flags := w.flags.raise flag }.behind p := by
    simp [behind, Flags.raise_behind]
  have watched (b : Parked) :
      ((b.behind p).fiber.watches == some (p.flags.size + flag)) =
        (b.fiber.watches == some flag) := by
    rw [Parked.behind, watches_behind]
    cases b.fiber.watches <;> simp
  unfold raise
  dsimp only
  rw [raised]
  exact wake_behind watched _

/-! ### Effects in the background -/

theorem freshScope_behind (w : World) : (w.behind p).freshScope = w.freshScope.behind p := by
  simp [freshScope, Flags.fresh, behind]

theorem wake_none {q : Parked → Bool} (none : ∀ b ∈ w.blocked, q b = false) : w.wake q = w := by
  have woken : w.blocked.filter q = [] := by
    rw [List.filter_eq_nil_iff]
    simpa using none
  have rest : w.blocked.filter (fun b => !q b) = w.blocked := by
    rw [List.filter_eq_self]
    simpa using none
  simp [wake, woken, rest]

/-- A flag of the past is up already, and nobody who is still there waits for it. -/
theorem raise_past (w : World) {flag : Nat} (up : p.flags[flag]? = some true) :
    (w.behind p).raise flag = w.behind p := by
  obtain ⟨bound, up⟩ := Array.getElem?_eq_some_iff.mp up
  have flags : (w.behind p).flags.raise flag = (w.behind p).flags := by
    refine congrArg Flags.mk (Array.ext_getElem? fun i => ?_)
    rw [Array.getElem?_setIfInBounds]
    split
    · rename_i same
      subst same
      simp [behind, Array.getElem?_append_left bound, bound, up]
      omega
    · rfl
  have unwatched : ∀ b ∈ (w.behind p).blocked, (b.fiber.watches == some flag) = false := by
    intro b member
    obtain ⟨b, -, rfl⟩ := List.mem_map.mp member
    rw [Parked.behind, watches_behind]
    cases b.fiber.watches with
    | none => rfl
    | some i => simp; omega
  unfold raise
  dsimp only
  rw [flags]
  exact wake_none unwatched

theorem back?_behind (w : World) : (w.behind p).timers.back? =
    (w.timers.back?.map (Timer.behind p)).or p.timers.back? := by
  simp [behind, Array.back?_append]

theorem stopCountdown_behind (stopped : p.Stopped) (w : World) :
    (w.behind p).stopCountdown = w.stopCountdown.behind p := by
  unfold stopCountdown
  rw [back?_behind]
  cases last : w.timers.back? with
  | some t => exact raise_behind w t.stop
  | none =>
    cases old : p.timers.back? with
    | none => rfl
    | some t => exact raise_past w (stopped t old)

theorem renewScope_behind (stopped : p.Stopped) (w : World) :
    (w.behind p).renewScope = w.renewScope.behind p := by
  unfold renewScope
  dsimp only
  rw [freshScope_behind]
  show (if w.freshScope.settings.cancelStaleEffects then
    ((w.freshScope.behind p).raise (p.flags.size + w.scope)).stopCountdown else _) = _
  rw [raise_behind, stopCountdown_behind stopped]
  split <;> rfl

theorem cancelSideEffects_behind (stopped : p.Stopped) (w : World) :
    (w.behind p).cancelSideEffects = w.cancelSideEffects.behind p := by
  unfold cancelSideEffects
  dsimp only
  rw [freshScope_behind, show (w.behind p).scope = p.flags.size + w.scope from rfl, raise_behind,
    stopCountdown_behind stopped, remark_behind]

theorem startCountdown_behind (stopped : p.Stopped) (w : World) (c : Countdown) :
    (w.behind p).startCountdown c = (w.startCountdown c).behind p := by
  unfold startCountdown
  dsimp only
  rw [stopCountdown_behind stopped, stage_behind, stage_behind, remark_behind]
  generalize ((w.stopCountdown.stage _).stage _).remark _ = v
  have added : { v.behind p with
      flags := (v.behind p).flags.fresh.1
      timers := (v.behind p).timers.push ⟨c, (v.behind p).flags.fresh.2⟩ } =
      { v with
        flags := v.flags.fresh.1
        timers := v.timers.push ⟨c, v.flags.fresh.2⟩ }.behind p := by
    simp [behind, Flags.fresh, Timer.behind]
  rw [added]
  have size : (v.behind p).timers.size = p.timers.size + v.timers.size := by simp [behind]
  have stop : (v.behind p).flags.fresh.2 = p.flags.size + v.flags.fresh.2 := by
    simp [behind, Flags.fresh]
  rw [size, stop]
  exact spawn_behind _ (.countdown _ _) none [.count _ none]

/-! ### Sound -/

theorem modifyStrip_behind (w : World) (channel : Channel) (g : Strip → Strip) :
    (w.behind p).modifyStrip channel g = (w.modifyStrip channel g).behind p := rfl

theorem setFade_behind (w : World) (channel : Channel) (task : Option Nat) :
    (w.behind p).setFade channel (task.map (p.fibers + ·)) = (w.setFade channel task).behind p := by
  have fades : (w.mixer.behind p).setFade channel (task.map (p.fibers + ·)) =
      (w.mixer.setFade channel task).behind p := by
    cases channel <;> rfl
  simp only [setFade, behind, fades]

theorem fade_behind (w : World) (channel : Channel) :
    (w.behind p).mixer.fades.get channel = (w.mixer.fades.get channel).map (p.fibers + ·) := by
  simp [behind, Mixer.behind]

theorem cancelFade_behind (young : ∀ f ∈ p.ready, f.id < p.fibers) (w : World) (channel : Channel) :
    (w.behind p).cancelFade channel = (w.cancelFade channel).behind p := by
  unfold cancelFade
  rw [fade_behind]
  cases w.mixer.fades.get channel with
  | none => rfl
  | some task =>
    simp only [Option.map_some]
    rw [show (w.behind p).setFade channel none = _ from setFade_behind w channel none]
    exact abort_behind young _ task

theorem silence_behind (w : World) (channel : Channel) :
    (w.behind p).silence channel = (w.silence channel).behind p := by
  unfold silence
  rw [modifyStrip_behind, remark_behind]
  exact record_behind _ (.sound _)

theorem play_behind (young : ∀ f ∈ p.ready, f.id < p.fibers) (w : World) (channel : Channel)
    (clip : Clip) (pitch : Float32) :
    (w.behind p).play channel clip pitch = (w.play channel clip pitch).behind p := by
  unfold play
  rw [show (w.behind p).rig = w.rig from rfl]
  split
  · have cleared : (if channel.isLooping then (w.behind p).cancelFade channel else w.behind p) =
        (if channel.isLooping then w.cancelFade channel else w).behind p := by
      split
      · exact cancelFade_behind young w channel
      · rfl
    dsimp only
    rw [cleared, modifyStrip_behind, remark_behind]
    exact record_behind _ (.sound _)
  · exact record_behind _ (.audio _)

theorem subscribe_behind (feed : Feed) : (feed.behind p).subscribe = feed.subscribe.behind p := by
  simp [Feed.subscribe, Feed.behind, Cursor.behind]

theorem fadeOut_behind (young : ∀ f ∈ p.ready, f.id < p.fibers) (w : World) (channel : Channel)
    (span : Span) : (w.behind p).fadeOut channel span =
      ((w.fadeOut channel span).1.behind p, (w.fadeOut channel span).2) := by
  unfold fadeOut
  rw [show (w.behind p).rig = w.rig from rfl]
  split
  · split
    · rw [remark_behind]
    · dsimp only
      rw [cancelFade_behind young]
      generalize w.cancelFade channel = v
      rw [show (v.behind p).rig = v.rig from rfl]
      split
      · have spawned := spawn_behind (p := p) v (.fade channel) (some v.feed.subscribe)
          [.sweep (.start .own (.volume channel) span), .silence channel]
        rw [Option.map_some, ← subscribe_behind] at spawned
        have faded := setFade_behind (p := p) (v.spawn (.fade channel) (some v.feed.subscribe)
          [.sweep (.start .own (.volume channel) span), .silence channel]) channel (some v.nextFiber)
        rw [← faded, ← spawned]
        rfl
      · rw [remark_behind, silence_behind]
  · split
    · rfl
    · exact congrArg (·, Except.ok ()) (record_behind w (.audio _))

theorem stopChannel_behind (young : ∀ f ∈ p.ready, f.id < p.fibers) (w : World)
    (channel : Channel) :
    (w.behind p).stopChannel channel = (w.stopChannel channel).behind p := by
  unfold stopChannel
  rw [cancelFade_behind young, modifyStrip_behind, remark_behind]

/-! ### Scenes -/

theorem setBoard_behind (w : World) (color : Color) :
    (w.behind p).setBoard color = (w.setBoard color).behind p :=
  record_behind { w with boardColor := color } (.scene (.board color))

theorem maskBoard_behind (w : World) (blocked : Bool) :
    (w.behind p).maskBoard blocked = (w.maskBoard blocked).behind p := by
  unfold maskBoard
  rw [← remark_behind]
  exact congrArg (World.remark · _) (record_behind w (.scene (.blocked blocked)))

theorem enterScene_behind (w : World) (scene : String) : (w.behind p).enterScene scene =
    ((w.enterScene scene).1.behind p, (w.enterScene scene).2) := by
  unfold enterScene
  rw [show (w.behind p).sceneFails = w.sceneFails from rfl]
  split
  · rfl
  split
  · rfl
  · rw [remark_behind]

/-! ### Choices -/

theorem receipt_behind (s : ChoiceSlot) (receiver : Nat) :
    (s.behind p).receipt (p.receipts.size + receiver) = s.receipt receiver := by
  simp [ChoiceSlot.receipt, ChoiceSlot.behind, Array.getD_eq_getD_getElem?,
    Array.getElem?_append_right]

theorem mark_behind (s : ChoiceSlot) (receiver : Nat) (r : Receipt) :
    (s.behind p).mark (p.receipts.size + receiver) r = (s.mark receiver r).behind p := by
  simp [ChoiceSlot.mark, ChoiceSlot.behind]

theorem close_behind (s : ChoiceSlot) : (s.behind p).close = s.close.behind p := by
  unfold ChoiceSlot.close
  cases pending : s.pending with
  | none => simp [ChoiceSlot.behind, pending]
  | some offer =>
    have there : (s.behind p).pending = some (offer.behind p) := by
      simp [ChoiceSlot.behind, pending]
    simp only [there]
    rw [show (offer.behind p).receiver = p.receipts.size + offer.receiver from rfl, receipt_behind,
      mark_behind]
    split <;> rfl

theorem offer_behind (s : ChoiceSlot) (available : Nat) : (s.behind p).offer available =
    ((s.offer available).1.behind p, p.receipts.size + (s.offer available).2) := by
  unfold ChoiceSlot.offer
  dsimp only
  rw [close_behind]
  simp [ChoiceSlot.behind, Offer.behind]

theorem slot_select_behind (s : ChoiceSlot) (index : Nat) : (s.behind p).select index =
    ((s.select index).1.behind p, (s.select index).2) := by
  unfold ChoiceSlot.select
  cases pending : s.pending with
  | none => simp [ChoiceSlot.behind, pending]
  | some offer =>
    have there : (s.behind p).pending = some (offer.behind p) := by
      simp [ChoiceSlot.behind, pending]
    simp only [there]
    rw [show (offer.behind p).receiver = p.receipts.size + offer.receiver from rfl, receipt_behind,
      mark_behind, show (offer.behind p).available = offer.available from rfl]
    split
    · rfl
    split <;> rfl

theorem wakes_answer_behind (receiver : Nat) (b : Parked) :
    ((b.behind p).wait == Wait.answer (p.receipts.size + receiver)) =
      (b.wait == Wait.answer receiver) := by
  rw [Parked.behind, Bool.eq_iff_iff, beq_iff_eq, beq_iff_eq]
  cases b.wait <;> simp [Wait.behind]

theorem select_behind (w : World) (index : Nat) : (w.behind p).select index =
    ((w.select index).1.behind p, (w.select index).2) := by
  have selected := slot_select_behind (p := p) w.slot index
  unfold select
  rw [show (w.behind p).slot = w.slot.behind p from rfl, selected]
  cases result : w.slot.select index with
  | mk slot answer =>
    cases answer with
    | error e => exact congrArg (·, Except.error e) (remark_behind { w with slot } _)
    | ok =>
      cases pending : w.slot.pending with
      | none =>
        rw [ChoiceSlot.select, pending] at result
        cases result
      | some offer =>
        refine congrArg (·, Except.ok ()) ?_
        simp only [ChoiceSlot.behind, pending, Option.map_some, Option.getD_some]
        exact wake_behind (wakes_answer_behind offer.receiver)
          { w with slot, state := { w.state with chosen := some index } }

theorem closeSlot_behind (w : World) : (w.behind p).closeSlot = w.closeSlot.behind p := by
  unfold closeSlot
  have closed : { w.behind p with slot := (w.behind p).slot.close } =
      { w with slot := w.slot.close }.behind p := by
    rw [show (w.behind p).slot = w.slot.behind p from rfl, close_behind]
    rfl
  dsimp only
  rw [closed]
  cases pending : w.slot.pending with
  | none => simp [behind, ChoiceSlot.behind, pending]
  | some offer =>
    have there : (w.behind p).slot.pending = some (offer.behind p) := by
      simp [behind, ChoiceSlot.behind, pending]
    simp only [there]
    exact wake_behind (wakes_answer_behind offer.receiver) _

/-! ### Runs -/

theorem settleIdle_behind (w : World) : (w.behind p).settleIdle = w.settleIdle.behind p := by
  have reset : { w.behind p with state := (w.behind p).state.reset } =
      { w with state := w.state.reset }.behind p := rfl
  unfold settleIdle
  dsimp only
  rw [reset, closeSlot_behind, stage_behind, stage_behind]

/-- Only the number of the run is another one. -/
theorem execute_behind (stopped : p.Stopped) (w : World) (q : Program) : (w.behind p).execute q =
    ((w.execute q).1.behind p, (w.execute q).2.1, (w.execute q).2.2.map (p.runs + ·)) := by
  unfold execute
  split
  · rw [remark_behind]
    rfl
  rw [show (w.behind p).state.executing = w.state.executing from rfl]
  split
  · rw [remark_behind]
    rfl
  split
  · rw [remark_behind]
    rfl
  split
  · rw [remark_behind]
    rfl
  · have begun : { w.behind p with
        state := (w.behind p).state.begin (w.behind p).runs
        runs := (w.behind p).runs + 1 } =
        { w with state := w.state.begin w.runs, runs := w.runs + 1 }.behind p := rfl
    have started : Event.started (w.behind p).runs = (Event.started w.runs).behind p := rfl
    dsimp only
    rw [begun, renewScope_behind stopped, stage_behind, stage_behind, started, emit_behind]
    generalize World.renewScope _ = v
    rw [show (v.behind p).feed = v.feed.behind p from rfl, subscribe_behind]
    rename_i q' _ _
    exact congrArg (·, q', Except.ok (p.runs + w.runs))
      (spawn_behind _ (.run ⟨w.runs, q', 0, .empty⟩) (some _) [])

end World

end SceneScript
