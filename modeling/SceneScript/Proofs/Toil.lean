import Mathlib.Algebra.Order.BigOperators.Group.Multiset
import SceneScript.Proofs.Halting
import SceneScript.Proofs.Mishaps
/-!
Fibers come to rest. Every act counts for the turns that it may take, those of the acts it puts in
its place and of the fiber it may start among them. A turn makes the sum over all fibers less, or
parks its fiber, or fetches a command of the script (`turn_eases`). So fibers have turns without end
only if the script goes on and on (`comes_to_rest`).
-/

namespace SceneScript

/-- What is left of a countdown. -/
def remaining (timers : Array Timer) (i : Nat) : Nat := (timers[i]?.map (·.left.remaining)).getD 0

/-- How many turns an act may take. Frames come on top of that. -/
def Act.toil (timers : Array Timer) : Act → Nat
  | .sweep _ | .branch .. | .switch _ => 2
  | .reveal r => 4 * (r.last - r.shown) + 1
  | .offer _ => 14
  | .answer .. => 8
  | .chosen .. => 6
  | .tween .. => 4
  | .hush .. | .hushMusic _ => 5
  | .timer c => c.remaining + 3
  | .count i _ => remaining timers i + 1
  | .load _ => 15
  | .clearBoard _ => 3
  | _ => 1

/-- How many turns the fiber that an act starts may take. -/
def Act.hires : Act → Nat
  | .tween .. => 3
  | .hush .. | .hushMusic _ => 4
  | .timer c => c.remaining + 2
  | _ => 0

def Act.toils (timers : Array Timer) (acts : List Act) : Nat := (acts.map (toil timers)).sum

/-- How many frames the fiber has yet to take. -/
def Fiber.lag (f : Fiber) (feed : Feed) : Nat :=
  (feed.count - (f.place feed .own).taken) + (feed.count - (f.place feed .board).taken)

def Fiber.toil (f : Fiber) (feed : Feed) (timers : Array Timer) : Nat :=
  1 + 2 * f.lag feed + Act.toils timers f.todo

/-- How many turns all fibers may take before they wait. -/
def Backstage.toil (b : Backstage) : Nat := (b.hands.map fun f => f.toil b.feed b.timers).sum

/-- Every countdown that a fiber is to count is there. -/
def Fiber.Wound (f : Fiber) (timers : Array Timer) : Prop :=
  ∀ i due, .count i due ∈ f.todo → i < timers.size

def Backstage.Wound (b : Backstage) : Prop := ∀ f ∈ b.hands, f.Wound b.timers

/-- Countdowns only count down. -/
def Winds (timers timers' : Array Timer) : Prop :=
  ∀ i < timers.size, remaining timers' i ≤ remaining timers i

namespace Act

variable {timers timers' : Array Timer} {a : Act} {acts new : List Act}

@[simp] theorem toils_nil : toils timers [] = 0 := rfl

@[simp] theorem toils_cons : toils timers (a :: acts) = a.toil timers + toils timers acts := rfl

@[simp] theorem toils_append : toils timers (acts ++ new) = toils timers acts + toils timers new := by
  rw [toils, List.map_append, List.sum_append]
  rfl

theorem hires_lt_toil (a : Act) : a.hires < a.toil timers := by
  cases a <;> simp only [hires, toil] <;> omega

theorem toil_le (winds : Winds timers timers') (wound : ∀ i due, a = .count i due → i < timers.size) :
    a.toil timers' ≤ a.toil timers := by
  cases a with
  | count i due => exact Nat.add_le_add_right (winds i (wound i due rfl)) 1
  | _ => exact Nat.le_refl _

theorem toils_le (winds : Winds timers timers')
    (wound : ∀ i due, .count i due ∈ acts → i < timers.size) :
    toils timers' acts ≤ toils timers acts := by
  induction acts with
  | nil => exact Nat.le_refl _
  | cons a acts ih =>
    have first := toil_le (a := a) winds fun i due same => wound i due (by simp [same])
    have others := ih fun i due among => wound i due (List.mem_cons_of_mem a among)
    rw [toils_cons, toils_cons]
    omega

/-- Acts that take the place of another one take fewer turns than it does. -/
theorem toils_of_puts (puts : a.Puts new) (going : a.suspends = false) :
    toils timers' new + a.hires < a.toil timers := by
  cases a with
  | finish | stride | confirm | answer | enterScene | count => cases going
  | sweep =>
    rcases puts with rfl | ⟨-, rfl⟩ <;> simp [toil, hires]
  | reveal r =>
    rcases puts with rfl | ⟨hidden, _, _, rfl⟩
    · simp [toil, hires]
    · simp only [toils_cons, toils_nil, toil, hires]
      omega
  | offer | switch =>
    obtain ⟨_, rfl⟩ := puts
    simp [toil, hires, opening, Command.animate]
  | chosen =>
    obtain rfl := puts
    simp [toil, hires, closing, Command.animate]
  | branch => rcases puts with rfl | rfl <;> simp [toil, hires]
  | load job =>
    rcases puts with rfl | rfl
    · simp [toil, hires]
    · unfold SceneJob.acts
      split <;> simp [toil, hires]
  | clearBoard =>
    obtain ⟨_, _, _, _, rfl⟩ := puts
    simp [toil, hires]
  | _ =>
    obtain rfl := puts
    simpa using hires_lt_toil _

end Act

/-! ### All fibers -/

namespace Fiber

variable {f g : Fiber} {feed : Feed} {timers timers' : Array Timer} {lane : Lane}

theorem toil_of_calm (calm : g.calm = f.calm) : g.toil feed timers = f.toil feed timers := by
  have same : g.calm.toil feed timers = f.calm.toil feed timers := by rw [calm]
  exact same

theorem toil_le (winds : Winds timers timers') (wound : f.Wound timers) :
    f.toil feed timers' ≤ f.toil feed timers :=
  Nat.add_le_add_left (Act.toils_le winds wound) _

/-- A fiber that keeps its place, takes the newest one or gives it up has no more frames to take. -/
theorem lag_le (moved : ∀ lane, g.cursorOn lane = f.cursorOn lane ∨
      g.cursorOn lane = some feed.subscribe ∨ g.cursorOn lane = none) :
    g.lag feed ≤ f.lag feed := by
  have each (lane : Lane) : feed.count - (g.place feed lane).taken ≤
      feed.count - (f.place feed lane).taken := by
    rcases moved lane with same | here | gone
    · rw [place, place, same]
    · rw [place, here]
      exact Nat.le_trans (Nat.le_of_eq (Nat.sub_self _)) (Nat.zero_le _)
    · rw [place, gone]
      exact Nat.le_trans (Nat.le_of_eq (Nat.sub_self _)) (Nat.zero_le _)
  exact Nat.add_le_add (each .own) (each .board)

/-- Every frame that is taken is one less to take. -/
theorem lag_lt {fr : Frame} {c : Cursor} {missed : Nat}
    (pulled : feed.pull (f.place feed lane) = .frame fr c missed)
    (cursor : g.cursor = if lane = .own then some c else f.cursor)
    (board : g.boardCursor = if lane = .board then some c else f.boardCursor) :
    g.lag feed < f.lag feed := by
  obtain ⟨found, past⟩ := Feed.of_pull_eq_frame pulled
  obtain ⟨within, -⟩ := Array.getElem?_eq_some_iff.mp found
  have less : feed.count - c.taken < feed.count - (f.place feed lane).taken := by
    unfold Feed.count
    omega
  cases lane with
  | own =>
    have own : g.place feed .own = c := by simp [place, cursorOn, cursor]
    have other : g.place feed .board = f.place feed .board := by simp [place, cursorOn, board]
    rw [lag, lag, own, other]
    omega
  | board =>
    have own : g.place feed .board = c := by simp [place, cursorOn, board]
    have other : g.place feed .own = f.place feed .own := by simp [place, cursorOn, cursor]
    rw [lag, lag, own, other]
    omega

end Fiber

namespace Backstage

variable {b b' : Backstage} {f : Fiber}

@[simp] theorem toil_join (b : Backstage) (f : Fiber) :
    (b.join f).toil = f.toil b.feed b.timers + b.toil := by
  rw [toil, join, Multiset.map_cons, Multiset.sum_cons]
  rfl

@[simp] theorem toil_doom (b : Backstage) (id : Nat) : (b.doom id).toil = b.toil := by
  rw [toil, doom, Multiset.map_map]
  exact congrArg Multiset.sum (Multiset.map_congr rfl fun f _ =>
    Fiber.toil_of_calm (Fiber.calm_doom id f))

theorem toil_of_hands (hands : b'.hands = b.hands) (feed : b'.feed = b.feed)
    (timers : b'.timers = b.timers) : b'.toil = b.toil := by
  rw [toil, toil, hands, feed, timers]

theorem toil_cancel (b : Backstage) (c : Channel) : (b.cancel c).toil = b.toil := by
  unfold cancel
  split
  · exact toil_doom _ _
  · rfl

theorem toil_yield (b : Backstage) (f : Fiber) : (b.yield f).toil = b.toil := by
  unfold yield
  split
  · split <;> rfl
  · rfl

theorem toil_wind {timers : Array Timer} (wound : b.Wound) (winds : Winds b.timers timers) :
    { b with timers }.toil ≤ b.toil :=
  Multiset.sum_map_le_sum_map _ _ fun f among => Fiber.toil_le winds (wound f among)

/-- Work that adds no more than that. -/
structure Costs (b b' : Backstage) (n : Nat) : Prop where
  toil : b'.toil ≤ b.toil + n
  feed : b'.feed = b.feed
  winds : Winds b.timers b'.timers

theorem Costs.of_toil {n : Nat} (toil : b'.toil = b.toil) (feed : b'.feed = b.feed)
    (timers : b'.timers = b.timers) : Costs b b' n where
  toil := by omega
  feed := feed
  winds i _ := by rw [timers]

theorem Costs.of_hands {n : Nat} (hands : b'.hands = b.hands) (feed : b'.feed = b.feed)
    (timers : b'.timers = b.timers) : Costs b b' n :=
  .of_toil (toil_of_hands hands feed timers) feed timers

theorem costs_cancel (b : Backstage) (c : Channel) (n : Nat) : Costs b (b.cancel c) n := by
  refine .of_toil (toil_cancel b c) ?_ ?_ <;> unfold cancel <;> split <;> rfl

theorem Costs.join {n m : Nat} (h : Costs b b' n) (toil : f.toil b'.feed b'.timers ≤ m) :
    Costs b (b'.join f) (m + n) where
  toil := by
    have base := h.toil
    rw [toil_join]
    omega
  feed := h.feed
  winds := h.winds

/-- A fiber comes back with less to do than the work has cost. -/
theorem Costs.comes {n : Nat} {f' : Fiber} (h : Costs b b' n) (lag : f'.lag b.feed ≤ f.lag b.feed)
    (less : Act.toils b'.timers f'.todo + n < Act.toils b.timers f.todo) :
    (b'.join f').toil < (b.join f).toil := by
  have cost := h.toil
  rw [toil_join, toil_join, h.feed, Fiber.toil, Fiber.toil]
  omega

/-- The same for a fiber that took a frame. -/
theorem Costs.takes {f' : Fiber} (h : Costs b b' 0) (lag : f'.lag b.feed < f.lag b.feed)
    (more : Act.toils b'.timers f'.todo ≤ Act.toils b.timers f.todo + 1) :
    (b'.join f').toil < (b.join f).toil := by
  have cost := h.toil
  rw [toil_join, toil_join, h.feed, Fiber.toil, Fiber.toil]
  omega

theorem Costs.leaves {f : Fiber} (h : Costs b b' 0) : b'.toil < (b.join f).toil := by
  have cost := h.toil
  rw [toil_join, Fiber.toil]
  omega

end Backstage

/-! ### Acts -/

namespace World

open Backstage

variable {w x : World} {f : Fiber} {a : Act} {rest : List Fiber} {after : List Act}

theorem toil_start (id : Nat) (role : Role) (feed : Feed) (timers : Array Timer)
    {cursor : Option Cursor} (newest : cursor = none ∨ cursor = some feed.subscribe)
    (todo : List Act) :
    (Fiber.start id role cursor todo).toil feed timers = 1 + Act.toils timers todo := by
  have lag : (Fiber.start id role cursor todo).lag feed = 0 := by
    rcases newest with rfl | rfl <;>
      simp [Fiber.lag, Fiber.place, Fiber.cursorOn, Fiber.start, Feed.subscribe, Feed.count]
  rw [Fiber.toil, lag]
  rfl

theorem costs_play (w : World) (c : Channel) (clip : Clip) (pitch : Float32) (n : Nat) :
    Costs w.backstage (w.play c clip pitch).backstage n := by
  rw [backstage_play]
  split
  · split
    · have quiet := costs_cancel w.backstage c n
      exact ⟨quiet.toil, quiet.feed, quiet.winds⟩
    · exact .of_hands rfl rfl rfl
  · exact .of_hands rfl rfl rfl

theorem costs_fadeOut (w : World) (c : Channel) (span : Span) :
    Costs w.backstage (w.fadeOut c span).1.backstage 4 := by
  have quiet := costs_cancel w.backstage c
  rw [backstage_fadeOut]
  split
  · split
    · have slot : Costs w.backstage
          ((w.backstage.cancel c).setFade c (some w.nextFiber)) 0 :=
        ⟨(quiet 0).toil, (quiet 0).feed, (quiet 0).winds⟩
      refine slot.join (m := 4) (Nat.le_of_eq ?_)
      exact toil_start _ _ _ _ (.inr (congrArg (some ∘ Feed.subscribe) slot.feed.symm)) _
    · exact ⟨(quiet 4).toil, (quiet 4).feed, (quiet 4).winds⟩
  · exact .of_hands rfl rfl rfl

theorem winds_push (timers : Array Timer) (t : Timer) : Winds timers (timers.push t) := by
  intro i within
  rw [remaining, remaining, Array.getElem?_push_lt within, Array.getElem?_eq_getElem within]

theorem costs_startCountdown (w : World) (c : Countdown) (wound : w.backstage.Wound) :
    Costs w.backstage (w.startCountdown c).backstage (c.remaining + 2) := by
  rw [backstage_startCountdown]
  have pushed : Costs w.backstage { w.backstage with
      flags := (w.flags.stopLast w.timers).fresh.1,
      timers := w.timers.push ⟨c, (w.flags.stopLast w.timers).fresh.2⟩ } 0 :=
    ⟨toil_wind wound (winds_push _ _), rfl, winds_push _ _⟩
  refine pushed.join (m := c.remaining + 2) (Nat.le_of_eq ?_)
  refine (toil_start _ _ _ _ (.inl rfl) _).trans ?_
  simp [Act.toil, remaining]
  omega

theorem winds_countDown (w : World) (j : Nat) (due : Option Span) :
    Winds w.timers (w.countDown j due).timers := by
  intro i within
  have found := Array.getElem?_eq_getElem within
  obtain ⟨t, found', left⟩ := timers_countDown w j due found
  rw [remaining, remaining, found, found', Option.map_some, Option.map_some, Option.getD_some,
    Option.getD_some]
  rcases left with same | less
  · rw [same]
  · omega

theorem costs_work (w : World) (a : Act) (wound : w.backstage.Wound) :
    Costs w.backstage (w.work a).backstage a.hires := by
  cases a with
  | sweep s =>
    show Costs w.backstage (if s.elapsed < s.span then w.paint s.share s.paint else w).backstage _
    split
    · cases s.paint <;> exact .of_hands rfl rfl rfl
    · exact .of_hands rfl rfl rfl
  | tween target span start stop =>
    rw [work, backstage_spawn]
    have still : Costs w.backstage w.backstage 0 := .of_hands rfl rfl rfl
    exact still.join (m := 3) (Nat.le_of_eq (toil_start _ _ _ _ (.inr rfl) _))
  | play c clip pitch => exact costs_play w c clip pitch _
  | hush c span => exact costs_fadeOut w c span
  | hushMusic span => exact costs_fadeOut w .bgm span
  | silence c =>
    rw [work, backstage_silence]
    exact .of_hands rfl rfl rfl
  | timer c => exact costs_startCountdown w c wound
  | stopTimer =>
    rw [work, backstage_stopCountdown]
    exact .of_hands rfl rfl rfl
  | count i due =>
    rw [work, backstage_countDown]
    exact ⟨toil_wind wound (winds_countDown w i due), rfl, winds_countDown w i due⟩
  | _ => exact .of_hands rfl rfl rfl

theorem costs_amend (w : World) (a : Act) : Costs w.backstage (w.amend a).backstage 0 := by
  cases a with
  | silence c =>
    rw [amend, backstage_silence]
    exact .of_hands rfl rfl rfl
  | _ => exact .of_hands rfl rfl rfl

theorem costs_yield (w : World) (f : Fiber) : Costs w.backstage (w.backstage.yield f) 0 := by
  refine .of_toil (toil_yield _ f) ?_ ?_ <;> unfold Backstage.yield <;> split
  all_goals first | rfl | (split <;> rfl)

theorem wound_hands (play : w.InPlay) (manned : w.backstage.Manned) : w.backstage.Wound := by
  intro f among i due member
  obtain ⟨s, role⟩ := counts_own play.order manned among member
  have tends := play.tended.tends f.calm (List.mem_map_of_mem (mem_hands.mp among))
  rw [Fiber.calm_role, role] at tends
  obtain ⟨t, found, -⟩ := tends
  exact (Array.getElem?_eq_some_iff.mp found).1

theorem costs_modifyTimer (w : World) (i : Nat) (c : Countdown) (wound : w.backstage.Wound)
    (winds : Winds w.timers (w.modifyTimer i c).timers) :
    Costs w.backstage (w.modifyTimer i c).backstage 0 := by
  have same : (w.modifyTimer i c).backstage =
      { w.backstage with timers := (w.modifyTimer i c).timers } := rfl
  rw [same]
  generalize (w.modifyTimer i c).timers = timers at winds
  exact ⟨toil_wind wound winds, rfl, winds⟩

theorem winds_tick (w : World) {i : Nat} {t : Timer} (found : w.timers[i]? = some t)
    (running : t.left.isExpired = false) : Winds w.timers (w.modifyTimer i t.left.tick.1).timers ∧
      remaining (w.modifyTimer i t.left.tick.1).timers i < remaining w.timers i := by
  have less := Countdown.tick_of_running running
  have own : remaining (w.modifyTimer i t.left.tick.1).timers i = t.left.tick.1.remaining := by
    simp [remaining, modifyTimer, Array.getElem?_modify, found]
  have old : remaining w.timers i = t.left.remaining := by simp [remaining, found]
  refine ⟨fun j _ => ?_, by omega⟩
  by_cases same : i = j
  · subst same
    omega
  · simp [remaining, modifyTimer, Array.getElem?_modify, same]

/-! ### Turns -/

section

variable {b : Backstage} {f' : Fiber} {n : Nat} (todo : f.todo = a :: after)
  (wound : f.Wound w.timers)
include todo wound

/-- A fiber has done an act and goes on with what the act put in its place. -/
theorem toil_goes (new : List Act) (costs : Costs w.backstage b n)
    (lag : f'.lag w.feed ≤ f.lag w.feed) (todo' : f'.todo = new ++ after)
    (less : Act.toils b.timers new + n < a.toil w.timers) :
    (b.join f').toil < (w.backstage.join f).toil := by
  refine costs.comes lag ?_
  have others : Act.toils b.timers after ≤ Act.toils w.timers after :=
    Act.toils_le costs.winds fun i due among => wound i due (by simp [todo, among])
  rw [todo', todo, Act.toils_append, Act.toils_cons]
  show _ < a.toil w.timers + Act.toils w.timers after
  omega

theorem toil_drops (costs : Costs w.backstage b n) (cheap : n ≤ a.hires)
    (lag : f'.lag w.feed ≤ f.lag w.feed) (todo' : f'.todo = after) :
    (b.join f').toil < (w.backstage.join f).toil := by
  have less : Act.toils b.timers [] + n < a.toil w.timers := by
    rw [Act.toils_nil, Nat.zero_add]
    exact Nat.lt_of_le_of_lt cheap (Act.hires_lt_toil a)
  exact toil_goes todo wound [] costs lag todo' less

end

/-- A fiber that has to wait keeps its act; a countdown notes when it is due. -/
theorem eq_of_stuck {b : Act} {wait : Wait} (suspends : a.suspends = true) (puts : a.Puts [b])
    (stuck : w.Stuck f b wait) : b = a ∨ ∃ i due due', a = .count i due ∧ b = .count i due' := by
  cases a with
  | finish | confirm | enterScene =>
    rcases puts with none | same
    · cases none
    · cases same
      exact .inl rfl
  | stride =>
    rcases puts with same | ⟨s, -, same⟩
    · cases same
      exact .inl rfl
    · cases same
      exact stuck.elim
  | answer =>
    rcases puts with same | ⟨_, more⟩
    · cases same
      exact .inl rfl
    · cases more
  | count =>
    rcases puts with none | ⟨_, same⟩
    · cases none
    · cases same
      exact .inr ⟨_, _, _, rfl, rfl⟩
  | _ => cases suspends

/-- A fiber that may wait is parked, or has less to do. -/
theorem Meets.eases (meets : Meets w { f with todo := after } a x) (suspends : a.suspends = true)
    (todo : f.todo = a :: after) (wound : f.Wound w.timers) (others : w.backstage.Wound) :
    x.backstage.toil < (w.backstage.join f).toil ∨
      x.backstage.toil ≤ (w.backstage.join f).toil ∧ x.ready = w.ready := by
  have still : Costs w.backstage w.backstage 0 := .of_hands rfl rfl rfl
  have told (e : Entry) : Costs w.backstage (w.backstage.write e) 0 := .of_hands rfl rfl rfl
  cases meets with
  | @waits b wait puts stuck parked =>
    right
    rw [parked]
    refine ⟨?_, rfl⟩
    have same : b.toil w.timers = a.toil w.timers := by
      rcases eq_of_stuck suspends puts stuck with rfl | ⟨i, due, due', rfl, rfl⟩ <;> rfl
    rw [backstage_park, toil_join, toil_join, Fiber.toil, Fiber.toil, todo]
    show 1 + 2 * f.lag w.feed + (b.toil w.timers + _) + _ ≤ _ + (a.toil w.timers + _) + _
    rw [same]
    exact Nat.le_refl _
  | passes f' own same =>
    left
    rw [same]
    refine toil_drops todo wound (costs_work w a others) (Nat.le_refl _) ?_ ?_
    · rcases own with rfl | ⟨e, rfl⟩ <;> exact Nat.le_refl _
    · rcases own with rfl | ⟨e, rfl⟩ <;> rfl
  | hears index act same =>
    subst act
    left
    rw [same]
    exact toil_goes todo wound [.resync, .chosen index _] still (Nat.le_refl _) rfl
      (by simp [Act.toil])
  | @takes lane fr c missed new takes pulled how same =>
    left
    rw [same]
    refine (told _).takes (Fiber.lag_lt pulled (cursor_setCursor _ _ _)
      (boardCursor_setCursor _ _ _)) ?_
    have todo' : (Fiber.setCursor { f with todo := after } lane c).todo = after :=
      (setCursor_fields _ lane c).2.2.1
    show Act.toils w.timers (new ++ (Fiber.setCursor { f with todo := after } lane c).todo) ≤ _
    rw [todo', todo, Act.toils_append]
    show Act.toils w.timers new + Act.toils w.timers after ≤
      a.toil w.timers + Act.toils w.timers after + 1
    rcases how with ⟨rfl, rfl⟩ | ⟨s, s', rfl, -, rfl⟩
    · split <;> simp only [Act.toils_nil, Act.toils_cons, Act.toil] <;> omega
    · simp only [Act.toils_nil, Act.toils_cons, Act.toil]
      omega
  | bursts same =>
    left
    rw [same, toil_yield]
    exact (told _).leaves
  | @ticks i due t next act found running same =>
    subst act
    left
    rw [same]
    obtain ⟨winds, less⟩ := winds_tick w found running
    have costs := costs_modifyTimer w i _ others winds
    refine toil_goes todo wound [.count i (some next)] costs (Nat.le_refl _) rfl ?_
    show remaining (w.modifyTimer i t.left.tick.1).timers i + 1 + 0 + 0 < remaining w.timers i + 1
    omega

/-- A turn leaves less to do, or parks its fiber, or fetches the next command of the script. -/
theorem turn_eases (play : w.InPlay) (manned : w.backstage.Manned) (ready : w.ready = f :: rest) :
    w.turn.backstage.toil < w.backstage.toil ∨
      w.turn.backstage.toil ≤ w.backstage.toil ∧ w.turn.ready = rest ∨
      f.isRun = true ∧ f.doomed = false ∧ f.todo = [] ∧ f.fault = none := by
  have wound : f.Wound w.timers := wound_hands play manned f (mem_hands_of_ready ready)
  have others : (w.taken f rest).backstage.Wound := fun g among =>
    wound_hands play manned g (mem_hands_of_taken ready among)
  rw [backstage_taken ready]
  cases turn_turns play.order ready with
  | ends _ same => exact .inl (same ▸ (costs_yield _ f).leaves)
  | fetches f' _ spared role empty fault =>
    exact .inr (.inr ⟨f.isRun_iff.mpr ⟨_, role⟩, spared, empty, fault⟩)
  | @works a after act spared todo fault works =>
    cases suspends : a.suspends with
    | true =>
      obtain ⟨f', rest', after', ready', -, -, todo', turned⟩ := turn_doing act
      obtain ⟨rfl, rfl⟩ := List.cons.inj (ready.symm.trans ready')
      obtain rfl := (List.cons.inj (todo.symm.trans todo')).2
      have meets := perform_meets (w.taken f rest) { f with todo := after } a suspends
      rw [turned]
      rcases meets.eases suspends todo wound others with less | parks
      · exact .inl less
      · exact .inr (.inl parks)
    | false =>
      left
      cases works with
      | goes f' onward cursor same board =>
        rw [same]
        have lag : f'.lag w.feed ≤ f.lag w.feed := Fiber.lag_le (cursorOn_goes cursor board)
        rcases onward.goes with ⟨-, new, todo', puts⟩ | ⟨-, todo'⟩
        · exact toil_goes (w := w.taken f rest) todo wound _ (costs_work _ a others) lag todo'
            (Act.toils_of_puts puts suspends)
        · exact toil_drops (w := w.taken f rest) todo wound (costs_work _ a others)
            (Nat.le_refl _) lag todo'
      | takes _ takes =>
        cases a with
        | stride | confirm => cases suspends
        | _ => cases takes
      | bursts stride =>
        subst stride
        cases suspends
      | falls _ same => exact same ▸ (costs_yield _ _).leaves
  | @unwinds a after e f' _ _ todo _ _ _ _ todo' _ cursor same board =>
    left
    rw [same]
    refine toil_drops (w := w.taken f rest) todo wound (costs_amend _ a) (Nat.zero_le _) ?_ todo'
    refine Fiber.lag_le fun lane => ?_
    cases lane with
    | own => exact .inl cursor
    | board => exact board.imp_right .inr

/-- The run whose turn it is has nothing left to do but to fetch its next command. -/
def Fetches (w : World) : Prop := ∃ f rest, w.ready = f :: rest ∧ f.isRun = true ∧
  f.doomed = false ∧ f.todo = [] ∧ f.fault = none

/-- After finitely many turns every fiber waits, unless the script goes on before. -/
theorem comes_to_rest (w : World) (play : w.InPlay) (manned : w.backstage.Manned) :
    ∃ n, (w.turns n).ready = [] ∨ (w.turns n).Fetches := by
  by_cases fetches : w.Fetches
  · exact ⟨0, .inr fetches⟩
  cases ready : w.ready with
  | nil => exact ⟨0, .inl ready⟩
  | cons f rest =>
    have later : w.turn.backstage.toil < w.backstage.toil ∨
        w.turn.backstage.toil ≤ w.backstage.toil ∧ w.turn.ready.length < w.ready.length := by
      rcases turn_eases play manned ready with less | ⟨same, parks⟩ | goesOn
      · exact .inl less
      · exact .inr ⟨same, by rw [parks, ready]; exact Nat.lt_succ_self _⟩
      · exact absurd ⟨f, rest, ready, goesOn⟩ fetches
    obtain ⟨n, rests⟩ := comes_to_rest w.turn (play.pulse .turn)
      (manned_turn play.order play.screened.sources_pos manned)
    refine ⟨n + 1, ?_⟩
    rw [turns, if_neg (by simp [ready])]
    exact rests
termination_by (w.backstage.toil, w.ready.length)
decreasing_by
  rw [Prod.lex_def]
  dsimp only
  omega

end World

end SceneScript
