import SceneScript.Proofs.Countdowns
/-!
Countdowns keep time (`countdowns_keep_time`): one tick for every period since the fiber first ran,
none after the countdown was stopped, and one end.
-/

namespace SceneScript

/-! ### What a countdown shows -/

/-- The texts of the first `k` ticks of a countdown of `n` hundredths. -/
def texts (n k : Nat) : List Tick :=
  (List.range k).map fun j => .text (Countdown.mk (n - (j + 1))).text

/-- The end of a countdown that nobody stopped. -/
def ringing : List Tick := [.exit, .timeout]

/-- What a countdown of `n` hundredths has shown after `m` periods. -/
def shown (n m : Nat) : List Tick := texts n (min n m) ++ if n ≤ m then ringing else []

section

variable {n k m : Nat}

@[simp] theorem length_texts (n k : Nat) : (texts n k).length = k := by simp [texts]

theorem texts_succ (n k : Nat) :
    texts n (k + 1) = texts n k ++ [.text (Countdown.mk (n - (k + 1))).text] := by
  simp [texts, List.range_succ]

theorem texts_ne_ringing : texts n k ≠ texts n m ++ ringing := by
  intro same
  have rings : Tick.timeout ∈ texts n k := by simp [same, ringing]
  simp [texts] at rings

end

/-- Where a countdown of `n` hundredths stands: when its fiber first ran, what that has left to do,
the hundredths left, whether the flag is up and whether it was stopped, and what it told. -/
inductive Dial (n : Nat) (period : Span) (i : Nat) (now : Span) :
    Option Span → List Act → Nat → Bool → Bool → List Tick → Prop where
  | fresh {up : Bool} : Dial n period i now none [.count i none] n up up []
  | counts {t due : Span} {k : Nat} {up : Bool} : k ≤ n →
      due.nanos = t.nanos + (k + 1) * period.nanos → t.nanos + k * period.nanos ≤ now.nanos →
      Dial n period i now (some t) [.count i (some due)] (n - k) up up (texts n k)
  | spent {began : Option Span} {k : Nat} : k ≤ n →
      (k = 0 ∨ ∃ t, began = some t ∧ t.nanos + k * period.nanos ≤ now.nanos) →
      Dial n period i now began [] (n - k) true true (texts n k)
  | rung {t : Span} {stopped : Bool} : t.nanos + n * period.nanos ≤ now.nanos →
      Dial n period i now (some t) [] 0 true stopped (texts n n ++ ringing)

namespace Dial

variable {n i left : Nat} {period now now' : Span} {began : Option Span} {todo : List Act}
  {up stopped : Bool} {told : List Tick}

/-- Time goes on, and maybe the countdown is stopped. -/
theorem other (h : Dial n period i now began todo left up stopped told) (later : now ≤ now')
    (stops : Bool) :
    Dial n period i now' began todo left (up || stops) (stopped || stops) told := by
  have later : now.nanos ≤ now'.nanos := later
  cases h with
  | fresh => exact .fresh
  | counts within due elapsed => exact .counts within due (Nat.le_trans elapsed later)
  | spent within elapsed =>
    refine .spent within (elapsed.imp_right ?_)
    rintro ⟨t, same, elapsed⟩
    exact ⟨t, same, Nat.le_trans elapsed later⟩
  | rung elapsed => exact .rung (Nat.le_trans elapsed later)

theorem todo_cases (h : Dial n period i now began todo left up stopped told) :
    todo = [] ∨ ∃ due, todo = [.count i due] := by
  cases h with
  | fresh | counts => exact .inr ⟨_, rfl⟩
  | spent | rung => exact .inl rfl

theorem ends (h : Dial n period i now began [] left up stopped told) :
    Dial n period i now (began.or (some now)) [] left up stopped told := by
  cases h with
  | spent within elapsed =>
    refine .spent within (elapsed.imp_right ?_)
    rintro ⟨t, rfl, reached⟩
    exact ⟨t, rfl, reached⟩
  | rung elapsed => exact .rung elapsed

theorem stops {due : Option Span}
    (h : Dial n period i now began [.count i due] left true stopped told) :
    Dial n period i now (began.or (some now)) [] left true stopped told := by
  cases h with
  | fresh => exact .spent (Nat.zero_le n) (.inl rfl)
  | counts within due elapsed => exact .spent within (.inr ⟨_, rfl, elapsed⟩)

theorem rings {due : Option Span}
    (h : Dial n period i now began [.count i due] 0 false stopped told) :
    Dial n period i now (began.or (some now)) [] 0 true stopped (told ++ ringing) := by
  generalize none : 0 = left at h
  cases h with
  | fresh =>
    subst none
    exact .rung (by simp)
  | @counts t due k _ within due elapsed =>
    obtain rfl : k = n := by omega
    rw [Nat.sub_self]
    exact .rung elapsed

theorem ticks {due : Option Span} (running : 0 < period.nanos)
    (h : Dial n period i now began [.count i due] left up stopped told) (some : left ≠ 0)
    (rings : due.getD (now + period) ≤ now) :
    Dial n period i now (began.or (.some now)) [.count i (due.getD (now + period) + period)]
      (left - 1) up stopped (told ++ [.text (Countdown.mk (left - 1)).text]) := by
  cases h with
  | fresh =>
    have rings : now.nanos + period.nanos ≤ now.nanos := rings
    omega
  | @counts t due k _ within same elapsed =>
    have rings : due.nanos ≤ now.nanos := rings
    have next : n - k - 1 = n - (k + 1) := by omega
    rw [next, ← texts_succ]
    refine .counts (by omega) ?_ (by omega)
    show due.nanos + period.nanos = _
    rw [same, Nat.add_assoc, ← Nat.succ_mul]

theorem waits {due : Option Span}
    (h : Dial n period i now began [.count i due] left up stopped told) :
    Dial n period i now (began.or (some now)) [.count i (some (due.getD (now + period)))] left up
      stopped told := by
  cases h with
  | fresh => exact .counts (Nat.zero_le n) (by simp) (by simp)
  | counts within due elapsed => exact .counts within due elapsed

/-- After the text for zero, the flag is up exactly if the countdown was stopped. -/
theorem whole {due : Option Span} (h : Dial n period i now began todo left up stopped (texts n n))
    (acts : todo = [.count i due]) : left = 0 ∧ up = stopped := by
  generalize all : texts n n = told at h
  have length : n = told.length := by rw [← all, length_texts]
  cases h with
  | fresh => exact ⟨length, rfl⟩
  | counts =>
    rw [length_texts] at length
    exact ⟨by omega, rfl⟩
  | spent | rung => cases acts

theorem cut_of_nil (h : Dial n period i now began todo left up stopped (texts n n))
    (spent : todo = []) : stopped = true := by
  generalize all : texts n n = told at h
  cases h with
  | fresh | counts => cases spent
  | spent => rfl
  | rung => exact absurd all texts_ne_ringing

theorem raised (h : Dial n period i now began todo left up true told) : up = true := by
  cases h <;> rfl

theorem shows (h : Dial n period i now began todo left up stopped told) : ∃ k ≤ n,
    (k = 0 ∨ ∃ t, began = some t ∧ t.nanos + k * period.nanos ≤ now.nanos) ∧
      (told = texts n k ∨ k = n ∧ told = texts n k ++ ringing) := by
  cases h with
  | fresh => exact ⟨0, Nat.zero_le _, .inl rfl, .inl rfl⟩
  | counts within _ elapsed => exact ⟨_, within, .inr ⟨_, rfl, elapsed⟩, .inl rfl⟩
  | spent within elapsed => exact ⟨_, within, elapsed, .inl rfl⟩
  | rung elapsed => exact ⟨_, Nat.le_refl _, .inr ⟨_, rfl, elapsed⟩, .inr ⟨rfl, rfl⟩⟩

/-- When the fiber waits for its next tick, there was one for every period. -/
theorem paced (h : Dial n period i now began todo left up false told) (running : 0 < period.nanos)
    (waits : todo ≠ [] → ∃ due, now < due ∧ todo = [.count i (some due)] ∧ left ≠ 0) :
    ∃ t, began = some t ∧ told = shown n ((now.nanos - t.nanos) / period.nanos) := by
  cases h with
  | fresh =>
    obtain ⟨due, -, same, -⟩ := waits (by simp)
    simp at same
  | @counts t due k _ within next elapsed =>
    obtain ⟨due', early, same, left⟩ := waits (by simp)
    obtain rfl : due = due' := by simpa using same
    have early : now.nanos < due.nanos := early
    have steps : (now.nanos - t.nanos) / period.nanos = k := by
      refine Nat.div_eq_of_lt_le (by omega) ?_
      rw [next] at early
      omega
    exact ⟨t, rfl, by rw [steps, shown, Nat.min_eq_right within, if_neg (by omega), List.append_nil]⟩
  | @rung t _ elapsed =>
    have steps : n ≤ (now.nanos - t.nanos) / period.nanos :=
      (Nat.le_div_iff_mul_le running).mpr (by omega)
    exact ⟨t, rfl, by rw [shown, Nat.min_eq_left steps, if_pos steps]⟩

theorem down_iff (h : Dial n period i now began todo left up stopped told) :
    up = false ↔ stopped = false ∧ told ≠ texts n n ++ ringing := by
  cases h with
  | fresh => exact ⟨fun spared => ⟨spared, by simp [ringing]⟩, And.left⟩
  | counts => exact ⟨fun spared => ⟨spared, texts_ne_ringing⟩, And.left⟩
  | spent | rung => simp

end Dial

namespace World

variable {w x : World} {f : Fiber} {p : Pulse} {id i stop : Nat} {c : Countdown}
  {since : Option Span} {cut : Bool}

/-! ### The past of a countdown -/

/-- When the fiber has its turn in this pulse, the time. -/
def ran? (w : World) (id : Nat) : Pulse → Option Span
  | .turn => if w.ready.head?.map (·.id) = some id then some w.now else none
  | _ => none

/-- When the fiber had its first turn. -/
def began (w : World) (id : Nat) : List Pulse → Option Span
  | [] => none
  | p :: ps => (w.ran? id p).or ((w.pulse p).began id ps)

/-- Whether the countdown on show was stopped. -/
def stopped (w : World) : List Pulse → Bool
  | [] => false
  | p :: ps => w.stops p || (w.pulse p).stopped ps

theorem began_concat (w : World) (id : Nat) (ps : List Pulse) (p : Pulse) :
    w.began id (ps ++ [p]) = (w.began id ps).or ((w.pulses ps).ran? id p) := by
  induction ps generalizing w with
  | nil => exact Option.or_none
  | cons q ps ih =>
    show (w.ran? id q).or ((w.pulse q).began id (ps ++ [p])) = _
    rw [ih, ← Option.or_assoc]
    rfl

theorem stopped_concat (w : World) (ps : List Pulse) (p : Pulse) :
    w.stopped (ps ++ [p]) = (w.stopped ps || (w.pulses ps).stops p) := by
  induction ps generalizing w with
  | nil => exact Bool.or_comm _ _
  | cons q ps ih =>
    show (w.stops q || (w.pulse q).stopped (ps ++ [p])) = _
    rw [ih, ← Bool.or_assoc]
    rfl

theorem ran?_own (own : w.OwnTurn p id) : w.ran? id p = some w.now := by
  obtain ⟨rfl, f, head, same⟩ := own
  rw [ran?, head, ← same]
  exact if_pos rfl

theorem ran?_other (other : ¬ w.OwnTurn p id) : w.ran? id p = none := by
  cases p with
  | turn => exact if_neg fun own => other (ownTurn_turn.mpr own)
  | _ => rfl

/-! ### Where a countdown stands -/

/-- All that is known, pulse by pulse, of the countdown that was started in `w`. -/
structure Counting (w : World) (c : Countdown) (since : Option Span) (cut : Bool) (x : World) :
    Prop where
  manned : x.backstage.Manned
  settings : x.settings = w.settings
  below : w.nextFiber < x.nextFiber
  sole : x.Sole w.nextFiber w.timers.size w.flags.size
  fiber : ∀ f ∈ x.hands, f.id = w.nextFiber →
    f.role = .countdown w.timers.size w.flags.size ∧ f.fault = none
  waits : ∀ b ∈ x.blocked, b.fiber.id = w.nextFiber → ∃ due, b.wait = .time due ∧
    b.fiber.todo = [.count w.timers.size (some due)] ∧
    ∀ t, x.timers[w.timers.size]? = some t → t.left.remaining ≠ 0
  dial : ∃ todo t, x.timers[w.timers.size]? = some t ∧
    (∀ f ∈ x.hands, f.id = w.nextFiber → f.todo = todo) ∧
    (todo ≠ [] → ∃ f ∈ x.hands, f.id = w.nextFiber) ∧
    Dial c.remaining w.settings.tickPeriod w.timers.size x.now since todo t.left.remaining
      (x.flags.isRaised w.flags.size) cut (x.ticks w.nextFiber)

/-- The rest of what is known is kept in every pulse. -/
theorem Counting.of_pulse (h : Counting w c since cut x) (play : x.InPlay) {since' : Option Span}
    {cut' : Bool}
    (fiber : ∀ f ∈ (x.pulse p).hands, f.id = w.nextFiber →
      f.role = .countdown w.timers.size w.flags.size ∧ f.fault = none)
    (waits : ∀ b ∈ (x.pulse p).blocked, b.fiber.id = w.nextFiber → ∃ due, b.wait = .time due ∧
      b.fiber.todo = [.count w.timers.size (some due)] ∧
      ∀ t, (x.pulse p).timers[w.timers.size]? = some t → t.left.remaining ≠ 0)
    (dial : ∃ todo t, (x.pulse p).timers[w.timers.size]? = some t ∧
      (∀ f ∈ (x.pulse p).hands, f.id = w.nextFiber → f.todo = todo) ∧
      (todo ≠ [] → ∃ f ∈ (x.pulse p).hands, f.id = w.nextFiber) ∧
      Dial c.remaining w.settings.tickPeriod w.timers.size (x.pulse p).now since' todo
        t.left.remaining ((x.pulse p).flags.isRaised w.flags.size) cut'
        ((x.pulse p).ticks w.nextFiber)) :
    Counting w c since' cut' (x.pulse p) where
  manned := manned_pulse play h.manned p
  settings := (settings_pulse play p).trans h.settings
  below := Nat.lt_of_lt_of_le h.below (nextFiber_pulse play p)
  sole := h.sole.pulse play p
  fiber := fiber
  waits := waits
  dial := dial

/-- A pulse in which it is not the turn of the countdown. -/
theorem Counting.other (h : Counting w c since cut x) (play : x.InPlay)
    (other : ¬ x.OwnTurn p w.nextFiber) :
    Counting w c since (cut || x.stops p) (x.pulse p) := by
  obtain ⟨timers, flags⟩ := sole_pulse h.sole play h.manned other
  obtain ⟨todo, t, found, acts, there, dial⟩ := h.dial
  refine h.of_pulse play (fun g among same => ?_) (fun b among same => ?_)
    ⟨todo, t, timers.trans found, fun g among same => ?_, fun going => ?_, ?_⟩
  · obtain ⟨f, among', same', role, -, fault, -⟩ := hands_other play h.below other among same
    exact role ▸ fault ▸ h.fiber f among' same'
  · obtain ⟨b', among', same', wait, acts', -⟩ := blocked_other play other among same
    rw [timers, ← wait, ← acts']
    exact h.waits b' among' same'
  · obtain ⟨f, among', same', -, acts', -⟩ := hands_other play h.below other among same
    exact acts'.symm.trans (acts f among' same')
  · obtain ⟨f, among, same⟩ := there going
    obtain ⟨g, among', calm⟩ := mem_hands_pulse (p := p) play among (same ▸ other)
    exact ⟨g, among', (Fiber.fields_of_calm calm).1.trans same⟩
  · have told : (x.pulse p).ticks w.nextFiber = x.ticks w.nextFiber := tale_pulse play other
    rw [flags, told]
    refine dial.other ?_ _
    rw [now_pulse play.order p]
    exact Nat.le_add_right _ _

theorem tickPeriod_pos (settings : Settings) : 0 < settings.tickPeriod.nanos :=
  Nat.mul_pos (Nat.lt_of_lt_of_le Nat.zero_lt_one (Nat.le_max_right _ _)) (by decide)

/-- The turn of the countdown, with where it stood. -/
theorem Counting.turn (h : Counting w c since cut x) {rest : List Fiber} (ready : x.ready = f :: rest)
    (same : f.id = w.nextFiber) : ∃ t, x.timers[w.timers.size]? = some t ∧ t.stop = w.flags.size ∧
      Dial c.remaining w.settings.tickPeriod w.timers.size x.now since f.todo t.left.remaining
        (x.flags.isRaised t.stop) cut (x.ticks w.nextFiber) ∧
      CountTurn (x.taken f rest) f w.timers.size t x.turn := by
  have among : f ∈ x.hands := mem_hands_of_ready ready
  obtain ⟨role, fault⟩ := h.fiber f among same
  have spared : f.doomed = false := by
    refine Bool.eq_false_iff.mpr fun doomed => ?_
    have falls := h.manned.fallen f among doomed
    rw [role] at falls
    cases falls
  obtain ⟨todo, t, found, acts, -, dial⟩ := h.dial
  obtain rfl := acts f among same
  have own : t.stop = w.flags.size := (h.sole.owns.only _ t found).mpr rfl
  exact ⟨t, found, own, own.symm ▸ dial,
    turn_count ready role spared fault dial.todo_cases found⟩

/-- A turn after which the fiber is there with the acts `todo`. -/
theorem Counting.goes (h : Counting w c since cut x) (play : x.InPlay) (among : f ∈ x.hands)
    (same : f.id = w.nextFiber) {b : Backstage} {todo : List Act} {since' : Option Span}
    {cut' : Bool} (left : x.turn.backstage = b.join { f with todo })
    (waits : ∀ b ∈ x.turn.blocked, b.fiber.id = w.nextFiber → ∃ due, b.wait = .time due ∧
      b.fiber.todo = [.count w.timers.size (some due)] ∧
      ∀ t, x.turn.timers[w.timers.size]? = some t → t.left.remaining ≠ 0) {t : Timer}
    (found : x.turn.timers[w.timers.size]? = some t)
    (dial : Dial c.remaining w.settings.tickPeriod w.timers.size x.now since' todo t.left.remaining
      (x.turn.flags.isRaised w.flags.size) cut' (x.turn.ticks w.nextFiber)) :
    Counting w c since' cut' x.turn := by
  have order' : x.turn.InOrder := (play.pulse .turn).order
  have only {g : Fiber} (there : g ∈ x.turn.hands) (same' : g.id = w.nextFiber) :
      g = { f with todo } := eq_of_join order' left there (same'.trans same.symm)
  refine h.of_pulse (p := .turn) play (fun g there same' => ?_) waits
    ⟨todo, t, found, fun g there same' => ?_, fun _ => ⟨{ f with todo }, ?_, same⟩, ?_⟩
  · rw [only there same']
    exact h.fiber f among same
  · rw [only there same']
  · rw [show (x.pulse .turn).hands = _ from congrArg Backstage.hands left]
    exact Multiset.mem_cons_self _ _
  · rw [now_pulse play.order .turn]
    exact dial

/-- The turn in which the fiber goes. -/
theorem Counting.gone (h : Counting w c since cut x) (play : x.InPlay) {rest : List Fiber}
    (ready : x.ready = f :: rest) (same : f.id = w.nextFiber) {since' : Option Span} {cut' : Bool}
    (left : x.turn.backstage = (x.taken f rest).backstage) {t : Timer}
    (found : x.timers[w.timers.size]? = some t)
    (dial : Dial c.remaining w.settings.tickPeriod w.timers.size x.now since' [] t.left.remaining
      (x.flags.isRaised w.flags.size) cut' (x.turn.ticks w.nextFiber)) :
    Counting w c since' cut' x.turn := by
  have hands : x.turn.hands = (x.taken f rest).hands := congrArg Backstage.hands left
  have timers : x.turn.timers = x.timers := congrArg Backstage.timers left
  have flags : x.turn.flags = x.flags := congrArg Backstage.flags left
  have gone {g : Fiber} (there : g ∈ x.turn.hands) : g.id ≠ w.nextFiber :=
    same ▸ play.order.fresh_taken ready g (hands ▸ there)
  refine h.of_pulse (p := .turn) play (fun g there same' => absurd same' (gone there))
    (fun b there same' => absurd same' (gone (mem_hands_of_blocked there)))
    ⟨[], t, timers ▸ found, fun g there same' => absurd same' (gone there),
      fun going => absurd rfl going, ?_⟩
  rw [now_pulse play.order .turn, show (x.pulse .turn).flags = x.flags from flags]
  exact dial

/-- The turn of the countdown. -/
theorem Counting.own (h : Counting w c since cut x) (play : x.InPlay) {rest : List Fiber}
    (ready : x.ready = f :: rest) (same : f.id = w.nextFiber) :
    Counting w c (since.or (some x.now)) cut x.turn := by
  obtain ⟨t, found, own, dial, turned⟩ := h.turn ready same
  have among : f ∈ x.hands := mem_hands_of_ready ready
  have fresh : ∀ g ∈ (x.taken f rest).hands, g.id ≠ w.nextFiber :=
    same ▸ play.order.fresh_taken ready
  have period : (x.taken f rest).settings.tickPeriod = w.settings.tickPeriod :=
    congrArg Settings.tickPeriod h.settings
  -- Nobody who waited before has the identifier of the countdown.
  have rested (rests : Rests (x.taken f rest) x.turn) {b : Parked} (here : b ∈ x.turn.blocked) :
      b.fiber.id ≠ w.nextFiber := by
    obtain ⟨b', here', -, calm⟩ := rests b here
    have id' := (Fiber.fields_of_calm calm).1
    exact fun same' => fresh b'.fiber (mem_hands_of_blocked here') (id'.trans same')
  rw [own] at dial
  cases turned with
  | ends spent left _ told =>
    refine h.gone play ready same left found ?_
    rw [spent] at dial
    rw [← same, told, same]
    exact dial.ends
  | @stops due acts raised left rests told =>
    have flags : x.turn.flags = x.flags := congrArg Backstage.flags left
    have timers : x.turn.timers = x.timers := congrArg Backstage.timers left
    have raised : x.flags.isRaised w.flags.size = true := own ▸ raised
    refine h.goes play among same left (fun b here same' => absurd same' (rested rests here))
      (timers ▸ found) ?_
    rw [acts, raised] at dial
    rw [flags, raised, ← same, told, same]
    exact dial.stops
  | @rings due acts down zero left rests told =>
    have flags : x.turn.flags = x.flags.raise t.stop := congrArg Backstage.flags left
    have timers : x.turn.timers = x.timers := congrArg Backstage.timers left
    have down : x.flags.isRaised w.flags.size = false := own ▸ down
    have up : (x.flags.raise w.flags.size).isRaised w.flags.size = true :=
      Flags.isRaised_raise_self h.sole.owns.bound
    refine h.goes play among same left (fun b here same' => absurd same' (rested rests here))
      (timers ▸ found) ?_
    rw [acts, zero, down] at dial
    rw [flags, own, up, ← same, told, same, zero]
    exact dial.rings
  | @ticks due acts down some rings left rests told =>
    have flags : x.turn.flags = x.flags := congrArg Backstage.flags left
    have timers : x.turn.timers =
        x.timers.modify w.timers.size fun t' => { t' with left := t.left.tick.1 } :=
      congrArg Backstage.timers left
    have found' : x.turn.timers[w.timers.size]? = .some { t with left := t.left.tick.1 } := by
      rw [timers, Array.getElem?_modify, if_pos rfl, found]
      rfl
    refine h.goes play among same left (fun b here same' => absurd same' (rested rests here))
      found' ?_
    have next : t.left.tick.1 = ⟨t.left.remaining - 1⟩ := by
      rw [← t.left.remaining_tick]
    rw [acts] at dial
    rw [flags, ← same, told, same, t.left.remaining_tick, next, period]
    rw [period] at rings
    exact dial.ticks (tickPeriod_pos _) some rings
  | @waits due due' acts down some next early left blocked told =>
    have flags : x.turn.flags = x.flags := congrArg Backstage.flags left
    have timers : x.turn.timers = x.timers := congrArg Backstage.timers left
    refine h.goes play among same left (fun b here same' => ?_) (timers ▸ found) ?_
    · rw [blocked] at here
      rcases List.mem_append.mp here with here | here
      · exact absurd same' (fresh b.fiber (mem_hands_of_blocked here))
      · obtain rfl := List.mem_singleton.mp here
        refine ⟨due', rfl, rfl, fun t' found' => ?_⟩
        rw [timers, found] at found'
        exact Option.some.inj found' ▸ some
    · rw [acts] at dial
      rw [flags, ← same, told, same, ← next, period]
      exact dial.waits

/-! ### The start -/

theorem size_stopLast (flags : Flags) (timers : Array Timer) :
    (flags.stopLast timers).size = flags.size := by
  unfold Flags.stopLast
  split
  · exact Flags.size_raise _ _
  · rfl

/-- The fiber of a countdown that starts. -/
def counter (w : World) : Fiber :=
  .start w.nextFiber (.countdown w.timers.size w.flags.size) none [.count w.timers.size none]

/-- The turn that starts a countdown. -/
theorem turn_timer (order : w.InOrder) (starts : w.act? = some (.timer c)) :
    w.turn.timers = w.timers.push ⟨c, w.flags.size⟩ ∧
      w.turn.flags = (w.flags.stopLast w.timers).fresh.1 ∧ w.counter ∈ w.turn.hands ∧
      ∀ g ∈ w.turn.hands, g.id < w.nextFiber ∨ g = w.counter := by
  obtain ⟨f, rest, after, ready, -, -, -, works⟩ := turn_act order starts
  have flag : (w.flags.stopLast w.timers).fresh.2 = w.flags.size := size_stopLast _ _
  have joined : w.hands = f ::ₘ (w.taken f rest).hands :=
    congrArg Backstage.hands (backstage_taken ready)
  cases works with
  | goes f' onward _ same =>
    have work : ((w.taken f rest).work (.timer c)).backstage = _ :=
      backstage_startCountdown (w.taken f rest) c
    rw [work] at same
    have timers : w.turn.timers = w.timers.push ⟨c, (w.flags.stopLast w.timers).fresh.2⟩ :=
      congrArg Backstage.timers same
    have hands : w.turn.hands = f' ::ₘ .start w.nextFiber
        (.countdown w.timers.size (w.flags.stopLast w.timers).fresh.2) none
          [.count w.timers.size none] ::ₘ (w.taken f rest).hands := congrArg Backstage.hands same
    rw [flag] at timers hands
    refine ⟨timers, congrArg Backstage.flags same, ?_, fun g there => ?_⟩
    · rw [hands]
      exact Multiset.mem_cons_of_mem (Multiset.mem_cons_self _ _)
    · rw [hands] at there
      rcases Multiset.mem_cons.mp there with rfl | there
      · refine .inl (onward.id ▸ order.below_hands f ?_)
        rw [joined]
        exact Multiset.mem_cons_self _ _
      rcases Multiset.mem_cons.mp there with rfl | there
      · exact .inr rfl
      · refine .inl (order.below_hands g ?_)
        rw [joined]
        exact Multiset.mem_cons_of_mem there
  | takes _ lane => cases lane
  | bursts act => cases act
  | falls told => cases told

/-- The new countdown has a flag of its own, and its fiber alone counts it. -/
theorem sole_timer (play : w.InPlay) (starts : w.act? = some (.timer c)) :
    w.turn.Sole w.nextFiber w.timers.size w.flags.size := by
  obtain ⟨timers, flags, -, among⟩ := turn_timer play.order starts
  refine ⟨⟨?_, ?_, fun j t found => ?_⟩, fun g there s role => ?_⟩
  · show _ < w.turn.timers.size
    simp [timers]
  · show _ < w.turn.flags.size
    rw [flags, Flags.size_fresh, size_stopLast]
    exact Nat.lt_succ_self _
  · have found : w.turn.timers[j]? = some t := found
    rw [timers, Array.getElem?_push] at found
    split at found
    · cases found
      exact ⟨fun _ => ‹_›, fun _ => rfl⟩
    · have sound : w.backdrop.Sound := play.tended.sound
      have below := (sound.stops j t found).1
      have listed : j < w.timers.size := (Array.getElem?_eq_some_iff.mp found).1
      exact ⟨fun same => absurd same (Nat.ne_of_lt below), fun same => absurd same (by omega)⟩
  · rcases among g there with old | rfl
    · -- No countdown of before has a place that was not there yet.
      obtain ⟨g', among', -, run, same⟩ := of_mem_hands_pulse (p := .turn) play there old
      have idle : g'.isRun = false := by
        rw [run, Fiber.isRun, Fiber.run?, role]
        rfl
      have tends := play.tended.tends g'.calm (List.mem_map_of_mem (mem_hands.mp among'))
      rw [Fiber.calm_role, ← same idle, role] at tends
      obtain ⟨t, found, -⟩ := tends
      exact absurd (Array.getElem?_eq_some_iff.mp found).1 (Nat.lt_irrefl _)
    · rfl

theorem isRaised_timer (order : w.InOrder) (starts : w.act? = some (.timer c)) :
    w.turn.flags.isRaised w.flags.size = false := by
  rw [(turn_timer order starts).2.1, Flags.isRaised_fresh]
  refine Bool.eq_false_iff.mpr fun up => ?_
  have below := Flags.lt_of_isRaised up
  rw [size_stopLast] at below
  exact Nat.lt_irrefl _ below

theorem Counting.start (o : Opening) (before : List Pulse)
    (starts : (o.world.pulses before).act? = some (.timer c)) :
    Counting (o.world.pulses before) c none false (o.world.pulses before).turn := by
  have play := inPlay_pulses o before
  have manned := manned_pulse play (manned_pulses o before) .turn
  have young := tale_young (g := Deed.tick?) o before (Nat.le_refl _)
  generalize o.world.pulses before = w at starts play manned young ⊢
  obtain ⟨timers, -, member, -⟩ := turn_timer play.order starts
  have found : w.turn.timers[w.timers.size]? = some ⟨c, w.flags.size⟩ := by simp [timers]
  have only {g : Fiber} (there : g ∈ w.turn.hands) (same : g.id = w.nextFiber) : g = w.counter :=
    manned.eq_of_id there member same
  have other : ¬ w.OwnTurn .turn w.nextFiber := play.order.not_ownTurn_young
  refine ⟨manned, settings_pulse play .turn, (play.pulse .turn).order.below_hands _ member,
    sole_timer play starts, fun g there same => ?_,
    fun b there same => absurd same (blocked_young (p := .turn) play there),
    [.count w.timers.size none], _, found, fun g there same => ?_, fun _ => ⟨_, member, rfl⟩, ?_⟩
  · rw [only there same]
    exact ⟨rfl, rfl⟩
  · rw [only there same]
    rfl
  · have told : w.turn.ticks w.nextFiber = [] := (tale_pulse play other).trans young
    rw [isRaised_timer play.order starts, told]
    exact .fresh

theorem stops_own {rest : List Fiber} (ready : w.ready = f :: rest)
    (todo : f.todo = [] ∨ ∃ due, f.todo = [.count i due]) : w.stops .turn = false := by
  rw [stops, act?_cons ready, actOf?]
  generalize (f.doomed || w.isCancelled f || f.fault.isSome) = idle
  rcases todo with spent | ⟨due, todo⟩
  · rw [spent]
    cases idle <;> rfl
  · rw [todo]
    cases idle <;> rfl

theorem Counting.pulse (h : Counting w c since cut x) (play : x.InPlay) (p : Pulse) :
    Counting w c (since.or (x.ran? w.nextFiber p)) (cut || x.stops p) (x.pulse p) := by
  by_cases own : x.OwnTurn p w.nextFiber
  · rw [ran?_own own]
    obtain ⟨rfl, f, head, same⟩ := own
    obtain ⟨rest, ready⟩ := List.head?_eq_some_iff.mp head
    have quiet : x.stops .turn = false := by
      obtain ⟨todo, t, -, acts, -, dial⟩ := h.dial
      have own : f.todo = todo := acts f (mem_hands_of_ready ready) same
      exact stops_own ready (own ▸ dial.todo_cases)
    rw [quiet, Bool.or_false]
    exact h.own play ready same
  · rw [ran?_other own, Option.or_none]
    exact h.other play own

theorem Counting.pulses (o : Opening) (before after : List Pulse)
    (starts : (o.world.pulses before).act? = some (.timer c)) :
    let w := o.world.pulses before
    Counting w c (w.turn.began w.nextFiber after) (w.turn.stopped after) (w.turn.pulses after) := by
  intro w
  have play : w.turn.InPlay := (inPlay_pulses o before).pulse .turn
  refine play.induction (P := fun ps x => Counting w c (w.turn.began w.nextFiber ps)
    (w.turn.stopped ps) x) (.start o before starts) (fun ps p play h => ?_) after
  rw [began_concat, stopped_concat]
  exact h.pulse play p

/-! ### What countdowns do -/

/-- A countdown that was not stopped and has not come to its end. -/
def Running (w : World) (i : Nat) : Prop :=
  ∃ t, w.timers[i]? = some t ∧ w.flags.isRaised t.stop = false

/-- The countdown that was started in `w`, as it stands in `x`. Its fiber had its first turn at
`since`. -/
structure Counted (w x : World) (c : Countdown) (since : Option Span) (cut : Bool) : Prop where
  /-- No text comes before its time. The end comes once, after all of them. -/
  told : ∃ k ≤ c.remaining,
    (k = 0 ∨ ∃ t, since = some t ∧ t.nanos + k * w.settings.tickPeriod.nanos ≤ x.now.nanos) ∧
    (x.ticks w.nextFiber = texts c.remaining k ∨
      k = c.remaining ∧ x.ticks w.nextFiber = texts c.remaining k ++ ringing)
  paced : cut = false → (∀ f ∈ x.ready, f.id ≠ w.nextFiber) → ∃ t, since = some t ∧
    x.ticks w.nextFiber =
      SceneScript.shown c.remaining ((x.now.nanos - t.nanos) / w.settings.tickPeriod.nanos)
  /-- The first turn after the text for zero, or at all if there is none. -/
  ends : x.OwnTurn .turn w.nextFiber → x.ticks w.nextFiber = texts c.remaining c.remaining →
    x.turn.ticks w.nextFiber =
      texts c.remaining c.remaining ++ if cut then [] else ringing
  running : x.Running w.timers.size ↔
    cut = false ∧ x.ticks w.nextFiber ≠ texts c.remaining c.remaining ++ ringing
  alone : ∀ i j, x.Running i → x.Running j → i = j

theorem Tended.alone (h : w.Tended) {j : Nat} (first : w.Running i) (second : w.Running j) :
    i = j := by
  have last {k : Nat} (running : w.Running k) : k + 1 = w.timers.size := by
    obtain ⟨t, found, down⟩ := running
    have listed : k < w.timers.size := (Array.getElem?_eq_some_iff.mp found).1
    by_contra inner
    have up : w.flags.isRaised t.stop = true :=
      h.sound.stopped k t found (show k + 1 < w.timers.size by omega)
    rw [down] at up
    cases up
  have first := last first
  have second := last second
  omega

/-- A fiber that has something to do and is not ready waits for its next tick. -/
theorem Counting.paced (h : Counting w c since false x) (punctual : x.Punctual)
    (settled : ∀ f ∈ x.ready, f.id ≠ w.nextFiber) : ∃ t, since = some t ∧
      x.ticks w.nextFiber =
        SceneScript.shown c.remaining ((x.now.nanos - t.nanos) / w.settings.tickPeriod.nanos) := by
  obtain ⟨todo, t, found, acts, there, dial⟩ := h.dial
  refine dial.paced (tickPeriod_pos w.settings) fun going => ?_
  obtain ⟨f, among, same⟩ := there going
  rcases List.mem_append.mp (mem_hands.mp among) with ready | parked
  · exact absurd same (settled f ready)
  · obtain ⟨b, parked', rfl⟩ := List.mem_map.mp parked
    obtain ⟨due, wait, todo', left⟩ := h.waits b parked' same
    exact ⟨due, punctual b parked' due wait, (acts _ among same).symm.trans todo', left t found⟩

theorem Counting.ends (h : Counting w c since cut x) (own : x.OwnTurn .turn w.nextFiber)
    (all : x.ticks w.nextFiber = texts c.remaining c.remaining) : x.turn.ticks w.nextFiber =
      texts c.remaining c.remaining ++ if cut then [] else ringing := by
  obtain ⟨-, f, head, same⟩ := own
  obtain ⟨rest, ready⟩ := List.head?_eq_some_iff.mp head
  obtain ⟨t, found, own, dial, turned⟩ := h.turn ready same
  have before : (x.taken f rest).ticks w.nextFiber = texts c.remaining c.remaining := all
  rw [all] at dial
  have whole {due : Option Span} (acts : f.todo = [.count w.timers.size due]) := dial.whole acts
  rw [← same] at before ⊢
  cases turned with
  | ends spent _ _ told =>
    rw [told, before, dial.cut_of_nil spent, if_pos rfl, List.append_nil]
  | stops acts raised _ _ told =>
    have raised : x.flags.isRaised t.stop = true := raised
    rw [told, before, ← (whole acts).2, raised, if_pos rfl, List.append_nil]
  | rings acts down _ _ _ told =>
    have down : x.flags.isRaised t.stop = false := down
    rw [told, before, ← (whole acts).2, down]
    rfl
  | ticks acts _ some => exact absurd (whole acts).1 some
  | waits acts _ some => exact absurd (whole acts).1 some

/-- Once it was stopped, the countdown tells nothing any more. -/
theorem Counting.silent (h : Counting w c since true x) (play : x.InPlay) (p : Pulse) :
    (x.pulse p).ticks w.nextFiber = x.ticks w.nextFiber := by
  by_cases own : x.OwnTurn p w.nextFiber
  · obtain ⟨rfl, f, head, same⟩ := own
    obtain ⟨rest, ready⟩ := List.head?_eq_some_iff.mp head
    obtain ⟨t, found, own, dial, turned⟩ := h.turn ready same
    have up := dial.raised
    have before : (x.taken f rest).ticks f.id = x.ticks f.id := rfl
    rw [← same]
    cases turned with
    | ends _ _ _ told => exact told.trans before
    | stops _ _ _ _ told => exact told.trans before
    | rings _ down | ticks _ down | waits _ down =>
      have down : x.flags.isRaised t.stop = false := down
      rw [up] at down
      cases down
  · exact tale_pulse play own

theorem Counting.running (h : Counting w c since cut x) : x.Running w.timers.size ↔
    cut = false ∧ x.ticks w.nextFiber ≠ texts c.remaining c.remaining ++ ringing := by
  obtain ⟨todo, t, found, -, -, dial⟩ := h.dial
  have own : t.stop = w.flags.size := (h.sole.owns.only _ t found).mpr rfl
  have down : x.Running w.timers.size ↔ x.flags.isRaised w.flags.size = false := by
    refine ⟨?_, fun down => ⟨t, found, own.symm ▸ down⟩⟩
    rintro ⟨t', found', down⟩
    obtain rfl : t = t' := Option.some.inj (found.symm.trans found')
    exact own ▸ down
  exact down.trans dial.down_iff

theorem Counting.counted (h : Counting w c since cut x) (play : x.InPlay) (punctual : x.Punctual) :
    Counted w x c since cut where
  told := by
    obtain ⟨todo, t, -, -, -, dial⟩ := h.dial
    exact dial.shows
  paced spared settled := by
    subst spared
    exact h.paced punctual settled
  ends := h.ends
  running := h.running
  alone _ _ := play.tended.alone

theorem Counting.silent_pulses (h : Counting w c since true x) (play : x.InPlay)
    (more : List Pulse) : (x.pulses more).ticks w.nextFiber = x.ticks w.nextFiber := by
  refine (play.induction (P := fun _ y => (∃ since, Counting w c since true y) ∧
    y.ticks w.nextFiber = x.ticks w.nextFiber) ⟨⟨since, h⟩, rfl⟩ ?_ more).2
  rintro ps p play' ⟨⟨since', h'⟩, same⟩
  exact ⟨⟨_, h'.pulse play' p⟩, (h'.silent play' p).trans same⟩

theorem entries_startCountdown (w : World) (c : Countdown) : (w.startCountdown c).entries =
    w.entries ++ [⟨w.actor, .stage (.playAnimation .timerTextEnter)⟩,
      ⟨w.actor, .stage (.setTimerText c.text)⟩, ⟨w.actor, .remark (.countdownStarted c)⟩] := by
  have stopped : w.stopCountdown.entries = w.entries ∧ w.stopCountdown.actor = w.actor := by
    unfold stopCountdown
    split <;> exact ⟨rfl, rfl⟩
  unfold startCountdown
  generalize w.stopCountdown = w₁ at stopped ⊢
  show (((w₁.record (.stage (.playAnimation .timerTextEnter))).record
    (.stage (.setTimerText c.text))).record (.remark (.countdownStarted c))).entries = _
  rw [entries_record, entries_record, entries_record, stopped.1]
  simp [record, stopped.2]

/-- What the command shows when it starts a countdown. -/
theorem entries_timer (starts : w.act? = some (.timer c)) : ∃ author, w.turn.entries =
    w.entries ++ [⟨author, .stage (.playAnimation .timerTextEnter)⟩,
      ⟨author, .stage (.setTimerText c.text)⟩, ⟨author, .remark (.countdownStarted c)⟩] := by
  obtain ⟨f, rest, after, -, -, -, -, turned⟩ := turn_doing starts
  have told := entries_startCountdown (w.taken f rest) c
  refine ⟨some f.id, ?_⟩
  rw [turned, perform]
  generalize (w.taken f rest).startCountdown c = x at told ⊢
  exact told

/-- A countdown shows how long it is, and then one text after every period since its fiber first ran,
whatever happens besides. At zero it times out, unless it was stopped by then; once it was stopped it
shows nothing any more. No two countdowns run at a time. -/
theorem countdowns_keep_time (o : Opening) (before after more : List Pulse) (c : Countdown)
    (starts : (o.world.pulses before).act? = some (.timer c)) :
    let w := o.world.pulses before
    let x := w.turn.pulses after
    (∃ author, w.turn.entries = w.entries ++ [⟨author, .stage (.playAnimation .timerTextEnter)⟩,
      ⟨author, .stage (.setTimerText c.text)⟩, ⟨author, .remark (.countdownStarted c)⟩]) ∧
    Counted w x c (w.turn.began w.nextFiber after) (w.turn.stopped after) ∧
    (w.turn.stopped after = true → (x.pulses more).ticks w.nextFiber = x.ticks w.nextFiber) := by
  intro w x
  have counting : Counting w c _ _ x := .pulses o before after starts
  have onTime : x.OnTime := (OnTime.pulses ⟨inPlay_pulses o before, punctual_pulses o before⟩
    (.turn :: after))
  refine ⟨entries_timer starts, counting.counted onTime.play onTime.punctual, fun cut => ?_⟩
  rw [cut] at counting
  exact counting.silent_pulses onTime.play more

theorem countdowns_keep_time_two :
    let o : Opening := ⟨default, default, 8, default, default, [[.timer 0 0 2]]⟩
    let w := o.world.pulses [.host (.execute 0) rfl, .turn]
    let after : List Pulse := List.replicate 4 .turn ++ .pass (.ofMillis 10) :: .turn :: .turn ::
      .pass (.ofMillis 25) :: List.replicate 4 .turn
    let x := w.turn.pulses after
    w.act? = some (.timer ⟨2⟩) ∧
      x.ticks w.nextFiber = [.text "00:00:01", .text "00:00:00", .exit, .timeout] ∧
      Counted w x ⟨2⟩ (w.turn.began w.nextFiber after) (w.turn.stopped after) := by
  refine ⟨rfl, by decide +kernel, ?_⟩
  exact (countdowns_keep_time _ _ _ [] _ rfl).2.1

end World

end SceneScript
