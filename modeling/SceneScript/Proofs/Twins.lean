import SceneScript.Proofs.Behind
import SceneScript.Proofs.Pulse
import SceneScript.Proofs.Refusal
/-!
Twins: two worlds in which the same performance takes place behind two pasts. The host does the same
in both, and they stay twins (`Twins.turn`, `Twins.apply`, `Twins.move`). Their programs may differ as
long as they resolve to the same; then programs may be refused for different reasons.
-/

namespace SceneScript

namespace Past

def told (p : Past) (programs : Array Program) (chronicle : Array Entry) : Past :=
  { p with programs, chronicle }

/-- Timers go off at whole milliseconds; behind such a past they still do. -/
def Whole (p : Past) : Prop := Span.perMilli ∣ p.now.nanos

theorem Whole.ceilMillis {p : Past} (h : p.Whole) (s : Span) :
    (p.now + s).ceilMillis = p.now + s.ceilMillis := by
  obtain ⟨k, now⟩ := h
  refine Span.nanos_ext ?_
  simp only [Span.ceilMillis, Span.ofMillis, Span.nanos_add, now, Nat.add_assoc]
  rw [Nat.mul_add_div (by decide), Nat.add_mul, Nat.mul_comm k]

theorem Suits.told {p : Past} {w : World} (h : p.Suits w) (programs : Array Program)
    (chronicle : Array Entry) : (p.told programs chronicle).Suits w :=
  ⟨h.stopped, h.sources, h.permits, h.young, h.aside⟩

end Past

variable {β : Type} {g : Entry → Option β} {p p₁ p₂ : Past} {w w₁ w₂ : World}

/-- Steps in which the host waits for the fibers. -/
def HostStep.waits : HostStep → Bool
  | .tick frames => !frames.isEmpty
  | .sleep _ => true
  | _ => false

/-- `g` does not tell why a program was refused. -/
structure Deaf (g : Entry → Option β) : Prop where
  remark : ∀ (author : Option Nat) (r : Remark), r.isRefusal = true → g ⟨author, .remark r⟩ = none
  note : ∀ (author : Option Nat) (e e' : Failure),
    g ⟨author, .note (.executed (some e))⟩ = g ⟨author, .note (.executed (some e'))⟩

/-- What `g` tells does not depend on which of two pasts lies behind. -/
def Blind (g : Entry → Option β) (p₁ p₂ : Past) : Prop :=
  ∀ e : Entry, g (e.behind p₁) = g (e.behind p₂)

/-- What `g` tells of the performance behind the past, and not of those who are left of the past. -/
def Past.own (p : Past) (g : Entry → Option β) (e : Entry) : Option β :=
  if e.author.any (· < p.fibers) then none else g e

@[simp] theorem Past.own_young (p : Past) (g : Entry → Option β) (author : Option Nat) (d : Deed) :
    p.own g ⟨author.map (p.fibers + ·), d⟩ = g ⟨author.map (p.fibers + ·), d⟩ := by
  cases author <;> simp [Past.own]

@[simp] theorem Past.own_behind (p : Past) (g : Entry → Option β) (e : Entry) :
    p.own g (e.behind p) = g (e.behind p) := p.own_young g e.author (e.deed.behind p)

/-- Behind each of two pasts there is the same performance, and `g` has told the same of it. -/
inductive Twins (g : Entry → Option β) (p₁ p₂ : Past) : World → World → Prop where
  | intro (w : World) (told : List β) {programs₁ programs₂ : Array Program}
    {chronicle₁ chronicle₂ : Array Entry} (left : p₁.Suits w) (right : p₂.Suits w)
    (resolved : ∀ n, resolution programs₁ n = resolution programs₂ n)
    (deaf : programs₁ = programs₂ ∨ Deaf g)
    (told₁ : chronicle₁.toList.filterMap (p₁.own g) =
      p₁.chronicle.toList.filterMap (p₁.own g) ++ told)
    (told₂ : chronicle₂.toList.filterMap (p₂.own g) =
      p₂.chronicle.toList.filterMap (p₂.own g) ++ told) :
    Twins g p₁ p₂ (w.behind (p₁.told programs₁ chronicle₁))
      (w.behind (p₂.told programs₂ chronicle₂))

namespace World

theorem behind_told (w : World) (p : Past) (programs : Array Program) (chronicle : Array Entry) :
    w.behind (p.told programs chronicle) = { w with chronicle := #[] }.behind
      (p.told programs (chronicle ++ w.chronicle.map (Entry.behind p))) := by
  simp only [behind, Past.told, Array.map_empty, Array.append_empty]
  rfl

/-- The call of an action came back to the fiber. -/
def answered (w : World) (f : Fiber) (action : Nat) (a : Answer Unit) : World :=
  (w.noteReply (a.reply? fun _ => .done)).afterCall f .action action a fun _ => f

theorem answered_behind (clear : p.ready = []) (w : World) (f : Fiber) (action : Nat)
    (a : Answer Unit) : (w.behind p).answered (f.behind p) action a =
      (w.answered f action a).behind p := by
  unfold answered
  rw [noteReply_behind]
  exact afterCall_behind clear _ f _ _ _ fun _ => rfl

theorem answered_stays (w : World) (f : Fiber) (action : Nat) (a : Answer Unit) :
    (w.answered f action a).feed = w.feed ∧ (w.answered f action a).rig = w.rig := by
  have noted : (w.noteReply (a.reply? fun _ => .done)).feed = w.feed ∧
      (w.noteReply (a.reply? fun _ => .done)).rig = w.rig := by
    cases a <;> exact ⟨rfl, rfl⟩
  unfold answered
  generalize w.noteReply (a.reply? fun _ => .done) = v at noted ⊢
  cases a with
  | value | unknown => exact noted
  | panicked text =>
    have ended : Chores (fun _ => True) v (v.conclude f (.panicked text)) :=
      chores_conclude v f _ trivial (fun _ _ => trivial) fun _ _ => trivial
    exact ⟨(feed_chores ended).trans noted.1, (keeps_conclude_any v f _).rig.trans noted.2⟩

theorem taken_behind (clear : p.ready = []) (w : World) (f : Fiber) (rest : List Fiber) :
    (w.behind p).taken (f.behind p) (rest.map (Fiber.behind p)) = (w.taken f rest).behind p := by
  simp only [taken, behind, clear, List.nil_append]
  rfl

theorem turn_behind_cons (clear : p.ready = []) {f : Fiber} {rest : List Fiber}
    (ready : w.ready = f :: rest) : (w.behind p).turn =
      { ((w.taken f rest).behind p).advance (f.behind p) with actor := none } := by
  have head : (w.behind p).ready = f.behind p :: rest.map (Fiber.behind p) := by
    show p.ready ++ w.ready.map (Fiber.behind p) = _
    rw [clear, ready]
    rfl
  rw [turn_cons head, taken_behind clear]

theorem advance_action {f : Fiber} {action : Nat} {todo : List Act} (spared : f.doomed = false)
    (current : w.isCancelled f = false) (fault : f.fault = none)
    (calls : f.todo = .action action :: todo) :
    w.advance f = w.performAction { f with todo } action := by
  unfold advance
  rw [spared, current, calls, fault]
  rfl

/-- What the host does at once, but for starting programs and letting go of its clock. -/
theorem apply_behind (fits : p.Suits w) {s : HostStep} (brief : s.isBrief = true)
    (other : ∀ n, s ≠ .execute n) (clock : s ≠ .dropClock) : (w.behind p).apply (s.behind p) =
      ((w.apply s).1.behind p, (w.apply s).2.behind (s.past p)) := by
  cases s with
  | tick | burst | sleep => cases brief
  | execute n => exact absurd rfl (other n)
  | dropClock => exact absurd rfl clock
  | setChosen | setVar | failScenes | look => rfl
  | select index =>
    simp only [apply, HostStep.behind, select_behind]
    cases (w.select index).2 <;> rfl
  | abort run =>
    simp only [apply, HostStep.behind, runFiber?_behind fits.aside, abortFiber_behind fits.young]
    cases (w.abortFiber (w.runFiber? run)).2 <;> rfl
  | finishAnimation n => exact congrArg (·, HostReply.done) (grantPermits_behind w n)
  | cancelSideEffects =>
    exact congrArg (·, HostReply.done) (cancelSideEffects_behind fits.stopped w)
  | play channel clip pitch =>
    exact congrArg (·, HostReply.done) (play_behind fits.young w channel clip pitch)
  | fadeOut channel span =>
    simp only [apply, HostStep.behind, fadeOut_behind fits.young]
    cases (w.fadeOut channel span).2 <;> rfl
  | stopChannel channel =>
    exact congrArg (·, HostReply.done) (stopChannel_behind fits.young w channel)
  | load job =>
    simp only [apply, HostStep.behind, load]
    rw [spawnLoad_behind w rfl]
    rfl
  | boardIn color span =>
    simp only [apply, HostStep.behind, boardIn]
    rw [spawnLoad_behind w rfl]
    rfl
  | boardOut span =>
    simp only [apply, HostStep.behind, boardOut]
    rw [spawnLoad_behind w rfl]
    rfl
  | abortLoad number =>
    simp only [apply, HostStep.behind, loadFiber?_behind fits.aside, abortFiber_behind fits.young]
    cases (w.abortFiber (w.loadFiber? number)).2 <;> rfl
  | release => exact congrArg (·, HostReply.done) (grantRelease_behind w)

end World

namespace Twins

open World

/-- What is done in the one world and in the other is the same but for the numbers. -/
theorem map₂ (F₁ F₂ F : World → World) (h : Twins g p₁ p₂ w₁ w₂)
    (left : ∀ (p : Past) (w : World), p.Suits w → p = p₁.told p.programs p.chronicle →
      F₁ (w.behind p) = (F w).behind p)
    (right : ∀ (p : Past) (w : World), p.Suits w → p = p₂.told p.programs p.chronicle →
      F₂ (w.behind p) = (F w).behind p)
    (feed : ∀ w, (F w).feed.sources = w.feed.sources) (rig : ∀ w, (F w).rig = w.rig) :
    Twins g p₁ p₂ (F₁ w₁) (F₂ w₂) := by
  cases h with
  | intro u told fits₁ fits₂ resolved deaf told₁ told₂ =>
    rw [left _ u (fits₁.told _ _) rfl, right _ u (fits₂.told _ _) rfl]
    exact .intro (F u) _ (fits₁.of_eq (feed u) (rig u)) (fits₂.of_eq (feed u) (rig u)) resolved deaf
      told₁ told₂

/-- The same is done in both worlds. -/
theorem map (F : World → World) (h : Twins g p₁ p₂ w₁ w₂)
    (behind : ∀ (p : Past) (w : World), p.Suits w → F (w.behind p) = (F w).behind p)
    (feed : ∀ w, (F w).feed.sources = w.feed.sources) (rig : ∀ w, (F w).rig = w.rig) :
    Twins g p₁ p₂ (F w₁) (F w₂) :=
  h.map₂ F F F (fun p w fits _ => behind p w fits) (fun p w fits _ => behind p w fits) feed rig

theorem record (blind : Blind g p₁ p₂) (h : Twins g p₁ p₂ w₁ w₂) (d₁ d₂ : Deed)
    (alike : ∀ author : Option Nat, g ⟨author.map (p₁.fibers + ·), d₁⟩ =
      g ⟨author.map (p₂.fibers + ·), d₂⟩) : Twins g p₁ p₂ (w₁.record d₁) (w₂.record d₂) := by
  cases h with
  | @intro u told programs₁ programs₂ chronicle₁ chronicle₂ fits₁ fits₂ resolved deaf told₁ told₂ =>
    have pushed (p : Past) (programs : Array Program) (chronicle : Array Entry) (d : Deed) :
        (u.behind (p.told programs chronicle)).record d = { u with chronicle := #[] }.behind
          (p.told programs ((chronicle ++ u.chronicle.map (Entry.behind p)).push
            ⟨u.actor.map (p.fibers + ·), d⟩)) := by
      rw [behind_told]
      simp only [World.record, World.behind, Past.told, Array.map_empty, Array.append_empty]
      rfl
    have own (p : Past) : (u.chronicle.toList.map (Entry.behind p)).filterMap (p.own g) =
        (u.chronicle.toList.map (Entry.behind p)).filterMap g := by
      simp [List.filterMap_map]
    have same : (u.chronicle.toList.map (Entry.behind p₁)).filterMap g =
        (u.chronicle.toList.map (Entry.behind p₂)).filterMap g := by
      rw [List.filterMap_map, List.filterMap_map]
      exact congrArg (List.filterMap · _) (funext blind)
    rw [pushed, pushed]
    refine .intro _ (told ++ (u.chronicle.toList.map (Entry.behind p₁)).filterMap g ++
      (g ⟨u.actor.map (p₁.fibers + ·), d₁⟩).toList) (fits₁.of_eq rfl rfl) (fits₂.of_eq rfl rfl)
      resolved deaf ?_ ?_
    · rw [← own p₁]
      cases tale : g ⟨u.actor.map (p₁.fibers + ·), d₁⟩ <;> simp [told₁, tale]
    · rw [alike u.actor, same, ← own p₂]
      cases tale : g ⟨u.actor.map (p₂.fibers + ·), d₂⟩ <;> simp [told₂, tale]

theorem file (h : Twins g p₁ p₂ w₁ w₂) {n : Nat} {q₁ q₂ : Program}
    (same₁ : q₁.preprocess = resolution w₁.programs n)
    (same₂ : q₂.preprocess = resolution w₂.programs n) (equal : q₁ = q₂ ∨ Deaf g) :
    Twins g p₁ p₂ { w₁ with programs := w₁.programs.setIfInBounds n q₁ }
      { w₂ with programs := w₂.programs.setIfInBounds n q₂ } := by
  cases h with
  | @intro u told programs₁ programs₂ chronicle₁ chronicle₂ fits₁ fits₂ resolved deaf told₁ told₂ =>
    show Twins g p₁ p₂ (u.behind (p₁.told (programs₁.setIfInBounds n q₁) chronicle₁))
      (u.behind (p₂.told (programs₂.setIfInBounds n q₂) chronicle₂))
    refine .intro u told fits₁ fits₂ (fun m => ?_) ?_ told₁ told₂
    · exact (resolution_setIfInBounds same₁ m).trans
        ((resolved m).trans (resolution_setIfInBounds same₂ m).symm)
    · rcases deaf with rfl | deaf
      · exact equal.imp (congrArg _) id
      · exact .inr deaf

/-- Both are refused, or both start a run, which has the same number behind either past. -/
inductive Answers (g : Entry → Option β) (p₁ p₂ : Past) :
    Except Failure Nat → Except Failure Nat → Prop where
  | refused {e₁ e₂ : Failure} (same : e₁ = e₂ ∨ Deaf g) : Answers g p₁ p₂ (.error e₁) (.error e₂)
  | started (number : Nat) : Answers g p₁ p₂ (.ok (p₁.runs + number)) (.ok (p₂.runs + number))

theorem executeNumber (blind : Blind g p₁ p₂) (h : Twins g p₁ p₂ w₁ w₂) (n : Nat) :
    Twins g p₁ p₂ (w₁.executeNumber n).1 (w₂.executeNumber n).1 ∧
      Answers g p₁ p₂ (w₁.executeNumber n).2 (w₂.executeNumber n).2 := by
  have twins := h
  cases h with
  | @intro u told programs₁ programs₂ chronicle₁ chronicle₂ fits₁ fits₂ resolved deaf told₁ told₂ =>
    have same := resolved n
    have numbered {p : Past} (fits : p.Suits u) (programs : Array Program)
        (chronicle : Array Entry) := execute_behind (fits.told programs chronicle).stopped u
          (programs.getD n (.ofCommands []))
    rcases execute_alike (w := u) same with
      ⟨rm₁, q₁, e₁, rm₂, q₂, e₂, refuses₁, refuses₂, heq₁, heq₂⟩ | ⟨q, found, heq₁, heq₂⟩
    · have result {p : Past} (fits : p.Suits u) {programs : Array Program}
          {chronicle : Array Entry} {rm : Remark} {q : Program} {e : Failure}
          (heq : u.execute (programs.getD n (.ofCommands [])) = (u.remark rm, q, .error e)) :
          (u.behind (p.told programs chronicle)).executeNumber n =
            ({ (u.behind (p.told programs chronicle)).remark rm with
                programs := programs.setIfInBounds n q }, .error e) := by
        have numbered := numbered fits programs chronicle
        rw [heq] at numbered
        unfold World.executeNumber
        rw [show (u.behind (p.told programs chronicle)).programs = programs from rfl, numbered,
          ← remark_behind]
        rfl
      rw [result fits₁ heq₁, result fits₂ heq₂]
      have equal : (rm₁ = rm₂ ∧ q₁ = q₂ ∧ e₁ = e₂) ∨ Deaf g := by
        refine deaf.imp_left ?_
        rintro rfl
        have both := heq₁.symm.trans heq₂
        simp only [Prod.mk.injEq, Except.error.injEq] at both
        refine ⟨?_, both.2⟩
        have last := congrArg (fun v : World => v.chronicle.back?) both.1
        simpa [remark, World.record] using last
      refine ⟨(twins.record blind (.remark rm₁) (.remark rm₂) fun author => ?_).file
        refuses₁.preprocess refuses₂.preprocess (equal.imp_left (·.2.1)),
        .refused (equal.imp_left (·.2.2))⟩
      rcases equal with ⟨rfl, -⟩ | deaf
      · exact blind ⟨author, .remark rm₁⟩
      · rw [deaf.remark _ _ refuses₁.isRefusal, deaf.remark _ _ refuses₂.isRefusal]
    · have result {p : Past} (fits : p.Suits u) {programs : Array Program}
          {chronicle : Array Entry}
          (heq : u.execute (programs.getD n (.ofCommands [])) = (u.launch q, q, .ok u.runs)) :
          (u.behind (p.told programs chronicle)).executeNumber n =
            ({ (u.launch q).behind (p.told programs chronicle) with
                programs := programs.setIfInBounds n q }, .ok (p.runs + u.runs)) := by
        have numbered := numbered fits programs chronicle
        rw [heq] at numbered
        unfold World.executeNumber
        rw [show (u.behind (p.told programs chronicle)).programs = programs from rfl, numbered]
        rfl
      rw [result fits₁ heq₁, result fits₂ heq₂]
      have launches : Chores (fun _ => True) u (u.launch q) := chores_launch u q trivial
      have feed := congrArg (·.sources) (feed_chores launches)
      have rig := (keeps_launch u q).rig
      have launched : Twins g p₁ p₂ ((u.launch q).behind (p₁.told programs₁ chronicle₁))
          ((u.launch q).behind (p₂.told programs₂ chronicle₂)) :=
        .intro _ told (fits₁.of_eq feed rig) (fits₂.of_eq feed rig) resolved deaf told₁ told₂
      have back := Program.preprocess_preprocess found
      have same₁ : q.preprocess = resolution programs₁ n := back.trans found.symm
      exact ⟨launched.file same₁ (same₁.trans same) (.inl rfl), .started u.runs⟩

/-! ### Callbacks -/

theorem runEffect (blind : Blind g p₁ p₂) (h : Twins g p₁ p₂ w₁ w₂) (e : Effect) :
    Twins g p₁ p₂ (w₁.runEffect e) (w₂.runEffect e) := by
  by_cases starts : ∃ n, e = .execute n
  · obtain ⟨n, rfl⟩ := starts
    obtain ⟨twins, answers⟩ := h.executeNumber blind n
    show Twins g p₁ p₂ ((w₁.executeNumber n).1.note (.executed (failure? (w₁.executeNumber n).2)))
      ((w₂.executeNumber n).1.note (.executed (failure? (w₂.executeNumber n).2)))
    generalize (w₁.executeNumber n).2 = a₁ at answers ⊢
    generalize (w₂.executeNumber n).2 = a₂ at answers ⊢
    refine twins.record blind _ _ fun author => ?_
    cases answers with
    | @refused e₁ e₂ same =>
      have noted := blind ⟨author, .note (.executed (some e₂))⟩
      rcases same with rfl | deaf
      · exact noted
      · exact (deaf.note _ e₁ e₂).trans noted
    | started => exact blind ⟨author, .note (.executed none)⟩
  · have other (n : Nat) : e ≠ .execute n := fun same => starts ⟨n, same⟩
    have feed (w : World) : (w.runEffect e).feed = w.feed := by
      have works : Chores (fun _ => True) w (w.runEffect e) := chores_runEffect w e trivial trivial
      exact feed_chores works
    exact h.map (·.runEffect e) (fun _ w _ => runEffect_behind w other)
      (fun w => congrArg (·.sources) (feed w)) fun w => (keeps_runEffect w e).rig

theorem runEffects (blind : Blind g p₁ p₂) (h : Twins g p₁ p₂ w₁ w₂) (es : List Effect) :
    Twins g p₁ p₂ (w₁.runEffects es).1 (w₂.runEffects es).1 ∧
      (w₁.runEffects es).2 = (w₂.runEffects es).2 := by
  induction es generalizing w₁ w₂ with
  | nil => exact ⟨h, rfl⟩
  | cons e rest ih =>
    have after := ih (h.runEffect blind e)
    cases e with
    | panic text => exact ⟨h, rfl⟩
    | _ => exact after

theorem registry (h : Twins g p₁ p₂ w₁ w₂) : w₁.registry = w₂.registry := by
  cases h
  rfl

theorem callAction (blind : Blind g p₁ p₂) (h : Twins g p₁ p₂ w₁ w₂) (action : Nat) :
    Twins g p₁ p₂ (w₁.callAction action).1 (w₂.callAction action).1 ∧
      (w₁.callAction action).2 = (w₂.callAction action).2 := by
  unfold World.callAction
  rw [h.registry]
  split
  · exact ⟨h, rfl⟩
  · exact h.runEffects blind _

theorem answered (clear : p₁.ready = [] ∧ p₂.ready = []) (h : Twins g p₁ p₂ w₁ w₂) (f : Fiber)
    (action : Nat) (a : Answer Unit) :
    Twins g p₁ p₂ (w₁.answered (f.behind p₁) action a) (w₂.answered (f.behind p₂) action a) := by
  have called {p₀ p : Past} {w : World} (clear : p₀.ready = [])
      (same : p = p₀.told p.programs p.chronicle) :
      (w.behind p).answered (f.behind p₀) action a = (w.answered f action a).behind p := by
    have fiber : f.behind p₀ = f.behind p := by
      rw [same]
      rfl
    have clear : p.ready = [] := by
      rw [same]
      exact clear
    rw [fiber]
    exact answered_behind clear w f action a
  exact h.map₂ (·.answered (f.behind p₁) action a) (·.answered (f.behind p₂) action a)
    (·.answered f action a) (fun _ _ _ same => called clear.1 same)
    (fun _ _ _ same => called clear.2 same)
    (fun w => congrArg Feed.sources (answered_stays w f action a).1)
    fun w => (answered_stays w f action a).2

theorem performAction (blind : Blind g p₁ p₂) (clear : p₁.ready = [] ∧ p₂.ready = [])
    (h : Twins g p₁ p₂ w₁ w₂) (f : Fiber) (action : Nat) :
    Twins g p₁ p₂ (w₁.performAction (f.behind p₁) action)
      (w₂.performAction (f.behind p₂) action) := by
  obtain ⟨twins, same⟩ := h.callAction blind action
  show Twins g p₁ p₂ ((w₁.callAction action).1.answered (f.behind p₁) action (w₁.callAction action).2)
    ((w₂.callAction action).1.answered (f.behind p₂) action (w₂.callAction action).2)
  rw [same]
  exact twins.answered clear f action _

/-! ### Turns -/

theorem rests (clear : p₁.ready = [] ∧ p₂.ready = []) (h : Twins g p₁ p₂ w₁ w₂) :
    w₁.ready = [] ↔ w₂.ready = [] := by
  cases h with
  | intro u =>
    show p₁.ready ++ u.ready.map (Fiber.behind _) = [] ↔ p₂.ready ++ u.ready.map (Fiber.behind _) = []
    simp [clear]

theorem leave (h : Twins g p₁ p₂ w₁ w₂) :
    Twins g p₁ p₂ { w₁ with actor := none } { w₂ with actor := none } :=
  h.map (fun w => { w with actor := none }) (fun _ _ _ => rfl) (fun _ => rfl) fun _ => rfl

theorem turn (blind : Blind g p₁ p₂) (clear : p₁.ready = [] ∧ p₂.ready = []) (play : w₁.InPlay)
    (h : Twins g p₁ p₂ w₁ w₂) : Twins g p₁ p₂ w₁.turn w₂.turn := by
  cases h with
  | @intro u told programs₁ programs₂ chronicle₁ chronicle₂ fits₁ fits₂ resolved deaf told₁ told₂ =>
    have fits₁' : (p₁.told programs₁ chronicle₁).Fits u := ⟨fits₁.told _ _, clear.1⟩
    have fits₂' : (p₂.told programs₂ chronicle₂).Fits u := ⟨fits₂.told _ _, clear.2⟩
    cases ready : u.ready with
    | nil =>
      have still {p : Past} (fits : p.Fits u) : (u.behind p).turn = u.behind p := by
        have none : (u.behind p).ready = [] := by simp [World.behind, fits.clear, ready]
        rw [World.turn, none]
      rw [still fits₁', still fits₂']
      exact .intro u told fits₁ fits₂ resolved deaf told₁ told₂
    | cons f rest =>
      by_cases other : f.doomed = false → (u.taken f rest).isCancelled f = false → f.fault = none →
          ∀ i, f.todo.head? ≠ some (.action i)
      · have turned {p : Past} (fits : p.Fits u) : (u.behind p).turn = u.turn.behind p := by
          have taken : p.Fits (u.taken f rest) := fits.of_eq rfl rfl
          rw [turn_behind_cons fits.clear ready, turn_cons ready, advance_behind taken f other]
          rfl
        have feed : u.turn.feed.sources = u.feed.sources := by
          have same := congrArg Feed.sources (play.screened.feed_turn play.order)
          rw [turned fits₁'] at same
          exact Nat.add_left_cancel same
        have rig : u.turn.rig = u.rig := by
          have same := rig_beat play.order (.lull (.turn _))
          rwa [turned fits₁'] at same
        rw [turned fits₁', turned fits₂']
        exact .intro _ told (fits₁.of_eq feed rig) (fits₂.of_eq feed rig) resolved deaf told₁ told₂
      · simp only [Classical.not_imp, not_forall, not_not] at other
        obtain ⟨spared, current, fault, action, head⟩ := other
        obtain ⟨todo, calls⟩ : ∃ todo, f.todo = .action action :: todo := by
          cases acts : f.todo with
          | nil =>
            rw [acts] at head
            cases head
          | cons a todo =>
            rw [acts] at head
            exact ⟨todo, by rw [Option.some.inj head]⟩
        have called {p : Past} (fits : p.Suits (u.taken f rest)) :
            ((u.taken f rest).behind p).advance (f.behind p) =
            ((u.taken f rest).behind p).performAction ({ f with todo }.behind p) action :=
          advance_action spared ((isCancelled_behind fits f).trans current) fault
            (by rw [Fiber.behind, calls]; rfl)
        have taken : Twins g p₁ p₂ ((u.taken f rest).behind (p₁.told programs₁ chronicle₁))
            ((u.taken f rest).behind (p₂.told programs₂ chronicle₂)) :=
          .intro _ told (fits₁.of_eq rfl rfl) (fits₂.of_eq rfl rfl) resolved deaf told₁ told₂
        rw [turn_behind_cons fits₁'.clear ready, turn_behind_cons fits₂'.clear ready,
          called ((fits₁.told _ _).of_eq rfl rfl), called ((fits₂.told _ _).of_eq rfl rfl)]
        exact (taken.performAction blind clear { f with todo } action).leave

theorem turns (blind : Blind g p₁ p₂) (clear : p₁.ready = [] ∧ p₂.ready = []) (play : w₁.InPlay)
    (h : Twins g p₁ p₂ w₁ w₂) (n : Nat) : Twins g p₁ p₂ (w₁.turns n) (w₂.turns n) := by
  induction n generalizing w₁ w₂ with
  | zero => exact h
  | succ n ih =>
    unfold World.turns
    simp only [List.isEmpty_iff, ← h.rests clear]
    split
    · exact h
    · exact ih (play.beat (.lull (.turn w₁))) (h.turn blind clear play)

theorem settle (blind : Blind g p₁ p₂) (clear : p₁.ready = [] ∧ p₂.ready = []) (play : w₁.InPlay)
    (h : Twins g p₁ p₂ w₁ w₂) : Twins g p₁ p₂ w₁.settle w₂.settle :=
  h.turns blind clear play patience

/-! ### The host -/

theorem publish (h : Twins g p₁ p₂ w₁ w₂) (delta : Span) (keys : Keys) :
    Twins g p₁ p₂ (w₁.publish delta keys) (w₂.publish delta keys) :=
  h.map (·.publish delta keys) (fun _ w _ => publish_behind w delta keys) (fun _ => rfl) fun _ => rfl

theorem bursts (h : Twins g p₁ p₂ w₁ w₂) (frames : List (Span × Keys)) :
    Twins g p₁ p₂ (frames.foldl (fun w f => w.publish f.1 f.2) w₁)
      (frames.foldl (fun w f => w.publish f.1 f.2) w₂) := by
  induction frames generalizing w₁ w₂ with
  | nil => exact h
  | cons f rest ih => exact ih (h.publish f.1 f.2)

theorem tick (blind : Blind g p₁ p₂) (clear : p₁.ready = [] ∧ p₂.ready = []) (play : w₁.InPlay)
    (h : Twins g p₁ p₂ w₁ w₂) (delta : Span) (keys : Keys) :
    Twins g p₁ p₂ (w₁.tick delta keys) (w₂.tick delta keys) := by
  have settled := play.beats (beats_of_lulls (lulls_settle w₁))
  exact ((h.settle blind clear play).publish delta keys).settle blind clear
    (settled.beat (.lull (.publish _ delta keys)))

theorem ticks (blind : Blind g p₁ p₂) (clear : p₁.ready = [] ∧ p₂.ready = []) (play : w₁.InPlay)
    (h : Twins g p₁ p₂ w₁ w₂) (frames : List (Span × Keys)) :
    Twins g p₁ p₂ (frames.foldl (fun w f => w.tick f.1 f.2) w₁)
      (frames.foldl (fun w f => w.tick f.1 f.2) w₂) := by
  induction frames generalizing w₁ w₂ with
  | nil => exact h
  | cons f rest ih =>
    exact ih (play.beats (beats_of_lulls (lulls_tick w₁ f.1 f.2))) (h.tick blind clear play f.1 f.2)

theorem reach (h : Twins g p₁ p₂ w₁ w₂) (time : Span) :
    Twins g p₁ p₂ (w₁.reach (p₁.now + time)) (w₂.reach (p₂.now + time)) := by
  have reached {p₀ p : Past} (w : World) (same : p = p₀.told p.programs p.chronicle) :
      (w.behind p).reach (p₀.now + time) = (w.reach time).behind p := by
    have now : p.now = p₀.now := by
      rw [same]
      rfl
    rw [← now]
    exact reach_behind w time
  exact h.map₂ (·.reach (p₁.now + time)) (·.reach (p₂.now + time)) (·.reach time)
    (fun _ w _ same => reached w same) (fun _ w _ same => reached w same) (fun _ => rfl) fun _ => rfl

theorem nextDue (h : Twins g p₁ p₂ w₁ w₂) : ∃ due : Option Span,
    w₁.nextDue = due.map (p₁.now + ·) ∧ w₂.nextDue = due.map (p₂.now + ·) := by
  cases h with
  | intro u told fits₁ fits₂ => exact ⟨u.nextDue, nextDue_behind u, nextDue_behind u⟩

theorem fireTimers (blind : Blind g p₁ p₂) (clear : p₁.ready = [] ∧ p₂.ready = [])
    (play : w₁.InPlay) (h : Twins g p₁ p₂ w₁ w₂) (goal : Span) (included : Bool) (n : Nat) :
    Twins g p₁ p₂ (World.fireTimers (p₁.now + goal) included n w₁)
      (World.fireTimers (p₂.now + goal) included n w₂) := by
  induction n generalizing w₁ w₂ with
  | zero => exact h
  | succ n ih =>
    obtain ⟨due, due₁, due₂⟩ := h.nextDue
    unfold World.fireTimers
    rw [due₁, due₂]
    cases due with
    | none => exact h
    | some due =>
      simp only [Option.map_some, Span.add_lt_add_left_iff, Span.add_left_inj]
      split
      · have reached := play.beat (.lull (.reach w₁ (p₁.now + due)))
        exact ih (reached.beats (beats_of_lulls (lulls_settle _)))
          ((h.reach due).settle blind clear reached)
      · exact h

theorem passTime (blind : Blind g p₁ p₂) (clear : p₁.ready = [] ∧ p₂.ready = [])
    (whole₁ : p₁.Whole) (whole₂ : p₂.Whole) (play : w₁.InPlay) (h : Twins g p₁ p₂ w₁ w₂)
    (span : Span) :
    Twins g p₁ p₂ (w₁.passTime span) (w₂.passTime span) := by
  have settled := h.settle blind clear play
  have play := play.beats (beats_of_lulls (lulls_settle w₁))
  unfold World.passTime
  dsimp only
  generalize w₁.settle = w₁ at settled play ⊢
  generalize w₂.settle = w₂ at settled ⊢
  obtain ⟨now, now₁, now₂⟩ : ∃ now, w₁.now = p₁.now + now ∧ w₂.now = p₂.now + now := by
    cases settled with
    | intro u => exact ⟨u.now, rfl, rfl⟩
  have until_ (w : World) {p : Past} (there : w.now = p.now + now) (goal : Span) :
      w.timersUntil (p.now + goal) = (goal.nanos - now.nanos) / Span.perMilli + 2 := by
    unfold timersUntil
    rw [there, Span.nanos_add, Span.nanos_add, Nat.add_sub_add_left]
  rw [now₁, now₂, Span.add_assoc, Span.add_assoc, whole₁.ceilMillis, whole₂.ceilMillis,
    until_ w₁ now₁, until_ w₂ now₂]
  exact (settled.fireTimers blind clear play _ true _).reach _

/-- The host hears the same, but for the numbers it is given and for why a program was refused. -/
def Echo (g : Entry → Option β) (p₁ p₂ : Past) (s : HostStep) (r₁ r₂ : HostReply) : Prop :=
  (∃ r : HostReply, r₁ = r.behind (s.past p₁) ∧ r₂ = r.behind (s.past p₂)) ∨
    Deaf g ∧ ∃ n e₁ e₂, s = .execute n ∧ r₁ = .failed e₁ ∧ r₂ = .failed e₂

theorem counts (h : Twins g p₁ p₂ w₁ w₂) : ∃ n,
    w₁.feed.count = p₁.frames.size + n ∧ w₂.feed.count = p₂.frames.size + n := by
  cases h with
  | intro u =>
    refine ⟨u.feed.count, ?_, ?_⟩ <;> simp [World.behind, Feed.behind, Feed.count, Past.told]

theorem brief (h : Twins g p₁ p₂ w₁ w₂) {s : HostStep} (brief : s.isBrief = true)
    (other : ∀ n, s ≠ .execute n) (clock : s ≠ .dropClock) :
    Twins g p₁ p₂ (w₁.apply (s.behind p₁)).1 (w₂.apply (s.behind p₂)).1 ∧
      Echo g p₁ p₂ s (w₁.apply (s.behind p₁)).2 (w₂.apply (s.behind p₂)).2 := by
  have applied {p₀ p : Past} {w : World} (fits : p.Suits w)
      (same : p = p₀.told p.programs p.chronicle) :
      (w.behind p).apply (s.behind p₀) = ((w.apply s).1.behind p, (w.apply s).2.behind (s.past p₀)) := by
    have step : s.behind p₀ = s.behind p := by
      rw [same]
      rfl
    have past : s.past p₀ = s.past p := by
      rw [same]
      rfl
    rw [step, past]
    exact apply_behind fits brief other clock
  constructor
  · exact h.map₂ (fun w => (w.apply (s.behind p₁)).1) (fun w => (w.apply (s.behind p₂)).1)
      (fun w => (w.apply s).1) (fun _ _ fits same => congrArg Prod.fst (applied fits same))
      (fun _ _ fits same => congrArg Prod.fst (applied fits same))
      (fun w => congrArg (·.feed.sources) (curtain_brief w brief clock))
      fun w => (keeps_of_isBrief w brief).rig
  · cases h with
    | intro u told fits₁ fits₂ =>
      rw [applied (fits₁.told _ _) rfl, applied (fits₂.told _ _) rfl]
      exact .inl ⟨_, rfl, rfl⟩

/-- A step of the host, which means the same runs and loads behind either past. -/
theorem apply (blind : Blind g p₁ p₂) (whole₁ : p₁.Whole) (whole₂ : p₂.Whole) (play : w₁.InPlay)
    (h : Twins g p₁ p₂ w₁ w₂) {s : HostStep}
    (clear : s.waits = true → p₁.ready = [] ∧ p₂.ready = [])
    (clock : s = .dropClock → p₁.sources = 0 ∧ p₂.sources = 0) :
    Twins g p₁ p₂ (w₁.apply (s.behind p₁)).1 (w₂.apply (s.behind p₂)).1 ∧
      Echo g p₁ p₂ s (w₁.apply (s.behind p₁)).2 (w₂.apply (s.behind p₂)).2 := by
  have counted {w₁ w₂ : World} {s : HostStep} (h : Twins g p₁ p₂ w₁ w₂)
      (past₁ : s.past p₁ = p₁.frames.size) (past₂ : s.past p₂ = p₂.frames.size) :
      Echo g p₁ p₂ s (.number w₁.feed.count) (.number w₂.feed.count) := by
    obtain ⟨n, count₁, count₂⟩ := h.counts
    rw [count₁, count₂, ← past₁, ← past₂]
    exact .inl ⟨.number n, rfl, rfl⟩
  by_cases quick : s.isBrief = true ∧ (∀ n, s ≠ .execute n) ∧ s ≠ .dropClock
  · exact h.brief quick.1 quick.2.1 quick.2.2
  cases s with
  | tick frames =>
    cases frames with
    | nil => exact ⟨h, counted h rfl rfl⟩
    | cons f rest =>
      have ticked := h.ticks blind (clear rfl) play (f :: rest)
      exact ⟨ticked, counted ticked rfl rfl⟩
  | burst frames =>
    have published := h.bursts frames
    exact ⟨published, counted published rfl rfl⟩
  | sleep span =>
    exact ⟨h.passTime blind (clear rfl) whole₁ whole₂ play span, .inl ⟨.done, rfl, rfl⟩⟩
  | execute n =>
    obtain ⟨twins, answers⟩ := h.executeNumber blind n
    refine ⟨twins, ?_⟩
    show Echo g p₁ p₂ (.execute n) (reply .number (w₁.executeNumber n).2)
      (reply .number (w₂.executeNumber n).2)
    generalize (w₁.executeNumber n).2 = a₁ at answers ⊢
    generalize (w₂.executeNumber n).2 = a₂ at answers ⊢
    cases answers with
    | @refused e₁ e₂ same =>
      rcases same with rfl | deaf
      · exact .inl ⟨.failed e₁, rfl, rfl⟩
      · exact .inr ⟨deaf, n, e₁, e₂, rfl, rfl, rfl⟩
    | started number => exact .inl ⟨.number number, rfl, rfl⟩
  | dropClock =>
    obtain ⟨none₁, none₂⟩ := clock rfl
    cases h with
    | @intro u told programs₁ programs₂ chronicle₁ chronicle₂ fits₁ fits₂ resolved deaf told₁ told₂ =>
      refine ⟨?_, .inl ⟨.done, rfl, rfl⟩⟩
      show Twins g p₁ p₂ (u.behind (p₁.told programs₁ chronicle₁)).dropClock
        (u.behind (p₂.told programs₂ chronicle₂)).dropClock
      rw [dropClock_behind (p := p₁.told programs₁ chronicle₁) none₁,
        dropClock_behind (p := p₂.told programs₂ chronicle₂) none₂]
      have rig : u.dropClock.rig = u.rig := by
        unfold dropClock
        split <;> rfl
      exact .intro _ told { fits₁ with sources := .inl none₁, permits := rig ▸ fits₁.permits }
        { fits₂ with sources := .inl none₂, permits := rig ▸ fits₂.permits } resolved deaf told₁ told₂
  | _ => exact absurd ⟨rfl, by simp, by simp⟩ quick

end Twins

end SceneScript
