import SceneScript.Proofs.Desk
import SceneScript.Proofs.Doubles
import SceneScript.Proofs.Silence
import SceneScript.Proofs.Toil
import SceneScript.Proofs.Twins
/-!
What a run leaves behind. Once the next run is under way, tweens and countdowns of the run before are
outlived (`Outlived`). Each ends in its next turns: a hasty tween may take the frames there are, and
paint, and nothing else comes of any of them (`turns_outlived`).
-/

namespace SceneScript

variable {p : Past} {w x : World} {f g : Fiber}

namespace World

/-- A tween or a countdown whose flag is up. -/
structure Outlived (w : World) (f : Fiber) : Prop where
  dutiful : f.Dutiful
  ended : (∃ target scope, f.role = .tween target scope ∧ w.flags.isRaised scope = true) ∨
    ∃ i stop t, f.role = .countdown i stop ∧ w.timers[i]? = some t ∧ w.flags.isRaised t.stop = true

theorem Outlived.watches (h : w.Outlived f) : f.watches ≠ none := by
  rcases h.ended with ⟨target, scope, role, -⟩ | ⟨i, stop, t, role, -⟩ <;> simp [Fiber.watches, role]

theorem Outlived.isRun (h : w.Outlived f) : f.isRun = false := by
  obtain ⟨flag, watches⟩ := Option.ne_none_iff_exists'.mp h.watches
  exact Fiber.isRun_of_watches watches

theorem Outlived.holdsScene (h : w.Outlived f) : f.holdsScene = false := by
  refine List.any_eq_false.mpr fun a member => ?_
  have allowed := h.dutiful h.isRun a member
  rcases h.ended with ⟨target, scope, role, -⟩ | ⟨i, stop, t, role, -⟩ <;> rw [role] at allowed <;>
  · cases a <;> first | cases allowed | exact Bool.false_ne_true

/-- All that was done is that something was told. -/
def ToldOn (w x : World) : Prop := ∃ es : Array Entry, (∀ e ∈ es, e.author = w.actor) ∧
  x = { w with chronicle := w.chronicle ++ es }

theorem ToldOn.refl (w : World) : ToldOn w w := ⟨#[], by simp, by simp⟩

theorem ToldOn.record (told : ToldOn w x) (d : Deed) : ToldOn w (x.record d) := by
  obtain ⟨es, own, rfl⟩ := told
  refine ⟨es.push ⟨w.actor, d⟩, fun e member => ?_, by simp [World.record]⟩
  rcases Array.mem_push.mp member with member | rfl
  · exact own e member
  · rfl

theorem toldOn_lagged (w : World) (missed : Nat) : ToldOn w (w.lagged missed) := by
  unfold lagged
  split
  · exact .refl w
  · exact (ToldOn.refl w).record _

theorem Outlived.conclude (told : ToldOn w x) (h : w.Outlived f) (o : Outcome) :
    ToldOn w (x.conclude f o) := by
  have kept : x.yieldScene f = x := by rw [yieldScene, h.holdsScene, if_neg Bool.false_ne_true]
  unfold World.conclude
  dsimp only
  rw [kept]
  rcases h.ended with ⟨target, scope, role, -⟩ | ⟨i, stop, t, role, -⟩ <;> rw [role]
  · cases o with
    | failed e => exact told.record _
    | _ => exact told
  · exact told

/-- A fiber that is outlived goes on with less to do. -/
structure Wanes (w : World) (f g : Fiber) : Prop where
  id : g.id = f.id
  role : g.role = f.role
  dutiful : g.Dutiful
  less : g.toil w.feed w.timers < f.toil w.feed w.timers

theorem Wanes.outlived (wanes : w.Wanes f g) (h : w.Outlived f) : w.Outlived g :=
  ⟨wanes.dutiful, wanes.role.symm ▸ h.ended⟩

/-- It has told something, and it is gone or has less to do. -/
inductive Departs (w : World) (f : Fiber) : World → Prop where
  | gone {x : World} : ToldOn w x → Departs w f x
  | goes {x : World} {g : Fiber} : ToldOn w x → w.Wanes f g → Departs w f (x.resume g)

section

variable {rest : List Act}

/-- The act is done with, and others that take less are to be done instead. -/
theorem Outlived.drops {a : Act} (h : w.Outlived f) (todo : f.todo = a :: rest) (new : List Act)
    (same : g.id = f.id ∧ g.role = f.role ∧ g.todo = new ++ rest)
    (cursors : g.cursor = f.cursor ∧ g.boardCursor = f.boardCursor)
    (allowed : ∀ b ∈ new, f.role.allows b = true)
    (less : Act.toils w.timers new < a.toil w.timers) : w.Wanes f g := by
  obtain ⟨id, role, acts⟩ := same
  refine ⟨id, role, fun _ b member => ?_, ?_⟩
  · rw [acts] at member
    rw [role]
    rcases List.mem_append.mp member with member | member
    · exact allowed b member
    · exact h.dutiful h.isRun b (by rw [todo]; exact List.mem_cons_of_mem _ member)
  · have lag : g.lag w.feed = f.lag w.feed := by
      simp only [Fiber.lag, Fiber.place, Fiber.cursorOn, cursors.1, cursors.2]
    rw [Fiber.toil, Fiber.toil, lag, acts, todo, Act.toils_append, Act.toils_cons]
    omega

theorem Outlived.sweeps {s : Sweep} (h : w.Outlived f) (todo : f.todo = .sweep s :: rest) :
    w.Departs f (w.performSweep { f with todo := rest } s) := by
  have allowed := h.dutiful h.isRun (.sweep s) (by simp [todo])
  obtain ⟨target, scope, role⟩ : ∃ target scope, f.role = .tween target scope := by
    rcases h.ended with ⟨target, scope, role, -⟩ | ⟨i, stop, t, role, -⟩
    · exact ⟨target, scope, role⟩
    · rw [role] at allowed
      cases allowed
  have strides : f.role.allows (.stride s) = true := Role.allows_of_leaves allowed (.takes s)
  cases paint : s.paint with
  | tint target' start stop =>
    unfold performSweep
    rw [paint]
    split
    · have painted : ToldOn w (w.paint s.share (.tint target' start stop)) :=
        (ToldOn.refl w).record _
      exact .goes painted (h.drops todo [.stride s] ⟨rfl, rfl, rfl⟩ ⟨rfl, rfl⟩
        (by simpa using strides) (by simp [Act.toil]))
    · have painted : ToldOn w (w.paintLast (.tint target' start stop)) := (ToldOn.refl w).record _
      exact .goes painted (h.drops todo [] ⟨rfl, rfl, rfl⟩ ⟨rfl, rfl⟩ (by simp)
        (by simp [Act.toil]))
  | _ =>
    rw [role] at allowed
    simp [Role.allows, paint] at allowed

theorem Outlived.strides {s : Sweep} (h : w.Outlived f) (todo : f.todo = .stride s :: rest)
    (fed : w.starves f = false) : w.Departs f (w.performStride { f with todo := rest } s) := by
  have allowed := h.dutiful h.isRun (.stride s) (by simp [todo])
  unfold performStride takeFrame
  split
  · rename_i waiting
    have starves := starves_iff.mpr ⟨s, rest, todo, waiting⟩
    rw [starves] at fed
    cases fed
  · exact .goes (.refl w) (h.drops todo [] ⟨rfl, rfl, rfl⟩ ⟨rfl, rfl⟩ (by simp)
      (by simp [Act.toil]))
  · rename_i fr c missed pulled
    have took := (toldOn_lagged w missed).record (.took fr)
    obtain ⟨id, role, acts, -⟩ := setCursor_fields { f with todo := rest } s.lane c
    dsimp only
    split
    · rename_i s' taken
      refine .goes took ⟨id, role, fun _ b member => ?_, ?_⟩
      · rw [show ((Fiber.setCursor { f with todo := rest } s.lane c).first _).role = f.role from role]
        rcases List.mem_cons.mp member with rfl | member
        · exact Role.allows_of_leaves allowed (.paints (take?_paint taken))
        · rw [acts] at member
          exact h.dutiful h.isRun b (by rw [todo]; exact List.mem_cons_of_mem _ member)
      · have pulled : w.feed.pull (f.place w.feed s.lane) = .frame fr c missed := pulled
        have lag := Fiber.lag_lt (g := (Fiber.setCursor { f with todo := rest } s.lane c).first
          [.sweep s']) pulled (cursor_setCursor _ _ _) (boardCursor_setCursor _ _ _)
        have toils : Act.toils w.timers ((Fiber.setCursor { f with todo := rest } s.lane c).first
            [.sweep s']).todo = 2 + Act.toils w.timers rest := by
          rw [Fiber.first, acts]
          rfl
        have own : Act.toils w.timers f.todo = 1 + Act.toils w.timers rest := by
          rw [todo]
          rfl
        rw [Fiber.toil, Fiber.toil, toils, own]
        omega
    · have same : Outlived w (Fiber.setCursor { f with todo := rest } s.lane c) := by
        refine ⟨fun _ b member => ?_, role.symm ▸ h.ended⟩
        rw [acts] at member
        rw [role]
        exact h.dutiful h.isRun b (by rw [todo]; exact List.mem_cons_of_mem _ member)
      exact .gone (same.conclude took _)

theorem Outlived.counts {i : Nat} {due : Option Span} (h : w.Outlived f)
    (todo : f.todo = .count i due :: rest) :
    w.Departs f (w.performCount { f with todo := rest } i due) := by
  have allowed := h.dutiful h.isRun (.count i due) (by simp [todo])
  obtain ⟨t, found, up⟩ : ∃ t, w.timers[i]? = some t ∧ w.flags.isRaised t.stop = true := by
    rcases h.ended with ⟨target, scope, role, -⟩ | ⟨j, stop, t, role, ended⟩ <;>
      rw [role] at allowed
    · cases allowed
    · obtain rfl : i = j := by simpa [Role.allows] using allowed
      exact ⟨t, ended⟩
  have drops : w.Wanes f { f with todo := rest } := h.drops todo [] ⟨rfl, rfl, rfl⟩
    ⟨rfl, rfl⟩ (by simp) (by simp [Act.toil])
  unfold performCount
  rw [found]
  dsimp only
  split
  · rw [timeOut, if_pos up]
    exact .goes (.refl w) drops
  · exact .goes ((ToldOn.refl w).record _) drops

end

theorem Outlived.advance (h : w.Outlived f) : w.Departs f (w.advance f) := by
  have done (o : Outcome) : w.Departs f (w.conclude f o) := .gone (h.conclude (.refl w) o)
  have duty := h.dutiful h.isRun
  unfold World.advance
  split
  · exact done _
  split
  · unfold noteCancelled
    split
    · exact .gone ((ToldOn.refl w).record _)
    · exact .gone (.refl w)
  rename_i going
  split
  · rw [fetch]
    split
    · rename_i r role
      exact absurd role (f.isRun_eq_false_iff.mp h.isRun r)
    · exact done _
  · exact done _
  · rename_i a rest todo _
    have allowed := duty a (by simp [todo])
    rcases h.ended with ⟨target, scope, role, up⟩ | ⟨i, stop, t, role, -⟩ <;> rw [role] at allowed
    · cases a with
      | sweep s => exact h.sweeps todo
      | stride s => exact h.strides todo (hasty_of_going role up (by simpa using going)).2
      | _ => cases allowed
    · cases a with
      | count j due => exact h.counts todo
      | _ => cases allowed
  · rename_i a rest e todo _
    have allowed := duty a (by simp [todo])
    have skips : w.Departs f (w.resume { f with todo := rest }) :=
      .goes (.refl w) (h.drops todo [] ⟨rfl, rfl, rfl⟩ ⟨rfl, rfl⟩ (by simp)
        (Nat.zero_lt_of_lt (Act.hires_lt_toil a)))
    cases a with
    | release | loaded | silence =>
      rcases h.ended with ⟨target, scope, role, -⟩ | ⟨i, stop, t, role, -⟩ <;>
      · rw [role] at allowed
        cases allowed
    | _ => exact skips

theorem Outlived.turn (h : w.Outlived f) (alone : w.actor = none) {rest : List Fiber}
    (ready : w.ready = f :: rest) : ∃ left, ∃ es : Array Entry, (∀ e ∈ es, e.author = some f.id) ∧
    w.turn = { w with ready := left ++ rest, chronicle := w.chronicle ++ es } ∧
    (left = [] ∨ ∃ g, left = [g] ∧ w.Wanes f g) := by
  have taken : (w.taken f rest).Outlived f := ⟨h.dutiful, h.ended⟩
  have clear : w = { w with actor := none } := by rw [← alone]
  have departs := taken.advance
  rw [turn_cons ready]
  generalize (w.taken f rest).advance f = x at departs ⊢
  cases departs with
  | gone told =>
    obtain ⟨es, own, same⟩ := told
    refine ⟨[], es, own, ?_, .inl rfl⟩
    rw [same, clear]
    rfl
  | @goes x g told wanes =>
    obtain ⟨es, own, rfl⟩ := told
    refine ⟨[g], es, own, ?_, .inr ⟨g, rfl, wanes.id, wanes.role, wanes.dutiful, wanes.less⟩⟩
    rw [clear]
    rfl

/-- A fiber at the head of the queue that is outlived is gone after some turns. -/
theorem turns_one (h : w.Outlived f) (alone : w.actor = none) {rest : List Fiber}
    (ready : w.ready = f :: rest) : ∃ k, ∃ es : Array Entry, (∀ e ∈ es, e.author = some f.id) ∧
    w.turns k = { w with ready := rest, chronicle := w.chronicle ++ es } := by
  induction n : f.toil w.feed w.timers using Nat.strong_induction_on generalizing w f with
  | _ n ih =>
    obtain ⟨left, es, own, same, rfl | ⟨g, rfl, wanes⟩⟩ := h.turn alone ready
    · exact ⟨1, es, own, by rw [turns_succ, same]; rfl⟩
    · obtain ⟨k, es', own', same'⟩ := ih (g.toil w.turn.feed w.turn.timers)
        (by rw [same, ← n]; exact wanes.less) (w := w.turn) (f := g)
        (by rw [same]; exact ⟨wanes.dutiful, (wanes.outlived h).ended⟩) (by rw [same]; exact alone)
        (by rw [same]; rfl) rfl
      refine ⟨k + 1, es ++ es', fun e member => ?_, ?_⟩
      · exact (Array.mem_append.mp member).elim (own e) fun member => (own' e member).trans
          (congrArg some wanes.id)
      · rw [turns_succ, same', same, ← Array.append_assoc]

theorem turns_outlived {l rest : List Fiber} (ended : ∀ f ∈ l, w.Outlived f)
    (alone : w.actor = none) (ready : w.ready = l ++ rest) : ∃ k, ∃ es : Array Entry,
    (∀ e ∈ es, ∃ f ∈ l, e.author = some f.id) ∧
    w.turns k = { w with ready := rest, chronicle := w.chronicle ++ es } := by
  induction l generalizing w with
  | nil =>
    have ready : w.ready = rest := ready
    exact ⟨0, #[], by simp, by rw [turns, ← ready, Array.append_empty]⟩
  | cons f l ih =>
    obtain ⟨k, es, own, same⟩ := turns_one (ended f List.mem_cons_self) alone ready
    have ended' : ∀ g ∈ l, (w.turns k).Outlived g := by
      intro g member
      have h := ended g (List.mem_cons_of_mem f member)
      rw [same]
      exact ⟨h.dutiful, h.ended⟩
    obtain ⟨k', es', own', same'⟩ := ih ended' (by rw [same]; exact alone) (by rw [same]; rfl)
    refine ⟨k + k', es ++ es', fun e member => ?_, ?_⟩
    · rcases Array.mem_append.mp member with member | member
      · exact ⟨f, List.mem_cons_self, own e member⟩
      · obtain ⟨g, listed, author⟩ := own' e member
        exact ⟨g, List.mem_cons_of_mem f listed, author⟩
    · rw [turns_add, same', same, ← Array.append_assoc]

/-! ### The start of a run -/

end World

/-- It is on its way out, whatever takes place behind the past. -/
structure Past.Lingers (p : Past) (f : Fiber) : Prop where
  old : f.id < p.fibers
  dutiful : f.Dutiful
  ended : (∃ target scope, f.role = .tween target scope ∧ p.flags[scope]? = some true) ∨
    ∃ i stop t, f.role = .countdown i stop ∧ p.timers[i]? = some t ∧ p.flags[t.stop]? = some true

theorem Flags.isRaised_past {flag : Nat} (up : p.flags[flag]? = some true)
    (w : World) : (w.behind p).flags.isRaised flag = true := by
  obtain ⟨bound, up⟩ := Array.getElem?_eq_some_iff.mp up
  simp [World.behind, isRaised, Array.getD_eq_getD_getElem?, Array.getElem?_append_left bound, bound,
    up]

theorem Past.Lingers.outlived (h : p.Lingers f) (w : World) :
    (w.behind p).Outlived f := by
  refine ⟨h.dutiful, ?_⟩
  rcases h.ended with ⟨target, scope, role, up⟩ | ⟨i, stop, t, role, found, up⟩
  · exact .inl ⟨target, scope, role, Flags.isRaised_past up w⟩
  · refine .inr ⟨i, stop, t, role, ?_, Flags.isRaised_past up w⟩
    obtain ⟨bound, -⟩ := Array.getElem?_eq_some_iff.mp found
    rw [← found]
    exact Array.getElem?_append_left bound

namespace World

/-- The flags once a run has started; its own scope is not among them. -/
def cleared (w : World) : Flags := (w.flags.raise w.scope).stopLast w.timers

/-- What lies behind a run that starts in `w`. -/
def past (w : World) : Past where
  frames := w.feed.frames
  sources := w.feed.sources - w.rig.keptSources
  now := w.now
  flags := w.cleared.raised
  timers := w.timers
  receipts := w.slot.receipts
  runs := w.runs
  loads := w.loads
  fibers := w.nextFiber
  permits := w.permits
  hasty := w.hasty
  programs := w.programs
  ready := w.renewScope.ready
  chronicle := w.chronicle

/-- A run has begun in `w`, and nothing lies behind it. -/
def debut (w : World) : World :=
  { World.new w.settings w.rig w.feed.depth with
    feed := ⟨#[], w.feed.depth, w.rig.keptSources⟩
    state := { Execution.idle.begin 0 with chosen := w.state.chosen }
    registry := w.registry
    vars := w.vars
    hasty := fun i => w.hasty (w.nextFiber + i)
    runs := 1 }

/-- No run is under way, on doubles that only record; the next run will end what the last one left. -/
structure Idles (w : World) : Prop where
  play : w.InPlay
  deep : 0 < w.feed.depth
  alert : w.Alert
  halted : w.Halted
  bare : w.Bare
  records : w.rig.Records
  strict : w.settings.cancelStaleEffects = true
  rests : w.state.executing = false

theorem flags_renewScope (strict : w.settings.cancelStaleEffects = true)
    (sound : w.backdrop.Sound) : w.renewScope.flags = w.cleared.fresh.1 := by
  have renewed := congrArg Backstage.flags (backstage_renewScope w)
  rw [if_pos strict] at renewed
  have apart {flags : Flags} {i : Nat} (inside : i < flags.size) :
      flags.fresh.1.raise i = (flags.raise i).fresh.1 := by
    refine congrArg Flags.mk (Array.toList_inj.mp ?_)
    simp [Flags.fresh, Flags.raise, List.set_append_left _ _ inside]
  have scope : w.scope < w.flags.size := sound.scope
  refine renewed.trans ?_
  rw [apart scope, cleared]
  unfold Flags.stopLast
  cases last : w.timers.back? with
  | none => rfl
  | some t =>
    rw [Array.back?_eq_getElem?] at last
    have stop : t.stop < w.flags.size := (sound.stops _ t last).1
    exact apart (by rwa [Flags.size_raise])

theorem Idles.isRun (h : w.Idles) (member : f ∈ w.fibers) : f.isRun = false := by
  have alone : w.leads = [] := by
    by_contra some
    have busy := h.play.order.staged.attended.2.mpr some
    rw [show w.plot.state = w.state from rfl, h.rests] at busy
    cases busy
  exact isRun_eq_false_of_leads alone member

theorem flags_cancel (strict : w.settings.cancelStaleEffects = true) :
    w.cancelSideEffects.flags = w.renewScope.flags := by
  have ended := congrArg Backstage.flags (backstage_cancelSideEffects w)
  have renewed := congrArg Backstage.flags (backstage_renewScope w)
  rw [if_pos strict] at renewed
  exact ended.trans renewed.symm

/-- Whoever is left watches a flag that goes up. -/
theorem Idles.watches (h : w.Idles) (member : f ∈ w.fibers) : ∃ flag, f.watches = some flag ∧
    w.renewScope.flags.isRaised flag = true := by
  have watches := (h.bare.fibers f.calm (List.mem_map_of_mem member)).role.resolve_left
    (by simp [h.isRun member])
  rw [← flags_cancel h.strict]
  cases role : f.role with
  | tween target scope =>
    refine ⟨scope, by rw [Fiber.watches, role], ?_⟩
    exact h.play.tended.raised_tween member role (.inr (.inr h.strict))
  | countdown i stop =>
    refine ⟨stop, by rw [Fiber.watches, role], ?_⟩
    exact h.play.tended.raised_countdown member role
  | run | fade | load => simp [Fiber.watches, role] at watches

theorem Idles.raised (h : w.Idles) {flag : Nat} (up : w.renewScope.flags.isRaised flag = true) :
    w.past.flags[flag]? = some true := by
  rw [flags_renewScope h.strict h.play.tended.sound, Flags.isRaised_fresh] at up
  have inside : flag < w.cleared.raised.size := Flags.lt_of_isRaised up
  rw [Flags.isRaised, Array.getD_eq_getD_getElem?, Array.getElem?_eq_getElem inside] at up
  exact (Array.getElem?_eq_getElem inside).trans (congrArg some up)

theorem Idles.lingers (h : w.Idles) (member : f ∈ w.fibers) : w.past.Lingers f := by
  have listed : f.calm ∈ w.crew := List.mem_map_of_mem member
  have tends := h.play.tended.tends f.calm listed
  obtain ⟨flag, watches, up⟩ := h.watches member
  refine ⟨h.play.order.crewed.below f.calm listed, h.play.order.crewed.dutiful f.calm listed, ?_⟩
  rw [Fiber.watches] at watches
  cases role : f.role with
  | tween target scope =>
    rw [role] at watches
    obtain rfl := Option.some.inj watches
    exact .inl ⟨target, scope, rfl, h.raised up⟩
  | countdown i stop =>
    rw [role] at watches
    obtain rfl := Option.some.inj watches
    rw [Fiber.calm_role, role] at tends
    obtain ⟨t, found, rfl⟩ := tends
    exact .inr ⟨i, t.stop, t, rfl, found, h.raised up⟩
  | run | fade | load =>
    rw [role] at watches
    cases watches

theorem mem_fibers_renewScope (among : f ∈ w.renewScope.fibers) : f ∈ w.fibers := by
  have hands : w.renewScope.hands = w.hands := congrArg Backstage.hands (backstage_renewScope w)
  have listed : f ∈ w.renewScope.hands := mem_hands.mpr among
  rw [hands] at listed
  exact mem_hands.mp listed

/-- Nobody waits any longer once a run has started. -/
theorem Idles.blocked (h : w.Idles) : w.renewScope.blocked = [] := by
  refine List.eq_nil_iff_forall_not_mem.mpr fun b among => ?_
  have member : b.fiber ∈ w.renewScope.fibers :=
    List.mem_append_right _ (List.mem_map_of_mem among)
  obtain ⟨flag, watches, up⟩ := h.watches (mem_fibers_renewScope member)
  rw [h.alert.slumbers (slumbers_renewScope w) b among flag watches] at up
  cases up

theorem renewScope_begun (strict : w.settings.cancelStaleEffects = true) :
    w.begun.renewScope = { w.begun with
      flags := w.renewScope.flags
      scope := w.flags.raised.size
      ready := w.renewScope.ready
      blocked := w.renewScope.blocked } := by
  have renewed (v : World) (strict : v.settings.cancelStaleEffects = true) :
      v.renewScope = (v.freshScope.raise v.scope).stopCountdown := if_pos strict
  rw [renewed w.begun strict, renewed w strict]
  cases last : w.timers.back? with
  | none =>
    have still (v : World) (timers : v.timers = w.timers) : v.stopCountdown = v := by
      rw [stopCountdown, timers, last]
    rw [still (w.begun.freshScope.raise w.begun.scope) rfl, still (w.freshScope.raise w.scope) rfl]
    rfl
  | some t =>
    have stops (v : World) (timers : v.timers = w.timers) : v.stopCountdown = v.raise t.stop := by
      rw [stopCountdown, timers, last]
    rw [stops (w.begun.freshScope.raise w.begun.scope) rfl, stops (w.freshScope.raise w.scope) rfl]
    rfl

theorem Idles.idle (h : w.Idles) : w.plot.Idle := by
  cases h.play.order.staged with
  | idle idle => exact idle
  | playing l playing =>
    have busy : w.state.executing = true := playing.executing
    rw [h.rests] at busy
    cases busy

/-- A run that starts leaves everything behind. -/
theorem Idles.begins (h : w.Idles) : w.begun.renewScope = w.debut.behind w.past := by
  have sources : w.rig.keptSources ≤ w.feed.sources := h.play.screened.sources
  have feed : w.debut.feed.behind w.past = w.feed := by
    simp [Feed.behind, debut, past, sources]
  have slot : w.debut.slot.behind w.past = w.slot := by
    have pending : w.slot.pending = none := by
      simpa [plot, ChoiceSlot.isPending] using h.idle.pending
    show ChoiceSlot.mk none (w.slot.receipts ++ #[]) = w.slot
    rw [Array.append_empty, ← pending]
  have now : w.now + Span.zero = w.now := Span.nanos_ext (Nat.add_zero _)
  have mixer : w.debut.mixer.behind w.past = .silent := rfl
  have fixtures : w.fixtures = .unused := h.bare.fixtures
  simp only [World.fixtures, Fixtures.unused, Fixtures.mk.injEq] at fixtures
  have size : w.cleared.raised.size = w.flags.raised.size := by
    unfold cleared Flags.stopLast
    split <;> simp [Flags.raise]
  have actor := h.play.order.actor
  have hasty : (fun id => if id < w.nextFiber then w.hasty id
      else w.hasty (w.nextFiber + (id - w.nextFiber))) = w.hasty := by
    funext id
    split
    · rfl
    · rw [Nat.add_sub_cancel' (by omega)]
  rw [renewScope_begun h.strict, h.blocked, flags_renewScope h.strict h.play.tended.sound]
  simp only [behind, feed, slot, mixer]
  simp [debut, past, World.new, now, fixtures, actor, Flags.fresh, size, Flags.empty,
    Execution.behind, Execution.begin, begun, hasty]

/-- From `v` to `x` no frame came before everybody waited. -/
inductive Lulled (v : World) : World → Prop where
  | frameless (ps : List Pulse) : (v.pulses ps).feed.count = v.feed.count → Lulled v (v.pulses ps)
  | rested (ps : List Pulse) {x : World} : (v.pulses ps).feed.count = v.feed.count →
    (v.pulses ps).ready = [] → Later (v.pulses ps) x → Lulled v x

theorem Lulled.after {v : World} {ps : List Pulse} (still : (v.pulses ps).feed.count = v.feed.count)
    (lulled : Lulled (v.pulses ps) x) : Lulled v x := by
  cases lulled with
  | frameless qs still' =>
    have all := Lulled.frameless (v := v) (ps ++ qs)
    rw [pulses_append] at all
    exact all (still'.trans still)
  | rested qs still' rest later =>
    have all := Lulled.rested (v := v) (ps ++ qs) (x := x)
    rw [pulses_append] at all
    exact all (still'.trans still) rest later

theorem Lulled.turns {v : World} (lulled : Lulled v x) (play : x.InPlay) (k : Nat) :
    Lulled v (x.turns k) := by
  cases lulled with
  | frameless ps still =>
    have still' := congrArg Feed.count (play.feed_turns k)
    rw [← pulses_turns] at still' ⊢
    exact .after still (.frameless _ still')
  | rested ps still rest later =>
    have later' := play.later (List.replicate k .turn)
    rw [pulses_turns] at later'
    exact .rested ps still rest (later.trans later')

theorem mem_launched (member : f ∈ w.fibers) (n : Nat) : f.calm ∈ (w.executeNumber n).1.crew := by
  obtain ⟨new, perm, -⟩ := (keeps_executeNumber w n).crew
  exact perm.mem_iff.mpr (List.mem_append_left _ (List.mem_map_of_mem member))

theorem old_or_young {n : Nat} (listed : g ∈ (w.executeNumber n).1.crew) :
    (∃ f ∈ w.fibers, f.calm = g) ∨ w.nextFiber ≤ g.id := by
  obtain ⟨new, perm, -, recruits⟩ := (keeps_executeNumber w n).crew
  rcases List.mem_append.mp (perm.mem_iff.mp listed) with old | young
  · exact .inl (List.mem_map.mp old)
  · exact .inr (recruits g young).id_ge

section

variable {n : Nat} {q : Program} (h : w.Idles) (found : resolution w.programs n = .ok q)
  (nonempty : q.commands ≠ [])
include h

theorem Idles.launched : (w.executeNumber n).1.InPlay := h.play.pulse (.host (.execute n) rfl)

/-- What those who are left tell after the run has started. -/
theorem Idles.told (later : Later (w.executeNumber n).1 x) {e : Entry}
    (member : e ∈ x.entries.drop w.entries.length) {id : Nat} (old : id < w.nextFiber)
    (author : e.author = some id) : e ∈ x.entries.drop (w.executeNumber n).1.entries.length ∧
      ∃ f ∈ w.fibers, f.id = id ∧ (w.executeNumber n).1.MayTell f.calm e.deed := by
  have kept := keeps_executeNumber w n
  obtain ⟨es, entries, mute⟩ := kept.entries
  obtain ⟨es', entries'⟩ := later.grown
  have member : e ∈ x.entries.drop (w.executeNumber n).1.entries.length := by
    rw [← entries', List.drop_left]
    rw [← entries', entries, List.append_assoc, List.drop_left] at member
    refine (List.mem_append.mp member).resolve_left fun among => ?_
    have same := (mute e among).1.symm.trans author
    rw [h.play.order.actor] at same
    cases same
  refine ⟨member, ?_⟩
  rcases later.drop e member id author with young | ⟨g, listed, same, tells⟩
  · have grown := kept.nextFiber
    omega
  · rcases old_or_young listed with ⟨f, member, rfl⟩ | young
    · exact ⟨f, member, same, tells⟩
    · omega

include found nonempty

theorem Idles.flags_launched : (w.executeNumber n).1.flags = w.renewScope.flags := by
  have launched : (w.launch q).flags = w.begun.renewScope.flags := by
    unfold launch
    generalize w.begun.renewScope = v
    rfl
  rw [executeNumber, execute_of_preprocess h.rests found nonempty]
  exact launched.trans (renewScope_begun h.strict ▸ rfl)

/-- Whoever is left and heeds the flag it watches only remarks on it. -/
theorem Idles.remarks_of_heeding (member : f ∈ w.fibers) (later : Later (w.executeNumber n).1 x)
    (heeding : f.role.isTween = true → w.hasty f.id = false) :
    f.Remarks (w.executeNumber n).1 x := by
  have heeds : (w.executeNumber n).1.Heeds f := fun tween => by
    rw [(keeps_executeNumber w n).hasty]
    exact heeding tween
  obtain ⟨flag, watches, up⟩ := h.watches member
  exact later.remarks h.launched.order.crewed (mem_launched member n) heeds watches
    (h.flags_launched found nonempty ▸ up)

/-- A tween that waits has no frame to take until one comes. -/
theorem Idles.remarks_of_waiting (member : f ∈ w.fibers) (waits : w.ready = []) {target : Target}
    {scope : Nat} (role : f.role = .tween target scope) (ps : List Pulse)
    (still : ((w.executeNumber n).1.pulses ps).feed.count = (w.executeNumber n).1.feed.count) :
    f.Remarks (w.executeNumber n).1 ((w.executeNumber n).1.pulses ps) := by
  have feed : (w.executeNumber n).1.feed = w.feed :=
    congrArg Curtain.feed (curtain_brief w (s := .execute n) rfl nofun)
  have parked : ∃ b ∈ w.blocked, b.fiber = f := by
    rw [fibers, waits, List.nil_append] at member
    exact List.mem_map.mp member
  obtain ⟨flag, watches, up⟩ := h.watches member
  rw [Fiber.watches, role] at watches
  obtain rfl := Option.some.inj watches
  exact remarks_of_parked h.play h.deep h.halted parked role h.launched feed
    (mem_launched member n) (h.flags_launched found nonempty ▸ up) ps still

theorem Idles.remarks_of_lulled (member : f ∈ w.fibers) (waits : w.ready = [])
    (lulled : Lulled (w.executeNumber n).1 x) : f.Remarks (w.executeNumber n).1 x := by
  have play := h.launched (n := n)
  have crewed := play.order.crewed
  have listed := mem_launched member n
  obtain ⟨flag, watches, up⟩ := h.watches member
  rw [← h.flags_launched found nonempty] at up
  have untween (other : f.role.isTween = false) (later : Later (w.executeNumber n).1 x) :
      f.Remarks (w.executeNumber n).1 x :=
    h.remarks_of_heeding found nonempty member later fun tween => by rw [other] at tween; cases tween
  cases lulled with
  | frameless ps still =>
    cases role : f.role with
    | tween target scope => exact h.remarks_of_waiting found nonempty member waits role ps still
    | _ => exact untween (by rw [role]; rfl) (play.later ps)
  | rested ps still rest later =>
    have before := play.later ps
    have alert := (h.alert.pulse h.play (.host (.execute n) rfl)).pulses play ps
    have gone := gone_of_rest before alert rest crewed listed watches up
    have below := Nat.lt_of_lt_of_le (crewed.below f.calm listed) before.nextFiber
    cases role : f.role with
    | tween target scope =>
      exact (h.remarks_of_waiting found nonempty member waits role ps still).trans before.grown
        later.grown (later.remarks_of_gone below gone)
    | _ => exact untween (by rw [role]; rfl) (before.trans later)

end

/-! ### Time between moves -/

theorem OnTime.now_ticks (h : w.OnTime) (frames : List (Span × Keys)) :
    (frames.foldl (fun w f => w.tick f.1 f.2) w).now = w.now := by
  induction frames generalizing w with
  | nil => rfl
  | cons f frames ih =>
    have settled : w.settle.OnTime := h.along (pulsed_turns patience w)
    have published : (w.settle.publish f.1 f.2).OnTime :=
      settled.along (.single w.settle (.publish f.1 f.2))
    have ticked : (w.tick f.1 f.2).now = w.now :=
      (now_turns published patience).trans (now_turns h patience)
    exact (ih (h.along (pulsed_tick w f.1 f.2))).trans ticked

theorem now_bursts (w : World) (frames : List (Span × Keys)) :
    (frames.foldl (fun w f => w.publish f.1 f.2) w).now = w.now := by
  induction frames generalizing w with
  | nil => rfl
  | cons f frames ih => exact ih (w.publish f.1 f.2)

/-- Between moves it is always some whole millisecond. -/
theorem OnTime.whole (h : w.OnTime) (whole : Span.perMilli ∣ w.now.nanos) (m : Move) :
    Span.perMilli ∣ (w.move m).now.nanos := by
  cases m with
  | turn => exact (now_turn h.play.order).symm ▸ whole
  | host s =>
    cases brief : s.isBrief with
    | true => exact (now_pulse h.play.order (.host s brief)).symm ▸ whole
    | false =>
      cases s with
      | tick frames => exact (h.now_ticks frames).symm ▸ whole
      | burst frames => exact (now_bursts w frames).symm ▸ whole
      | sleep span => exact Nat.dvd_mul_left _ _
      | _ => cases brief

end World

end SceneScript
