import SceneScript.Proofs.Staged
/-!
The end of the side effects: a fiber that looks at its flag first never acts on the stage again once
that is up, a tween never does anything but paint, and the host raises the flags of the current scope
and of the countdown on show. A tween of an earlier scope that nobody cancelled is passed over.
-/

namespace SceneScript

/-- What tweens and countdowns do to the stage. -/
def Deed.isEffect : Deed → Bool
  | .stage (.setColor ..) | .stage (.setTimerText _) | .stage (.playAnimation .timerTextExit) => true
  | .event .countdownTimedOut => true
  | _ => false

def Deed.IsRemark (d : Deed) : Prop := ∃ r, d = .remark r

/-- What a tween does: it remarks on itself, takes frames and paints its target. -/
def Deed.Tints (target : Target) (d : Deed) : Prop :=
  d.IsRemark ∨ (∃ fr, d = .took fr) ∨ ∃ color, d = .stage (.setColor target color)

theorem Deed.IsRemark.isEffect {d : Deed} (h : d.IsRemark) : d.isEffect = false := by
  obtain ⟨r, rfl⟩ := h
  rfl

def Role.isTween : Role → Bool
  | .tween .. => true
  | _ => false

/-- The same fiber later on. A fiber in the background keeps its role. -/
structure Fiber.Same (f g : Fiber) : Prop where
  id : f.id = g.id
  isRun : f.isRun = g.isRun
  role : f.isRun = false → g.role = f.role

theorem Fiber.Same.refl (f : Fiber) : f.Same f := ⟨rfl, rfl, fun _ => rfl⟩

theorem Fiber.Same.trans {f g h : Fiber} (first : f.Same g) (second : g.Same h) : f.Same h where
  id := first.id.trans second.id
  isRun := first.isRun.trans second.isRun
  role idle := (second.role (first.isRun ▸ idle)).trans (first.role idle)

theorem Fiber.isRun_of_watches {f : Fiber} {flag : Nat} (watches : f.watches = some flag) :
    f.isRun = false := by
  refine f.isRun_eq_false_iff.mpr fun r role => ?_
  rw [Fiber.watches, role] at watches
  cases watches

theorem Fiber.Same.watches {f g : Fiber} (h : f.Same g) {flag : Nat}
    (watches : f.watches = some flag) :
    g.watches = some flag := by
  rw [← watches, Fiber.watches, h.role (Fiber.isRun_of_watches watches)]
  rfl

theorem Fiber.Same.role_of_tween {f g : Fiber} {target : Target} {scope : Nat} (h : f.Same g)
    (role : f.role = .tween target scope) : g.role = .tween target scope := by
  have watches : f.watches = some scope := by rw [Fiber.watches, role]
  rw [h.role (Fiber.isRun_of_watches watches), role]

theorem Fiber.Same.role_or_run {f g : Fiber} (h : f.Same g) :
    g.role = f.role ∨ ∃ r, g.role = .run r := by
  cases run : f.isRun with
  | false => exact .inl (h.role run)
  | true => exact .inr (g.isRun_iff.mp (h.isRun ▸ run))

namespace Backdrop

theorem Tends.same {b : Backdrop} {f g : Fiber} (tends : b.Tends f.role) (same : f.Same g) :
    b.Tends g.role := by
  rcases same.role_or_run with role | ⟨r, role⟩
  · rwa [role]
  · rw [role]
    trivial

theorem Hires.same {b b' : Backdrop} {f g : Fiber} (hires : b.Hires b' f.role) (same : f.Same g) :
    b.Hires b' g.role := by
  rcases same.role_or_run with role | ⟨r, role⟩
  · rwa [role]
  · rw [role]
    trivial

end Backdrop

namespace World

structure Tended (w : World) : Prop where
  sound : w.backdrop.Sound
  tends : ∀ f ∈ w.crew, w.backdrop.Tends f.role

/-- Who joined between `w` and `w'`. -/
structure Hired (w w' : World) (f : Fiber) : Prop where
  id_ge : w.nextFiber ≤ f.id
  hires : ∃ b b', Backdrop.Stirs w.backdrop b ∧ Backdrop.Stirs b b' ∧ Backdrop.Stirs b' w'.backdrop ∧
    b.Hires b' f.role

/-- The fiber looks at the flag it watches before it does anything else. -/
def Heeds (w : World) (f : Fiber) : Prop := f.role.isTween = true → w.hasty f.id = false

/-- What the fiber may do from `w` on: whoever heeds a flag that is up only remarks on it, and a tween
only paints. -/
structure MayTell (w : World) (f : Fiber) (d : Deed) : Prop where
  ended : w.Heeds f → ∀ flag, f.watches = some flag → w.flags.isRaised flag = true → d.IsRemark
  tints : ∀ target scope, f.role = .tween target scope → d.Tints target

/-- `w'` comes after `w`. Whoever ended does nothing any more. -/
structure Later (w w' : World) : Prop where
  nextFiber : w.nextFiber ≤ w'.nextFiber
  hasty : w'.hasty = w.hasty
  stirs : Backdrop.Stirs w.backdrop w'.backdrop
  crew : ∀ g ∈ w'.crew, (∃ f ∈ w.crew, f.Same g) ∨ Hired w w' g
  entries : ∃ es : List Entry, w'.entries = w.entries ++ es ∧
    ∀ e ∈ es, ∀ id, e.author = some id →
      w.nextFiber ≤ id ∨ ∃ f ∈ w.crew, f.id = id ∧ w.MayTell f e.deed

variable {w w' w'' : World} {f g : Fiber}

theorem Heeds.same (heeds : w.Heeds f) (same : f.Same g) (hasty : w'.hasty = w.hasty) :
    w'.Heeds g := by
  intro tween
  rw [hasty, ← same.id]
  rcases same.role_or_run with role | ⟨r, role⟩
  · exact heeds (role ▸ tween)
  · rw [role] at tween
    cases tween

theorem Later.refl (w : World) : Later w w where
  nextFiber := Nat.le_refl _
  hasty := rfl
  stirs := .refl
  crew g hg := .inl ⟨g, hg, .refl g⟩
  entries := ⟨[], by simp, by simp⟩

theorem Later.trans (first : Later w w') (second : Later w' w'') : Later w w'' where
  nextFiber := Nat.le_trans first.nextFiber second.nextFiber
  hasty := second.hasty.trans first.hasty
  stirs := first.stirs.trans second.stirs
  crew := by
    intro h hh
    rcases second.crew h hh with ⟨g, hg, same'⟩ | ⟨young, b, b', before, within, after, hires⟩
    · rcases first.crew g hg with ⟨f, hf, same⟩ | ⟨young, b, b', before, within, after, hires⟩
      · exact .inl ⟨f, hf, same.trans same'⟩
      · exact .inr ⟨same'.id ▸ young,
          b, b', before, within, after.trans second.stirs, hires.same same'⟩
    · exact .inr ⟨Nat.le_trans first.nextFiber young,
        b, b', first.stirs.trans before, within, after, hires⟩
  entries := by
    obtain ⟨es, heq, hes⟩ := first.entries
    obtain ⟨es', heq', hes'⟩ := second.entries
    refine ⟨es ++ es', by rw [heq', heq, List.append_assoc], fun e he id author => ?_⟩
    rcases List.mem_append.mp he with he | he
    · exact hes e he id author
    rcases hes' e he id author with young | ⟨g, hg, same', tells⟩
    · exact .inl (Nat.le_trans first.nextFiber young)
    rcases first.crew g hg with ⟨f, hf, same⟩ | hired
    · refine .inr ⟨f, hf, same.id.trans same', fun heeds flag watches raised => ?_,
        fun target scope role => tells.tints target scope (same.role_of_tween role)⟩
      exact tells.ended (heeds.same same first.hasty) flag (same.watches watches)
        (first.stirs.grows.2 flag raised)
    · exact .inl (same' ▸ hired.id_ge)

theorem Tended.later (h : w.Tended) (later : Later w w') : w'.Tended where
  sound := later.stirs.sound h.sound
  tends := by
    intro g hg
    rcases later.crew g hg with ⟨f, hf, same⟩ | ⟨-, b, b', before, within, after, hires⟩
    · exact later.stirs.tends ((h.tends f hf).same same)
    · exact after.tends (hires.tends (before.sound h.sound) within)

/-! ### Work of the host -/

theorem Keeps.hired {run : Prop} (kept : Keeps run w w') :
    ∀ g ∈ w'.crew, g ∈ w.crew ∨ Hired w w' g := by
  obtain ⟨new, perm, -, joined⟩ := kept.crew
  intro g hg
  rcases List.mem_append.mp (perm.mem_iff.mp hg) with old | young
  · exact .inl old
  · exact .inr ⟨(joined g young).id_ge, (joined g young).hired⟩

theorem Keeps.later {run : Prop} (kept : Keeps run w w') (actor : w.actor = none) : Later w w' where
  nextFiber := kept.nextFiber
  hasty := kept.hasty
  stirs := kept.stirs
  crew g hg := (kept.hired g hg).imp_left fun old => ⟨g, old, .refl g⟩
  entries := by
    obtain ⟨es, heq, hes⟩ := kept.entries
    refine ⟨es, heq, fun e he id author => ?_⟩
    rw [(hes e he).1, actor] at author
    cases author

/-! ### Turns -/

def Tells (P : Deed → Prop) (w x : World) : Prop :=
  ∃ es : List Entry, x.entries = w.entries ++ es ∧ ∀ e ∈ es, P e.deed

section

variable {P Q : Deed → Prop} {x : World}

theorem tells_of_entries (same : x.entries = w.entries) : Tells P w x :=
  ⟨[], by simp [same], by simp⟩

theorem Tells.record (tells : Tells P w x) {d : Deed} (own : P d) : Tells P w (x.record d) := by
  obtain ⟨es, grown, told⟩ := tells
  refine ⟨es ++ [⟨x.actor, d⟩], ?_, fun e member => ?_⟩
  · rw [← List.append_assoc, ← grown]
    simp [entries, World.record]
  · rcases List.mem_append.mp member with member | member
    · exact told e member
    · obtain rfl := List.mem_singleton.mp member
      exact own

theorem Tells.mono (tells : Tells P w x) (weaker : ∀ d, P d → Q d) : Tells Q w x := by
  obtain ⟨es, grown, told⟩ := tells
  exact ⟨es, grown, fun e member => weaker e.deed (told e member)⟩

theorem tells_remark (same : x.entries = w.entries) (r : Remark) :
    Tells Deed.IsRemark w (x.remark r) :=
  (tells_of_entries same).record ⟨r, rfl⟩

end

theorem tells_conclude (w : World) (o : Outcome) {flag : Nat} (watches : f.watches = some flag) :
    Tells Deed.IsRemark w (w.conclude f o) := by
  have yielded : (w.yieldScene f).entries = w.entries := by
    unfold yieldScene
    split <;> rfl
  unfold conclude
  cases role : f.role with
  | tween =>
    cases o with
    | failed => exact tells_remark yielded _
    | completed | cancelled | panicked => exact tells_of_entries yielded
  | countdown => exact tells_of_entries yielded
  | run | fade | load =>
    rw [Fiber.watches, role] at watches
    cases watches

theorem tells_performCount (w : World) (f : Fiber) {timer : Nat} (due : Option Span) {t : Timer}
    (found : w.timers[timer]? = some t) (raised : w.flags.isRaised t.stop = true) :
    Tells Deed.IsRemark w (w.performCount f timer due) := by
  unfold performCount
  rw [found]
  dsimp only
  split
  · rw [timeOut, if_pos raised]
    exact tells_of_entries rfl
  · exact tells_remark rfl _

theorem tells_noteCancelled (w : World) (f : Fiber) : Tells Deed.IsRemark w (w.noteCancelled f) := by
  unfold noteCancelled
  split
  · exact tells_remark rfl _
  · exact tells_of_entries rfl

theorem isRaised_of_isCancelled {target : Target} {scope : Nat} (role : f.role = .tween target scope)
    (cancelled : w.isCancelled f = true) : w.flags.isRaised scope = true := by
  rw [isCancelled, role] at cancelled
  exact (Bool.and_eq_true_iff.mp cancelled).1

/-- Only a hasty tween goes on when its flag is up, and only as long as there are frames. -/
theorem hasty_of_going {target : Target} {scope : Nat} (role : f.role = .tween target scope)
    (raised : w.flags.isRaised scope = true) (going : w.isCancelled f = false) :
    w.hasty f.id = true ∧ w.starves f = false := by
  simpa [isCancelled, role, raised] using going

theorem Heeds.isCancelled (heeds : w.Heeds f) {flag : Nat} (watches : f.watches = some flag)
    (raised : w.flags.isRaised flag = true) (tween : f.role.isTween = true) :
    w.isCancelled f = true := by
  cases role : f.role with
  | tween target scope =>
    rw [Fiber.watches, role] at watches
    obtain rfl := Option.some.inj watches
    simp [World.isCancelled, role, raised, heeds tween]
  | _ =>
    rw [role] at tween
    cases tween

/-- A fiber whose flag is up. A tween has to look at it before it can be said to end. -/
theorem tells_ended (cancelled : f.role.isTween = true → w.isCancelled f = true) {flag : Nat}
    (watches : f.watches = some flag) (raised : w.flags.isRaised flag = true)
    (dutiful : f.Dutiful) (tends : w.backdrop.Tends f.role) :
    Tells Deed.IsRemark w (w.advance f) := by
  unfold advance
  split
  · exact tells_conclude w _ watches
  split
  · exact tells_noteCancelled w f
  rename_i going
  have flagged := watches
  cases role : f.role with
  | run | fade | load =>
    rw [Fiber.watches, role] at flagged
    cases flagged
  | tween target scope =>
    rw [role] at cancelled
    exact absurd (cancelled rfl) going
  | countdown timer stop =>
    rw [Fiber.watches, role] at flagged
    obtain rfl := Option.some.inj flagged
    rw [role] at tends
    obtain ⟨t, found, rfl⟩ := tends
    have duty : ∀ a ∈ f.todo, ∃ due, a = .count timer due := by
      intro a ha
      have allowed := dutiful (Fiber.isRun_of_watches watches) a ha
      rw [role] at allowed
      cases a with
      | count timer' due => exact ⟨due, by simpa [Role.allows] using allowed⟩
      | _ => cases allowed
    split
    · rw [fetch, role]
      exact tells_conclude w _ watches
    · exact tells_conclude w _ watches
    · rename_i a rest todo _
      obtain ⟨due, rfl⟩ := duty a (by simp [todo])
      exact tells_performCount w _ due found raised
    · rename_i a rest e todo _
      obtain ⟨due, rfl⟩ := duty a (by simp [todo])
      exact tells_of_entries rfl

section

variable {target : Target} {scope : Nat}

theorem tells_performSweep (w : World) (f : Fiber) {s : Sweep}
    (allowed : (Role.tween target scope).allows (.sweep s) = true) :
    Tells (Deed.Tints target) w (w.performSweep f s) := by
  cases paint : s.paint with
  | tint target' start stop =>
    obtain rfl : target' = target := by simpa [Role.allows, paint] using allowed
    have painted (color : Color) :
        Tells (Deed.Tints target') w (w.stage (.setColor target' color)) :=
      (tells_of_entries rfl).record (.inr (.inr ⟨color, rfl⟩))
    unfold performSweep
    rw [paint]
    split
    · exact painted _
    · exact painted _
  | _ => simp [Role.allows, paint] at allowed

theorem tells_performStride (w : World) (f : Fiber) (s : Sweep) {flag : Nat}
    (watches : f.watches = some flag) : Tells (Deed.Tints target) w (w.performStride f s) := by
  unfold performStride takeFrame
  split
  · exact tells_of_entries rfl
  · exact tells_of_entries rfl
  · rename_i fr c missed _
    have lagged : Tells (Deed.Tints target) w (w.lagged missed) := by
      unfold World.lagged
      split
      · exact tells_of_entries rfl
      · exact (tells_remark rfl _).mono fun d own => .inl own
    have took : Tells (Deed.Tints target) w ((w.lagged missed).record (.took fr)) :=
      lagged.record (.inr (.inl ⟨fr, rfl⟩))
    dsimp only
    split
    · exact took
    · have watches : (f.setCursor s.lane c).watches = some flag := by
        cases s.lane <;> exact watches
      obtain ⟨es, grown, told⟩ := took
      obtain ⟨es', grown', told'⟩ :=
        tells_conclude ((w.lagged missed).record (.took fr)) (.panicked overflowText) watches
      refine ⟨es ++ es', by rw [grown', grown, List.append_assoc], fun e member => ?_⟩
      exact (List.mem_append.mp member).elim (told e) fun member => .inl (told' e member)

/-- The turn of a tween. -/
theorem tells_tween (role : f.role = .tween target scope) (dutiful : f.Dutiful) :
    Tells (Deed.Tints target) w (w.advance f) := by
  have watches : f.watches = some scope := by rw [Fiber.watches, role]
  have ends (o : Outcome) : Tells (Deed.Tints target) w (w.conclude f o) :=
    (tells_conclude w o watches).mono fun d own => .inl own
  have duty : ∀ a ∈ f.todo, (Role.tween target scope).allows a = true := fun a member =>
    role ▸ dutiful (Fiber.isRun_of_watches watches) a member
  unfold advance
  split
  · exact ends _
  split
  · exact (tells_noteCancelled w f).mono fun d own => .inl own
  split
  · rw [fetch, role]
    exact ends _
  · exact ends _
  · rename_i a rest todo _
    have allowed := duty a (by simp [todo])
    cases a with
    | sweep s => exact tells_performSweep w _ allowed
    | stride s => exact tells_performStride w { f with todo := rest } s watches
    | _ => cases allowed
  · rename_i a rest e todo _
    have allowed := duty a (by simp [todo])
    cases a with
    | sweep | stride => exact tells_of_entries rfl
    | _ => cases allowed

end

theorem Fiber.Follows.same {f f' : Fiber} (h : f.Follows f') : f.calm.Same f'.calm where
  id := h.id.symm
  isRun := h.isRun.symm
  role := h.role

theorem Left.crew {x : World} (left : Left f w x) :
    (∀ g ∈ x.crew, g ∈ w.crew ∨ f.calm.Same g) ∧ x.entries = w.entries ∧
      x.backdrop = w.backdrop ∧ x.nextFiber = w.nextFiber ∧ x.hasty = w.hasty := by
  cases left with
  | gone => exact ⟨fun g hg => .inl hg, rfl, rfl, rfl, rfl⟩
  | @goes f' follows =>
    refine ⟨fun g hg => ?_, rfl, rfl, rfl, rfl⟩
    rcases List.mem_cons.mp hg with rfl | hg
    · exact .inr (Fiber.Follows.same follows)
    · exact .inl hg
  | @waits wait f' follows =>
    refine ⟨fun g hg => ?_, rfl, rfl, rfl, rfl⟩
    rcases List.mem_cons.mp ((crew_park w wait f').mem_iff.mp hg) with rfl | hg
    · exact .inr (Fiber.Follows.same follows)
    · exact .inl hg

theorem later_turn (order : w.InOrder) (tended : w.Tended) : Later w w.turn := by
  obtain ⟨-, same | ⟨f, rest, w₁, x, ready, kept, left, heq⟩⟩ :=
    turn_cases w order.crewed order.staged.attended
  · rw [same]
    exact .refl w
  obtain ⟨crew, entries, backdrop, nextFiber, hasty⟩ := left.crew
  have member := calm_mem_crew ready
  have told : w.turn.entries = ((w.taken f rest).advance f).entries := by
    rw [turn_cons ready]
    rfl
  rw [heq] at told ⊢
  refine ⟨Nat.le_trans kept.nextFiber (Nat.le_of_eq nextFiber.symm), hasty.trans kept.hasty, ?_,
    fun g hg => ?_, ?_⟩
  · show Backdrop.Stirs w.backdrop x.backdrop
    rw [backdrop]
    exact kept.stirs
  · rcases crew g hg with hg | same
    · rcases kept.hired g hg with old | ⟨young, b, b', before, within, after, hires⟩
      · refine .inl ⟨g, ?_, .refl g⟩
        simp only [World.crew, fibers, ready]
        exact List.mem_cons_of_mem _ old
      · refine .inr ⟨young, b, b', before, within, ?_, hires⟩
        show Backdrop.Stirs b' x.backdrop
        rw [backdrop]
        exact after
    · exact .inl ⟨f.calm, member, same⟩
  · obtain ⟨es, heq', authored⟩ := kept.entries
    have grown : x.entries = w.entries ++ es := entries.trans heq'
    have dutiful : f.Dutiful := order.crewed.dutiful f.calm member
    have tends : w.backdrop.Tends f.role := tended.tends f.calm member
    have among {P : Deed → Prop} (tells : Tells P (w.taken f rest) ((w.taken f rest).advance f)) :
        ∀ e ∈ es, P e.deed := by
      obtain ⟨es', told', own⟩ := tells
      have shared : w.entries ++ es = w.entries ++ es' := grown.symm.trans (told.trans told')
      exact List.append_cancel_left shared ▸ own
    refine ⟨es, grown, fun e he id author => .inr ⟨f.calm, member, ?_,
      fun heeds flag watches raised => ?_, fun target scope role => ?_⟩⟩
    · have author' := (authored e he).1
      rw [author] at author'
      exact (Option.some.inj author').symm
    · have heeds : (w.taken f rest).Heeds f := heeds
      have raised : (w.taken f rest).flags.isRaised flag = true := raised
      exact among (tells_ended (heeds.isCancelled watches raised) watches raised dutiful tends) e he
    · exact among (tells_tween role dutiful) e he

theorem keeps_of_isBrief (w : World) {s : HostStep} (brief : s.isBrief = true) :
    Keeps False w (w.apply s).1 := by
  by_cases cue : s.isCue = true
  · cases s with
    | execute n => exact keeps_executeNumber w n
    | select index => exact keeps_select w index
    | setChosen index => exact keeps_setChosen w index
    | _ => cases cue
  · exact keeps_brief w brief (by simpa using cue)

theorem Beat.later (beat : Beat w w') (order : w.InOrder) (tended : w.Tended) : Later w w' := by
  cases beat with
  | lull lull =>
    cases lull with
    | turn => exact later_turn order tended
    | publish delta keys =>
      have kept : Keeps True w (w.publish delta keys) := keeps_publish w delta keys
      exact kept.later order.actor
    | reach time =>
      have kept : Keeps True w (w.reach time) := keeps_reach w time
      exact kept.later order.actor
  | brief brief => exact (keeps_of_isBrief w brief).later order.actor

theorem Beats.later (beats : Beats w w') (order : w.InOrder) (tended : w.Tended) : Later w w' :=
  (order.along beats (.refl w) fun order' beat later =>
    later.trans (beat.later order' (tended.later later))).2

theorem tended_after (o : Opening) (ms : List Move) : (o.world.after ms).Tended := by
  have opened : o.world.Tended := by
    refine ⟨⟨?_, ?_, ?_⟩, ?_⟩
    · simp [backdrop, Opening.world, new, Flags.fresh, Flags.empty, Flags.size]
    · simp [backdrop, Opening.world, new]
    · simp [backdrop, Opening.world, new]
    · simp [crew, fibers, Opening.world, new]
  exact opened.later (Beats.later (beats_after o.world ms) (inOrder_opening o) opened)

/-! ### The end of the side effects -/

theorem flags_cancelSideEffects (w : World) (sound : w.backdrop.Sound) (flag : Nat) :
    w.cancelSideEffects.flags.isRaised flag = true ↔ w.flags.isRaised flag = true ∨
      flag = w.scope ∨ ∃ t, w.timers.back? = some t ∧ flag = t.stop := by
  have bound : w.scope < w.flags.size := sound.scope
  have renewed : (w.flags.fresh.1.raise w.scope).isRaised flag = true ↔
      w.flags.isRaised flag = true ∨ flag = w.scope := by
    by_cases same : flag = w.scope
    · have raised : (w.flags.fresh.1.raise w.scope).isRaised w.scope = true := by
        refine Flags.isRaised_raise_self ?_
        rw [Flags.size_fresh]
        omega
      simp [same, raised]
    · rw [Flags.isRaised_raise_ne (Ne.symm same), Flags.isRaised_fresh]
      simp [same]
  rw [← or_assoc, ← renewed]
  cases last : w.timers.back? with
  | none =>
    have flags : w.cancelSideEffects.flags = w.flags.fresh.1.raise w.scope := by
      show (World.stopCountdown _).flags = _
      rw [stopCountdown, show (w.freshScope.raise w.scope).timers.back? = none from last]
      rfl
    rw [flags]
    simp
  | some t =>
    have flags : w.cancelSideEffects.flags = (w.flags.fresh.1.raise w.scope).raise t.stop := by
      show (World.stopCountdown _).flags = _
      rw [stopCountdown, show (w.freshScope.raise w.scope).timers.back? = some t from last]
      rfl
    have stop : t.stop < w.flags.size := by
      rw [Array.back?_eq_getElem?] at last
      exact (sound.stops _ t last).1
    rw [flags]
    by_cases same : flag = t.stop
    · have raised : ((w.flags.fresh.1.raise w.scope).raise t.stop).isRaised t.stop = true := by
        refine Flags.isRaised_raise_self ?_
        rw [Flags.size_raise, Flags.size_fresh]
        omega
      simp [same, raised]
    · rw [Flags.isRaised_raise_ne (Ne.symm same)]
      simp [same]

theorem nextFiber_cancelSideEffects (w : World) : w.cancelSideEffects.nextFiber = w.nextFiber := by
  show (World.stopCountdown _).nextFiber = _
  unfold stopCountdown
  split <;> rfl

theorem backdrop_cancelSideEffects (w : World) : w.cancelSideEffects.backdrop.Since w.flags.size := by
  have began : (w.freshScope.raise w.scope).backdrop.Since w.flags.size := by
    refine ⟨?_, Nat.le_refl _⟩
    show w.flags.size ≤ (w.flags.fresh.1.raise w.scope).size
    rw [Flags.size_raise, Flags.size_fresh]
    exact Nat.le_succ _
  have kept : Keeps True (w.freshScope.raise w.scope) w.cancelSideEffects :=
    (keeps_stopCountdown _).trans (keeps_remark _ _)
  exact kept.stirs.since began

theorem Keeps.perm {run : Prop} (kept : Keeps run w w') (same : w'.nextFiber = w.nextFiber) :
    w'.crew.Perm w.crew := by
  obtain ⟨new, perm, -, joined⟩ := kept.crew
  have none : new = [] := by
    refine List.eq_nil_iff_forall_not_mem.mpr fun f hf => ?_
    have above := (joined f hf).id_ge
    have below := (joined f hf).id_lt
    omega
  rwa [none, List.append_nil] at perm

end World

/-- Between `w` and `w'` the fiber does nothing that effects do. -/
def Fiber.Silent (f : Fiber) (w w' : World) : Prop :=
  ∀ e ∈ w'.entries.drop w.entries.length, e.author = some f.id → e.deed.isEffect = false

/-- Between `w` and `w'` the fiber does nothing but remark on itself. -/
def Fiber.Remarks (f : Fiber) (w w' : World) : Prop :=
  ∀ e ∈ w'.entries.drop w.entries.length, e.author = some f.id → e.deed.IsRemark

theorem Fiber.Remarks.silent {f : Fiber} {w w' : World} (h : f.Remarks w w') : f.Silent w w' :=
  fun e member author => (h e member author).isEffect

theorem Fiber.Remarks.trans {f : Fiber} {w w' w'' : World} (first : f.Remarks w w')
    (grown : w.entries <+: w'.entries) (grown' : w'.entries <+: w''.entries)
    (second : f.Remarks w' w'') : f.Remarks w w'' := by
  obtain ⟨es, entries⟩ := grown
  obtain ⟨es', entries'⟩ := grown'
  intro e member
  rw [← entries', ← entries, List.append_assoc, List.drop_left] at member
  rcases List.mem_append.mp member with member | member
  · exact first e (by rwa [← entries, List.drop_left])
  · exact second e (by rwa [← entries', List.drop_left])

namespace World

variable {w w' : World} {f : Fiber}

theorem Hired.watches {n flag : Nat} (hired : Hired w w' f) (since : w.backdrop.Since n)
    (watches : f.watches = some flag) : n ≤ flag := by
  obtain ⟨-, b, b', before, -, -, hires⟩ := hired
  have since := before.since since
  cases role : f.role with
  | run | fade | load =>
    rw [Fiber.watches, role] at watches
    cases watches
  | tween target scope =>
    rw [Fiber.watches, role] at watches
    rw [role] at hires
    obtain rfl := Option.some.inj watches
    exact Nat.le_trans since.scope (Nat.le_of_eq (Eq.symm hires))
  | countdown timer stop =>
    rw [Fiber.watches, role] at watches
    rw [role] at hires
    obtain rfl := Option.some.inj watches
    exact Nat.le_trans since.flags (Nat.le_of_eq hires.2.1.symm)

theorem Later.drop (later : Later w w') : ∀ e ∈ w'.entries.drop w.entries.length,
    ∀ id, e.author = some id → w.nextFiber ≤ id ∨ ∃ f ∈ w.crew, f.id = id ∧ w.MayTell f e.deed := by
  obtain ⟨es, heq, told⟩ := later.entries
  rw [heq, List.drop_left]
  exact told

theorem Later.remarks (crewed : w.Crewed) (later : Later w w') (member : f.calm ∈ w.crew)
    (heeds : w.Heeds f) {flag : Nat} (watches : f.watches = some flag)
    (up : w.flags.isRaised flag = true) : f.Remarks w w' := by
  intro e he author
  have below : f.id < w.nextFiber := crewed.below f.calm member
  rcases later.drop e he f.id author with young | ⟨g, hg, id, tells⟩
  · omega
  · obtain rfl := crewed.eq_of_id hg member id
    exact tells.ended heeds flag watches up

theorem Later.grown (later : Later w w') : w.entries <+: w'.entries := by
  obtain ⟨es, grown, -⟩ := later.entries
  exact ⟨es, grown.symm⟩

/-- Whoever is gone does nothing at all. -/
theorem Later.remarks_of_gone (later : Later w w') (below : f.id < w.nextFiber)
    (gone : ∀ g ∈ w.crew, g.id ≠ f.id) : f.Remarks w w' := by
  intro e member author
  rcases later.drop e member f.id author with young | ⟨g, listed, same, -⟩
  · omega
  · exact absurd same (gone g listed)

theorem Tended.raised_countdown (h : w.Tended) (member : f ∈ w.fibers) {timer stop : Nat}
    (role : f.role = .countdown timer stop) : w.cancelSideEffects.flags.isRaised stop = true := by
  refine (flags_cancelSideEffects w h.sound stop).mpr ?_
  have tends := h.tends f.calm (List.mem_map_of_mem member)
  rw [Fiber.calm_role, role] at tends
  obtain ⟨t, found, rfl⟩ := tends
  have bound : timer < w.timers.size := (Array.getElem?_eq_some_iff.mp found).1
  by_cases last : timer + 1 = w.timers.size
  · refine .inr (.inr ⟨t, ?_, rfl⟩)
    rw [Array.back?_eq_getElem?, ← last]
    exact found
  · -- A countdown that another one followed was stopped by it.
    have inner : timer + 1 < w.timers.size := by omega
    exact .inl (h.sound.stopped timer t found inner)

theorem Tended.raised_tween (h : w.Tended) (member : f ∈ w.fibers) {target : Target} {scope : Nat}
    (role : f.role = .tween target scope) (cancelled : scope = w.scope ∨
      w.flags.isRaised scope = true ∨ w.settings.cancelStaleEffects = true) :
    w.cancelSideEffects.flags.isRaised scope = true := by
  refine (flags_cancelSideEffects w h.sound scope).mpr ?_
  have tends := h.tends f.calm (List.mem_map_of_mem member)
  rw [Fiber.calm_role, role] at tends
  rcases cancelled with here | up | strict
  · exact .inr (.inl here)
  · exact .inl up
  · rcases tends.2.2 strict with here | up
    · exact .inr (.inl here)
    · exact .inl up

theorem Tended.passed_tween (h : w.Tended) (member : f ∈ w.fibers) {target : Target} {scope : Nat}
    (role : f.role = .tween target scope) (other : scope ≠ w.scope)
    (down : w.flags.isRaised scope = false) :
    w.cancelSideEffects.flags.isRaised scope = false := by
  have tends := h.tends f.calm (List.mem_map_of_mem member)
  rw [Fiber.calm_role, role] at tends
  refine Bool.eq_false_iff.mpr fun up => ?_
  rcases (flags_cancelSideEffects w h.sound scope).mp up with up | here | ⟨t, last, same⟩
  · rw [down] at up
    cases up
  · exact other here
  · rw [Array.back?_eq_getElem?] at last
    exact tends.2.1 _ t last same.symm

/-- Flags that were not there before the call are not raised by it. -/
theorem Tended.spared (h : w.Tended) {flag : Nat} (new : w.flags.size ≤ flag) :
    w.cancelSideEffects.flags.isRaised flag = false := by
  refine Bool.eq_false_iff.mpr fun up => ?_
  rcases (flags_cancelSideEffects w h.sound flag).mp up with up | here | ⟨t, last, same⟩
  · have old := Flags.lt_of_isRaised up
    omega
  · have old : w.scope < w.flags.size := h.sound.scope
    omega
  · rw [Array.back?_eq_getElem?] at last
    have old : t.stop < w.flags.size := (h.sound.stops _ t last).1
    omega

end World

end SceneScript
