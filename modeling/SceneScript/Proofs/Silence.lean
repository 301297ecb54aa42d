import SceneScript.Proofs.Halting
import SceneScript.Proofs.Vigil
/-!
Silence after the end of the side effects. Whoever was cancelled ends at its next turn, but a hasty
tween takes the frames that are there first. It is silent if there are none (`remarks_of_starves`), and
gone once everybody waits (`gone_of_rest`). A tween of an earlier scope that nobody cancelled is passed
over.
-/

namespace SceneScript

namespace Feed

variable {feed feed' : Feed} {c : Cursor}

theorem pull_of_count_le (kept : feed.sources ≠ 0) (read : feed.count ≤ c.taken) :
    feed.pull c = .waiting := by
  have none : feed.frames[max c.taken (feed.frames.size - feed.depth)]? = none :=
    Array.getElem?_eq_none (Nat.le_trans read (Nat.le_max_left _ _))
  unfold pull
  dsimp only
  rw [none]
  exact if_neg kept

theorem place_of_count (same : feed'.count = feed.count) (f : Fiber) (lane : Lane) :
    f.place feed' lane = f.place feed lane := by
  have subscribed : feed'.subscribe = feed.subscribe := congrArg Cursor.mk same
  rw [Fiber.place, Fiber.place, subscribed]

end Feed

namespace World

variable {w x : World} {f g : Fiber} {target : Target} {scope : Nat}

/-! ### Tweens without frames -/

theorem starves_iff : w.starves f = true ↔
    ∃ s after, f.todo = .stride s :: after ∧ w.feed.pull (f.place w.feed s.lane) = .waiting := by
  constructor
  · intro starves
    unfold World.starves at starves
    split at starves
    · rename_i s after todo
      refine ⟨s, after, todo, ?_⟩
      split at starves
      · assumption
      · cases starves
    · cases starves
  · rintro ⟨s, after, todo, waiting⟩
    have waiting : w.feed.pull ((f.cursorOn s.lane).getD w.feed.subscribe) = .waiting := waiting
    rw [starves, todo]
    simp only [waiting]

/-- As long as no frame comes, the fiber has none to take. -/
theorem starves_still (deep : 0 < w.feed.depth) (kept : x.feed.sources ≠ 0)
    (still : x.feed.count = w.feed.count) (calm : g.calm = f.calm) (starves : w.starves f = true) :
    x.starves g = true := by
  obtain ⟨s, after, todo, waiting⟩ := starves_iff.mp starves
  have place : g.place x.feed s.lane = f.place w.feed s.lane := by
    have same : g.calm.place x.feed s.lane = f.calm.place x.feed s.lane := by rw [calm]
    exact same.trans (Feed.place_of_count still f s.lane)
  refine starves_iff.mpr ⟨s, after, ?_, ?_⟩
  · have same : g.calm.todo = f.calm.todo := congrArg Fiber.todo calm
    exact same.trans todo
  · rw [place]
    exact Feed.pull_of_count_le kept (still ▸ Feed.count_le_of_waiting deep waiting)

/-- A tween that waits has taken every frame. -/
theorem starves_of_parked {b : Parked} (halted : b.Halted w.feed) (kept : w.feed.sources ≠ 0)
    (dutiful : b.fiber.Dutiful) (role : b.fiber.role = .tween target scope) :
    w.starves b.fiber = true := by
  obtain ⟨a, after, todo, halts⟩ := halted.stands
  have watches : b.fiber.watches = some scope := by rw [Fiber.watches, role]
  have allowed := dutiful (Fiber.isRun_of_watches watches) a (by simp [todo])
  rw [role] at allowed
  cases a with
  | stride s =>
    have frame : b.wait = .frame := by
      cases wait : b.wait <;> first | rfl | rw [wait] at halts; cases halts
    refine starves_iff.mpr ⟨s, after, todo, Feed.pull_of_count_le kept ?_⟩
    unfold Fiber.place
    cases stands : b.fiber.cursorOn s.lane with
    | none => exact Nat.le_refl _
    | some c => exact halted.read frame s.lane (by rw [todo]; rfl) c stands
  | sweep =>
    cases wait : b.wait <;> rw [wait] at halts <;> cases halts
  | _ => cases allowed

theorem gone_of_cancelled (order : w.InOrder) {rest : List Fiber} (ready : w.ready = f :: rest)
    (role : f.role = .tween target scope) (cancelled : w.isCancelled f = true) :
    ∀ g ∈ w.turn.crew, g.id ≠ f.id := by
  obtain ⟨-, fresh, below⟩ := order.crewed.taken ready
  have cancelled : (w.taken f rest).isCancelled f = true := cancelled
  have kept : Keeps False (w.taken f rest) ((w.taken f rest).advance f) := by
    unfold advance
    rw [if_pos cancelled]
    split
    · exact keeps_conclude_any _ f _
    rw [noteCancelled, role]
    exact keeps_remark _ _
  intro g among same
  rw [turn_cons ready] at among
  exact fresh_of_keeps kept fresh below (List.mem_map.mpr ⟨g, among, same⟩)

end World

/-- What a fiber tells besides its remarks. -/
def Deed.plain? : Deed → Option Deed
  | .remark _ => none
  | d => some d

theorem Deed.IsRemark.plain? {d : Deed} (h : d.IsRemark) : d.plain? = none := by
  obtain ⟨r, rfl⟩ := h
  rfl

theorem Deed.isRemark_of_plain? {d : Deed} (h : d.plain? = none) : d.IsRemark := by
  cases d with
  | remark r => exact ⟨r, rfl⟩
  | _ => cases h

namespace World

variable {w x : World} {f g : Fiber} {target : Target} {scope : Nat} {p : Pulse}

theorem remarks_of_tale (grown : w.entries <+: x.entries)
    (same : tale Deed.plain? f.id x.entries = tale Deed.plain? f.id w.entries) : f.Remarks w x := by
  obtain ⟨es, entries⟩ := grown
  have none : tale Deed.plain? f.id es = [] := by
    rw [← entries, tale_append] at same
    exact List.append_right_eq_self.mp same
  intro e member author
  rw [← entries, List.drop_left] at member
  have silent := List.filterMap_eq_nil_iff.mp none e member
  rw [if_pos author] at silent
  exact Deed.isRemark_of_plain? silent

/-- The tween was cancelled with no frame to take. Whatever takes place but that no frame comes, it
stands where it stood, or it is gone. -/
structure Starved (w : World) (f : Fiber) (x : World) : Prop where
  stands : ∀ g ∈ x.hands, g.id = f.id → g.calm = f.calm
  told : tale Deed.plain? f.id x.entries = tale Deed.plain? f.id w.entries

theorem Starved.pulse (h : Starved w f x) (play : x.InPlay) (deep : 0 < w.feed.depth)
    (below : f.id < x.nextFiber) (role : f.role = .tween target scope)
    (raised : x.flags.isRaised scope = true) (starves : w.starves f = true)
    (still : x.feed.count = w.feed.count) (p : Pulse) : Starved w f (x.pulse p) := by
  by_cases own : x.OwnTurn p f.id
  · obtain ⟨rfl, g, head, same⟩ := own
    obtain ⟨rest, ready⟩ := List.head?_eq_some_iff.mp head
    have calm := h.stands g (mem_hands_of_ready ready) same
    have role' : g.role = .tween target scope := (Fiber.fields_of_calm calm).2.1.trans role
    have watches : g.watches = some scope := by rw [Fiber.watches, role']
    have kept : x.feed.sources ≠ 0 := Nat.ne_of_gt play.screened.sources_pos
    have cancelled : x.isCancelled g = true := by
      simp [isCancelled, role', raised, starves_still deep kept still calm starves]
    refine ⟨fun k among same' => ?_, ?_⟩
    · have gone := gone_of_cancelled play.order ready role' cancelled k.calm
        (List.mem_map_of_mem (mem_hands.mp among))
      exact absurd (same'.trans same.symm) gone
    · have member := calm_mem_crew ready
      obtain ⟨es, grown, told⟩ := tells_ended (w := x.taken g rest) (f := g) (fun _ => cancelled)
        watches raised (play.order.crewed.dutiful g.calm member) (play.tended.tends g.calm member)
      have entries : (x.pulse .turn).entries = x.entries ++ es := by
        rw [World.pulse, turn_cons ready]
        exact grown
      rw [entries, tale_append_none fun e member _ => (told e member).plain?]
      exact h.told
  · refine ⟨fun k among same => ?_, (tale_pulse play own).trans h.told⟩
    obtain ⟨g, among', calm⟩ := calm_of_mem_hands_pulse play among (same ▸ below) (same ▸ own)
    have id : g.id = k.id := (Fiber.fields_of_calm calm).1
    exact calm.symm.trans (h.stands g among' (id.trans same))

theorem starved_pulses (play : w.InPlay) (deep : 0 < w.feed.depth) (among : f ∈ w.hands)
    (role : f.role = .tween target scope) (raised : w.flags.isRaised scope = true)
    (starves : w.starves f = true) (ps : List Pulse)
    (still : (w.pulses ps).feed.count = w.feed.count) : Starved w f (w.pulses ps) := by
  have start : Starved w f w :=
    ⟨fun g among' same => congrArg Fiber.calm (play.order.eq_of_hands among' among same), rfl⟩
  refine play.induction (P := fun _ x => Later w x ∧ (x.feed.count = w.feed.count → Starved w f x))
    ⟨.refl w, fun _ => start⟩ (fun ps p play' h => ?_) ps |>.2 still
  obtain ⟨later, starved⟩ := h
  refine ⟨later.trans ((beat_pulse _ p).later play'.order play'.tended), fun still => ?_⟩
  have grown := (play.grows_pulses ps).count_le
  have grows := (play'.grows p).count_le
  have still' : (w.pulses ps).feed.count = w.feed.count := by omega
  have below : f.id < (w.pulses ps).nextFiber :=
    Nat.lt_of_lt_of_le (play.order.below_hands f among) later.nextFiber
  exact (starved still').pulse play' deep below role (later.stirs.grows.2 scope raised) starves
    still' p

/-- A tween that was cancelled with no frame to take only remarks on it until a frame comes. -/
theorem remarks_of_starves (play : w.InPlay) (deep : 0 < w.feed.depth) (among : f ∈ w.hands)
    (role : f.role = .tween target scope) (raised : w.flags.isRaised scope = true)
    (starves : w.starves f = true) (ps : List Pulse)
    (still : (w.pulses ps).feed.count = w.feed.count) : f.Remarks w (w.pulses ps) :=
  remarks_of_tale (play.later ps).grown
    (starved_pulses play deep among role raised starves ps still).told

/-- The same of a tween that waited before the host raised its flag. -/
theorem remarks_of_parked (play : w.InPlay) (deep : 0 < w.feed.depth) (halted : w.Halted)
    (waits : ∃ b ∈ w.blocked, b.fiber = f) (role : f.role = .tween target scope) (after : x.InPlay)
    (feed : x.feed = w.feed) (listed : f.calm ∈ x.crew) (raised : x.flags.isRaised scope = true)
    (ps : List Pulse) (still : (x.pulses ps).feed.count = x.feed.count) :
    f.Remarks x (x.pulses ps) := by
  obtain ⟨b, among, rfl⟩ := waits
  have crew : b.fiber.calm ∈ w.crew :=
    List.mem_map_of_mem (List.mem_append_right _ (List.mem_map_of_mem among))
  have starves := starves_of_parked (halted b among) (Nat.ne_of_gt play.screened.sources_pos)
    (play.order.crewed.dutiful b.fiber.calm crew) role
  obtain ⟨g, among', calm⟩ := List.mem_map.mp listed
  obtain ⟨id, role', -⟩ := Fiber.fields_of_calm calm
  have starves : x.starves g = true := starves_still deep
    (Nat.ne_of_gt after.screened.sources_pos) (congrArg Feed.count feed) calm starves
  have remarks := remarks_of_starves after (feed ▸ deep) (mem_hands.mpr among')
    (role'.trans role) raised starves ps still
  exact fun e told author => remarks e told (id ▸ author)

/-- Once everybody waits, whoever watches a flag that is up is gone. -/
theorem gone_of_rest (later : Later w x) (alert : x.Alert) (rest : x.ready = [])
    (crewed : w.Crewed) (member : f.calm ∈ w.crew) {flag : Nat} (watches : f.watches = some flag)
    (raised : w.flags.isRaised flag = true) : ∀ g ∈ x.crew, g.id ≠ f.id := by
  intro g listed same
  have parked : ∃ b ∈ x.blocked, b.fiber.calm = g := by
    obtain ⟨k, among, rfl⟩ := List.mem_map.mp listed
    rw [fibers, rest, List.nil_append] at among
    obtain ⟨b, waits, rfl⟩ := List.mem_map.mp among
    exact ⟨b, waits, rfl⟩
  obtain ⟨b, among, rfl⟩ := parked
  rcases later.crew _ listed with ⟨k, old, before⟩ | hired
  · obtain rfl := crewed.eq_of_id old member (before.id.trans same)
    have watches : b.fiber.watches = some flag := before.watches watches
    have down := alert b among flag watches
    have up : x.flags.isRaised flag = true := later.stirs.grows.2 flag raised
    rw [up] at down
    cases down
  · have below : f.id < w.nextFiber := crewed.below f.calm member
    have young : w.nextFiber ≤ b.fiber.id := hired.id_ge
    have same : b.fiber.id = f.id := same
    omega

/-! ### The end of the side effects -/

end World

/-- How a tween that was cancelled between `w` and `w₀` comes to its end. -/
structure Fiber.Ceases (f : Fiber) (w w₀ w₁ w' : World) : Prop where
  /-- It does nothing more if it looks at its scope first. -/
  heeding : w.hasty f.id = false → f.Silent w₀ w'
  /-- It does nothing more if it waited, and everybody waits again before the next frame. -/
  starving : (∃ b ∈ w.blocked, b.fiber = f) → w₁.feed.count = w.feed.count → w₁.ready = [] →
    f.Silent w₀ w'
  /-- However hasty it is, it does nothing more once everybody waits. -/
  resting : w₁.ready = [] → f.Silent w₁ w'

/-- What the host has silenced in `w`, with `w₀` the world right after it, `w₁` any later one and `w'`
any one after that. -/
structure World.Silenced (w w₀ w₁ w' : World) : Prop where
  countdowns : ∀ f ∈ w.fibers, ∀ timer stop, f.role = .countdown timer stop → f.Silent w₀ w'
  tweens : ∀ f ∈ w.fibers, ∀ target scope, f.role = .tween target scope →
    scope = w.scope ∨ w.flags.isRaised scope = true ∨ w.settings.cancelStaleEffects = true →
      f.Ceases w w₀ w₁ w'
  /-- A tween of another scope is not cancelled. -/
  passed : ∀ f ∈ w.fibers, ∀ target scope, f.role = .tween target scope → scope ≠ w.scope →
    w.flags.isRaised scope = false → w₀.flags.isRaised scope = false
  ended : ∀ e ∈ w'.entries.drop w₀.entries.length, ∀ id < w.nextFiber, e.author = some id →
    ∃ f ∈ w.fibers, f.id = id
  /-- Whoever joins later watches a flag that there was not before, and that was not raised. -/
  spared : ∀ f ∈ w'.fibers, w.nextFiber ≤ f.id → ∀ flag, f.watches = some flag →
    w.flags.size ≤ flag ∧ w₀.flags.isRaised flag = false

namespace World

variable {w w₁ w' : World} {f : Fiber}

/-- A tween that the host cancels. -/
theorem ceases (onTime : w.OnTime) (halted : w.Halted) (deep : 0 < w.feed.depth) {target : Target}
    {scope : Nat} (member : f ∈ w.fibers) (role : f.role = .tween target scope)
    (raised : w.cancelSideEffects.flags.isRaised scope = true)
    (pulsed : Pulsed w.cancelSideEffects w₁) (alert : w₁.Alert) (later : Later w₁ w') :
    f.Ceases w w.cancelSideEffects w₁ w' := by
  have play₀ : w.cancelSideEffects.InPlay := onTime.play.pulse (.host .cancelSideEffects rfl)
  have kept : Keeps True w w.cancelSideEffects := keeps_cancelSideEffects w
  have watches : f.watches = some scope := by rw [Fiber.watches, role]
  have perm := kept.perm (nextFiber_cancelSideEffects w)
  have listed : f.calm ∈ w.cancelSideEffects.crew :=
    perm.mem_iff.mpr (List.mem_map_of_mem member)
  obtain ⟨ps, rfl⟩ := pulsed
  have before := play₀.later ps
  have below : f.id < w.cancelSideEffects.nextFiber := play₀.order.crewed.below f.calm listed
  have resting (rest : (w.cancelSideEffects.pulses ps).ready = []) :
      f.Remarks (w.cancelSideEffects.pulses ps) w' := by
    have gone := gone_of_rest before alert rest play₀.order.crewed listed watches raised
    exact later.remarks_of_gone (Nat.lt_of_lt_of_le below before.nextFiber) gone
  refine ⟨fun heeding => ?_, fun waits still rest => ?_, fun rest => (resting rest).silent⟩
  · have heeds : w.cancelSideEffects.Heeds f := fun _ => by rw [kept.hasty, heeding]
    exact ((before.trans later).remarks play₀.order.crewed listed heeds watches raised).silent
  · have feed : w.cancelSideEffects.feed = w.feed :=
      congrArg Curtain.feed (curtain_brief w (s := .cancelSideEffects) rfl (by simp))
    have remarks := remarks_of_parked onTime.play deep halted waits role play₀ feed listed raised ps
      (still.trans (congrArg Feed.count feed).symm)
    exact (remarks.trans before.grown later.grown (resting rest)).silent

theorem silenced_of_later (onTime : w.OnTime) (halted : w.Halted) (deep : 0 < w.feed.depth)
    (pulsed : Pulsed w.cancelSideEffects w₁) (alert : w₁.Alert) (later : Later w₁ w') :
    Silenced w w.cancelSideEffects w₁ w' := by
  have order : w.InOrder := onTime.play.order
  have tended : w.Tended := onTime.play.tended
  have play₀ : w.cancelSideEffects.InPlay := onTime.play.pulse (.host .cancelSideEffects rfl)
  have kept : Keeps True w w.cancelSideEffects := keeps_cancelSideEffects w
  have crewed := order.crewed.keeps kept
  have nextFiber := nextFiber_cancelSideEffects w
  have perm := kept.perm nextFiber
  have all : Later w.cancelSideEffects w' := by
    obtain ⟨ps, rfl⟩ := pulsed
    exact (play₀.later ps).trans later
  refine ⟨?_, ?_, ?_, ?_, ?_⟩
  · intro f hf timer stop role
    have watches : f.watches = some stop := by rw [Fiber.watches, role]
    have heeds : w.cancelSideEffects.Heeds f := fun tween => by
      rw [role] at tween
      cases tween
    exact (all.remarks crewed (perm.mem_iff.mpr (List.mem_map_of_mem hf)) heeds watches
      (tended.raised_countdown hf role)).silent
  · intro f hf target scope role cancelled
    exact ceases onTime halted deep hf role (tended.raised_tween hf role cancelled) pulsed alert later
  · intro f hf target scope role
    exact tended.passed_tween hf role
  · intro e he id below author
    rcases all.drop e he id author with young | ⟨g, hg, same, -⟩
    · omega
    · obtain ⟨f, hf, rfl⟩ := List.mem_map.mp (perm.mem_iff.mp hg)
      exact ⟨f, hf, same⟩
  · intro f hf young flag watches
    have new : w.flags.size ≤ flag := by
      rcases all.crew f.calm (List.mem_map_of_mem hf) with ⟨g, hg, same⟩ | hired
      · have below := order.crewed.below g (perm.mem_iff.mp hg)
        have id : g.id = f.id := same.id
        omega
      · exact hired.watches (backdrop_cancelSideEffects w) watches
    exact ⟨new, tended.spared new⟩

/-- The end of the side effects silences every countdown, and every tween of the scope that the next
tween would join, but a hasty one only once it has taken the frames that are there. Tweens of earlier
scopes it passes over, unless runs cancel the effects of the run before them. Whatever joins later it
leaves alone. -/
theorem cancelSideEffects_silences (o : Opening) (before between after : List Move) :
    let w := o.world.after before
    let w₀ := (w.apply .cancelSideEffects).1
    let w₁ := w₀.after between
    Silenced w w₀ w₁ (w₁.after after) := by
  intro w w₀ w₁
  have onTime : w.OnTime := onTime_after o before
  have onTime₀ : w₀.OnTime := onTime.along (.single w (.host .cancelSideEffects rfl))
  have pulsed : Pulsed w₀ w₁ := pulsed_after onTime₀ between
  have play₁ := (onTime₀.along pulsed).play
  have later : Later w₁ (w₁.after after) :=
    Beats.later (beats_after w₁ after) play₁.order play₁.tended
  have alert : w₁.Alert := by
    have all := alert_after o (before ++ .host .cancelSideEffects :: between)
    rwa [World.after, List.foldl_append] at all
  obtain ⟨ps, same⟩ := pulses_after o before
  have halted : w.Halted := by
    rw [show w = o.world.pulses ps from same.symm]
    exact halted_pulses o ps
  have deep : 0 < w.feed.depth := by
    rw [show w = o.world.pulses ps from same.symm]
    exact depth_pulses o ps
  exact silenced_of_later onTime halted deep pulsed alert later

/-- Where runs leave the effects of the run before them alone, a tween of the first run paints on,
whatever the host asks for during the second. -/
theorem cancelSideEffects_passes_over :
    let o : Opening := ⟨{ (default : Settings) with cancelStaleEffects := false }, default, 8, default,
      default, [[.image 0 none ⟨1000⟩ default default], [.log "next"]]⟩
    let w := o.world.after (.host (.execute 0) :: List.replicate 9 .turn ++
      .host (.execute 1) :: List.replicate 9 .turn)
    let w₀ := (w.apply .cancelSideEffects).1
    let w' := w₀.after (.host (.burst [(⟨1⟩, .nothing)]) :: List.replicate 3 .turn)
    ∃ f ∈ w.fibers, (∃ target scope, f.role = .tween target scope) ∧ ¬ f.Silent w₀ w' := by
  intro o w w₀ w'
  have paints : (w.fibers.any fun f => f.role.isTween &&
      (w'.entries.drop w₀.entries.length).any fun e =>
        e.author == some f.id && e.deed.isEffect) = true := by
    decide +kernel
  obtain ⟨f, hf, paints⟩ := List.any_eq_true.mp paints
  obtain ⟨role, paints⟩ := Bool.and_eq_true_iff.mp paints
  obtain ⟨e, he, paints⟩ := List.any_eq_true.mp paints
  obtain ⟨author, effect⟩ := Bool.and_eq_true_iff.mp paints
  refine ⟨f, hf, ?_, fun silent => ?_⟩
  · cases h : f.role with
    | tween target scope => exact ⟨target, scope, rfl⟩
    | _ => simp [h, Role.isTween] at role
  · have none := silent e he (by simpa using author)
    rw [effect] at none
    cases none

end World

end SceneScript
