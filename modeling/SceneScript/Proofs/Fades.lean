import SceneScript.Proofs.Work
/-!
The fibers of fades. Whoever holds the slot of a channel is a fiber that fades it and was not told to
stop, and every such fiber holds its slot (`Manned`). What its turn does is listed once
(`fade_turn`).
-/

namespace SceneScript

/-! ### Acts of fibers in the background -/

/-- Acts that only fades and countdowns have to do. -/
def Act.isHired : Act → Bool
  | .sweep s | .stride s =>
    match s.paint with
    | .volume _ => true
    | _ => false
  | .silence _ | .count .. => true
  | _ => false

theorem Act.isHired_of_puts {a : Act} {new : List Act} (puts : a.Puts new) (free : a.isHired = false) :
    ∀ b ∈ new, b.isHired = false := by
  cases a with
  | count | silence => cases free
  | finish an =>
    rcases puts with rfl | rfl
    · simp
    · simpa using free
  | sweep s =>
    rcases puts with rfl | ⟨-, rfl⟩
    · simp
    · simpa [isHired] using free
  | stride s =>
    rcases puts with rfl | ⟨s', of, rfl⟩
    · simpa using free
    · simpa [isHired, of.paint] using free
  | reveal r =>
    rcases puts with rfl | ⟨-, call, span, rfl⟩
    · simp
    · simp [isHired, Sweep.pause, Sweep.start]
  | confirm | enterScene =>
    rcases puts with rfl | rfl <;> simp [isHired]
  | offer options =>
    obtain ⟨receiver, rfl⟩ := puts
    simp [opening, Command.animate, isHired]
  | answer receiver options =>
    rcases puts with rfl | ⟨index, rfl⟩ <;> simp [isHired]
  | chosen =>
    obtain rfl := puts
    simp [closing, Command.animate, isHired]
  | branch =>
    rcases puts with rfl | rfl <;> simp [isHired]
  | switch =>
    obtain ⟨label, rfl⟩ := puts
    simp [isHired]
  | load job =>
    rcases puts with rfl | rfl
    · simp
    · unfold SceneJob.acts
      split <;> simp [isHired, Sweep.start]
  | clearBoard =>
    obtain ⟨color, start, stop, span, rfl⟩ := puts
    simp [isHired, Sweep.start]
  | _ =>
    obtain rfl := puts
    simp

theorem Command.isHired_acts (c : Command) (settings : Settings) (page : Page) :
    ∀ a ∈ c.acts settings page, a.isHired = false := by
  have free : (c.acts settings page).any Act.isHired = false := by
    cases c with
    | boxState opening => cases opening <;> rfl
    | image layer texture => cases texture <;> rfl
    | portrait place texture => cases texture <;> rfl
    | _ => rfl
  intro a member
  by_contra hired
  exact Bool.eq_false_iff.mp free (List.any_eq_true.mpr ⟨a, member, by simpa using hired⟩)

/-! ### Fades -/

/-- What a fade has left to do. -/
inductive Fading (channel : Channel) : List Act → Prop where
  | sweeps {s : Sweep} : s.paint = .volume channel → s.lane = .own →
      Fading channel [.sweep s, .silence channel]
  | strides {s : Sweep} : s.paint = .volume channel → s.lane = .own →
      Fading channel [.stride s, .silence channel]
  | silences : Fading channel [.silence channel]
  | spent : Fading channel []

/-- The fiber fades a channel, holds its slot, and leaves it silenced when it is done. -/
structure Fiber.Fades (f : Fiber) (b : Backstage) (channel : Channel) : Prop where
  slot : b.mixer.fades.get channel = some f.id
  looping : channel.isLooping = true
  fault : f.fault = none
  acts : Fading channel f.todo
  spent : f.todo = [] → (b.mixer.strips.get channel).volume = Strip.fullVolume ∧
    (b.mixer.strips.get channel).playing = false

/-- Fibers that are told to stop from outside. -/
def Role.mayFall : Role → Bool
  | .run _ | .load _ | .fade _ => true
  | _ => false

def Role.isFade : Role → Bool
  | .fade _ => true
  | _ => false

structure Backstage.Manned (b : Backstage) : Prop where
  ids : (b.hands.map (·.id)).Nodup
  slots : ∀ c id, b.mixer.fades.get c = some id →
    ∃ f ∈ b.hands, f.id = id ∧ f.role = .fade c ∧ f.doomed = false
  fades : ∀ f ∈ b.hands, ∀ c, f.role = .fade c → f.doomed = false → f.Fades b c
  fallen : ∀ f ∈ b.hands, f.doomed = true → f.role.mayFall = true
  hired : ∀ f ∈ b.hands, f.isRun = true → ∀ a ∈ f.todo, a.isHired = false

namespace Backstage

variable {b b' : Backstage} {f g : Fiber} {c : Channel}

theorem Manned.eq_of_id (h : b.Manned) (member : f ∈ b.hands) (member' : g ∈ b.hands)
    (same : f.id = g.id) : f = g :=
  Multiset.inj_on_of_nodup_map h.ids f member g member' same

theorem Manned.still (h : b.Manned) (mixer : b'.mixer = b.mixer) (hands : b'.hands = b.hands) :
    b'.Manned where
  ids := hands ▸ h.ids
  slots := by rw [mixer, hands]; exact h.slots
  fades f member c role spared := by
    have fades := h.fades f (hands ▸ member) c role spared
    exact { fades with slot := mixer ▸ fades.slot, spent := mixer ▸ fades.spent }
  fallen := hands ▸ h.fallen
  hired := hands ▸ h.hired

theorem Manned.join (h : b.Manned) (fresh : ∀ g ∈ b.hands, g.id ≠ f.id) (role : f.role.isFade = false)
    (fallen : f.doomed = true → f.role.mayFall = true)
    (hired : f.isRun = true → ∀ a ∈ f.todo, a.isHired = false) : (b.join f).Manned where
  ids := by
    show ((f ::ₘ b.hands).map (·.id)).Nodup
    rw [Multiset.map_cons, Multiset.nodup_cons]
    refine ⟨fun member => ?_, h.ids⟩
    obtain ⟨g, member, same⟩ := Multiset.mem_map.mp member
    exact fresh g member same
  slots c id slot := by
    obtain ⟨g, member, rest⟩ := h.slots c id slot
    exact ⟨g, Multiset.mem_cons_of_mem member, rest⟩
  fades g member c role' spared := by
    rcases Multiset.mem_cons.mp member with rfl | member
    · rw [role'] at role
      cases role
    · have fades := h.fades g member c role' spared
      exact ⟨fades.slot, fades.looping, fades.fault, fades.acts, fades.spent⟩
  fallen g member := by
    rcases Multiset.mem_cons.mp member with rfl | member
    · exact fallen
    · exact h.fallen g member
  hired g member := by
    rcases Multiset.mem_cons.mp member with rfl | member
    · exact hired
    · exact h.hired g member

theorem Manned.fresh (h : (b.join f).Manned) : ∀ g ∈ b.hands, g.id ≠ f.id :=
  fresh_of_nodup h.ids

theorem Manned.leave (h : (b.join f).Manned) (other : ∀ c, f.role = .fade c → f.doomed = true) :
    b.Manned where
  ids := by
    have ids := h.ids
    rw [show (b.join f).hands = f ::ₘ b.hands from rfl, Multiset.map_cons, Multiset.nodup_cons] at ids
    exact ids.2
  slots c id slot := by
    obtain ⟨g, member, same, role, spared⟩ := h.slots c id slot
    rcases Multiset.mem_cons.mp member with rfl | member
    · rw [other c role] at spared
      cases spared
    · exact ⟨g, member, same, role, spared⟩
  fades g member c role spared := by
    have fades := h.fades g (Multiset.mem_cons_of_mem member) c role spared
    exact ⟨fades.slot, fades.looping, fades.fault, fades.acts, fades.spent⟩
  fallen g member := h.fallen g (Multiset.mem_cons_of_mem member)
  hired g member := h.hired g (Multiset.mem_cons_of_mem member)

theorem doom_of_ne {id : Nat} (other : f.id ≠ id) : World.doom id f = f := if_neg other

theorem doom_self (f : Fiber) : World.doom f.id f = { f with doomed := true } := if_pos rfl

theorem doom_fields (id : Nat) (f : Fiber) : (World.doom id f).id = f.id ∧
    (World.doom id f).role = f.role ∧ (World.doom id f).todo = f.todo ∧
      (f.doomed = true → (World.doom id f).doomed = true) := by
  unfold World.doom
  split <;> simp

/-- A fiber is told to stop, and holds no slot any more. -/
theorem Manned.dooms (h : b.Manned) {id : Nat} (mixer : Mixer)
    (falls : ∀ g ∈ b.hands, g.id = id → g.role.mayFall = true)
    (strips : mixer.strips = b.mixer.strips)
    (left : ∀ c n, mixer.fades.get c = some n ↔ b.mixer.fades.get c = some n ∧ n ≠ id) :
    ({ b with mixer }.doom id).Manned := by
  have hands {g : Fiber} (member : g ∈ ({ b with mixer }.doom id).hands) :
      ∃ f ∈ b.hands, g.role = f.role ∧ g.todo = f.todo ∧ (f.id = id ∨ g = f) := by
    obtain ⟨f, among, rfl⟩ := Multiset.mem_map.mp member
    obtain ⟨-, role, todo, -⟩ := doom_fields id f
    by_cases same : f.id = id
    · exact ⟨f, among, role, todo, .inl same⟩
    · exact ⟨f, among, role, todo, .inr (doom_of_ne same)⟩
  refine ⟨?_, fun c n slot => ?_, fun g member c role spared => ?_, fun g member doomed => ?_,
    fun g member run => ?_⟩
  · have same : ((b.hands.map (World.doom id)).map (·.id)) = b.hands.map (·.id) := by
      rw [Multiset.map_map]
      exact Multiset.map_congr rfl fun g _ => (doom_fields id g).1
    exact same ▸ h.ids
  · obtain ⟨held, other⟩ := (left c n).mp slot
    obtain ⟨f, among, same, rest⟩ := h.slots c n held
    exact ⟨f, Multiset.mem_map.mpr ⟨f, among, doom_of_ne (same ▸ other)⟩, same, rest⟩
  · obtain ⟨f, among, rfl⟩ := Multiset.mem_map.mp member
    by_cases same : f.id = id
    · rw [← same, doom_self] at spared
      cases spared
    rw [doom_of_ne same] at role spared ⊢
    have fades := h.fades f among c role spared
    refine ⟨(left c f.id).mpr ⟨fades.slot, same⟩, fades.looping, fades.fault, fades.acts, ?_⟩
    show _ → (mixer.strips.get c).volume = _ ∧ (mixer.strips.get c).playing = _
    rw [strips]
    exact fades.spent
  · obtain ⟨f, among, role, -, same | rfl⟩ := hands member
    · exact role ▸ falls f among same
    · exact h.fallen g among doomed
  · obtain ⟨f, among, role, todo, -⟩ := hands member
    rw [Fiber.isRun, Fiber.run?, role] at run
    exact todo ▸ h.hired f among run

/-- A run or a load is told to stop. -/
theorem Manned.doom (h : b.Manned) {id : Nat}
    (apart : ∀ g ∈ b.hands, g.id = id → g.role.mayFall = true ∧ g.role.isFade = false) :
    (b.doom id).Manned := by
  refine h.dooms b.mixer (fun g member same => (apart g member same).1) rfl fun c n => ?_
  refine ⟨fun slot => ⟨slot, ?_⟩, And.left⟩
  rintro rfl
  obtain ⟨f, among, same, role, -⟩ := h.slots c n slot
  have none := (apart f among same).2
  rw [role] at none
  cases none

theorem get_setFade (m : Mixer) (c d : Channel) (task : Option Nat) :
    (m.setFade c task).fades.get d = if d = c then task else m.fades.get d := by
  show (m.fades.set c task).get d = _
  split
  · rename_i same
    rw [same, Bank.get_set_self]
  · rename_i other
    exact Bank.get_set_ne _ _ other

theorem fades_cancel (b : Backstage) (c d : Channel) :
    (b.cancel c).mixer.fades.get d = if d = c then none else b.mixer.fades.get d := by
  unfold cancel
  cases slot : b.mixer.fades.get c with
  | none =>
    dsimp only
    split
    · rename_i same
      rw [same, slot]
    · rfl
  | some id => exact get_setFade b.mixer c d none

theorem strips_cancel (b : Backstage) (c : Channel) :
    (b.cancel c).mixer.strips = b.mixer.strips := by
  unfold cancel
  split <;> rfl

/-- The fade of a channel, if any, is told to stop and loses its slot. -/
theorem Manned.cancel (h : b.Manned) (c : Channel) : (b.cancel c).Manned := by
  unfold Backstage.cancel
  cases slot : b.mixer.fades.get c with
  | none => exact h
  | some id =>
    obtain ⟨f, member, rfl, role, -⟩ := h.slots c id slot
    refine h.dooms (b.mixer.setFade c none) (fun g among same => ?_) rfl fun d n => ?_
    · obtain rfl := h.eq_of_id among member same
      rw [role]
      rfl
    rw [get_setFade]
    by_cases same : d = c
    · subst same
      simp [slot, eq_comm]
    · rw [if_neg same]
      refine ⟨fun held => ⟨held, ?_⟩, And.left⟩
      rintro rfl
      obtain ⟨g, among, id, role', -⟩ := h.slots d _ held
      obtain rfl := h.eq_of_id among member id
      rw [role] at role'
      cases role'
      exact same rfl

theorem Manned.modifyStrip (h : b.Manned) (t : Strip → Strip)
    (free : b.mixer.fades.get c = none) : (b.modifyStrip c t).Manned where
  ids := h.ids
  slots := h.slots
  fades f member d role spared := by
    have fades := h.fades f member d role spared
    have other : d ≠ c := by
      rintro rfl
      rw [fades.slot] at free
      cases free
    refine ⟨fades.slot, fades.looping, fades.fault, fades.acts, fun spent => ?_⟩
    have strip : (b.mixer.strips.modify c t).get d = b.mixer.strips.get d :=
      Bank.get_set_ne _ _ other
    show ((b.mixer.strips.modify c t).get d).volume = _ ∧
      ((b.mixer.strips.modify c t).get d).playing = _
    rw [strip]
    exact fades.spent spent
  fallen := h.fallen
  hired := h.hired

theorem Manned.write (h : b.Manned) (e : Entry) : (b.write e).Manned := h.still rfl rfl

/-- A fiber joins that fades a channel. -/
theorem Manned.start (h : b.Manned) {n : Nat} (free : b.mixer.fades.get c = none)
    (looping : c.isLooping = true) (fresh : ∀ g ∈ b.hands, g.id ≠ n) (role : f.role = .fade c)
    (id : f.id = n) (spared : f.doomed = false) (fault : f.fault = none) (acts : Fading c f.todo)
    (going : f.todo ≠ []) : ((b.setFade c (some n)).join f).Manned := by
  have slots (d : Channel) : ((b.setFade c (some n)).join f).mixer.fades.get d =
      if d = c then some n else b.mixer.fades.get d := get_setFade b.mixer c d (some n)
  refine ⟨?_, fun d m held => ?_, fun g among d role' spared' => ?_, fun g among doomed => ?_,
    fun g among run => ?_⟩
  · show ((f ::ₘ b.hands).map (·.id)).Nodup
    rw [Multiset.map_cons, Multiset.nodup_cons, id]
    refine ⟨fun member => ?_, h.ids⟩
    obtain ⟨g, member, same⟩ := Multiset.mem_map.mp member
    exact fresh g member same
  · rw [slots] at held
    split at held
    · rename_i same
      subst same
      exact ⟨f, Multiset.mem_cons_self f _, id.trans (Option.some.inj held), role, spared⟩
    · obtain ⟨g, member, rest⟩ := h.slots d m held
      exact ⟨g, Multiset.mem_cons_of_mem member, rest⟩
  · rcases Multiset.mem_cons.mp among with rfl | among
    · rw [role] at role'
      cases role'
      exact ⟨by rw [slots, if_pos rfl, id], looping, fault, acts, fun spent => absurd spent going⟩
    · have fades := h.fades g among d role' spared'
      have other : d ≠ c := by
        rintro rfl
        rw [fades.slot] at free
        cases free
      exact ⟨by rw [slots, if_neg other]; exact fades.slot, fades.looping, fades.fault, fades.acts,
        fades.spent⟩
  · rcases Multiset.mem_cons.mp among with rfl | among
    · rw [role]
      rfl
    · exact h.fallen g among doomed
  · rcases Multiset.mem_cons.mp among with rfl | among
    · rw [Fiber.isRun, Fiber.run?, role] at run
      cases run
    · exact h.hired g among run

/-- A fiber that fades a channel goes on. -/
theorem Manned.goesOn (h : (b.join f).Manned) (role : f.role = .fade c) (spared : f.doomed = false)
    {f' : Fiber} (id : f'.id = f.id) (role' : f'.role = f.role) (doomed : f'.doomed = f.doomed)
    (fault : f'.fault = f.fault) (acts : Fading c f'.todo) (fades : b'.mixer.fades = b.mixer.fades)
    (hands : b'.hands = b.hands)
    (strips : ∀ d, d ≠ c → b'.mixer.strips.get d = b.mixer.strips.get d)
    (spent : f'.todo = [] → (b'.mixer.strips.get c).volume = Strip.fullVolume ∧
      (b'.mixer.strips.get c).playing = false) : (b'.join f').Manned := by
  have own := h.fades f (Multiset.mem_cons_self f _) c role spared
  have fresh := h.fresh
  have back {g : Fiber} (among : g ∈ (b'.join f').hands) : g = f' ∨ g ∈ b.hands :=
    (Multiset.mem_cons.mp among).imp_right fun among => hands ▸ among
  refine ⟨?_, fun d n held => ?_, fun g among d role'' spared' => ?_, fun g among doomed' => ?_,
    fun g among run => ?_⟩
  · show ((f' ::ₘ b'.hands).map (·.id)).Nodup
    have ids : ((f ::ₘ b.hands).map (·.id)).Nodup := h.ids
    rw [Multiset.map_cons] at ids ⊢
    rw [id, hands]
    exact ids
  · have held : b.mixer.fades.get d = some n := fades ▸ held
    obtain ⟨g, among, same, rest⟩ := h.slots d n held
    rcases Multiset.mem_cons.mp among with rfl | among
    · exact ⟨f', Multiset.mem_cons_self f' _, id.trans same, role'.trans rest.1,
        doomed.trans rest.2⟩
    · exact ⟨g, Multiset.mem_cons_of_mem (hands.symm ▸ among), same, rest⟩
  · rcases back among with rfl | among
    · obtain rfl : c = d := by
        rw [role', role] at role''
        exact Role.fade.inj role''
      refine ⟨?_, own.looping, fault.trans own.fault, acts, spent⟩
      rw [id, ← own.slot]
      exact congrArg (·.get c) fades
    · have other := h.fades g (Multiset.mem_cons_of_mem among) d role'' spared'
      have apart : d ≠ c := by
        rintro rfl
        have same := other.slot.symm.trans own.slot
        exact fresh g among (Option.some.inj same)
      refine ⟨(congrArg (·.get d) fades).trans other.slot, other.looping, other.fault, other.acts, ?_⟩
      show _ → (b'.mixer.strips.get d).volume = _ ∧ (b'.mixer.strips.get d).playing = _
      rw [strips d apart]
      exact other.spent
  · rcases back among with rfl | among
    · rw [doomed, spared] at doomed'
      cases doomed'
    · exact h.fallen g (Multiset.mem_cons_of_mem among) doomed'
  · rcases back among with rfl | among
    · rw [Fiber.isRun, Fiber.run?, role', role] at run
      cases run
    · exact h.hired g (Multiset.mem_cons_of_mem among) run

/-- A fiber that fades a channel is gone, and its slot is free. -/
theorem Manned.goes (h : (b.join f).Manned) (role : f.role = .fade c) (spared : f.doomed = false) :
    (b.setFade c none).Manned := by
  have own := h.fades f (Multiset.mem_cons_self f _) c role spared
  refine ⟨?_, fun d n held => ?_, fun g among d role' spared' => ?_,
    fun g among => h.fallen g (Multiset.mem_cons_of_mem among),
    fun g among => h.hired g (Multiset.mem_cons_of_mem among)⟩
  · have ids : ((f ::ₘ b.hands).map (·.id)).Nodup := h.ids
    rw [Multiset.map_cons, Multiset.nodup_cons] at ids
    exact ids.2
  · have held : (b.mixer.setFade c none).fades.get d = some n := held
    rw [get_setFade] at held
    split at held
    · cases held
    rename_i apart
    obtain ⟨g, among, same, role', spared'⟩ := h.slots d n held
    rcases Multiset.mem_cons.mp among with rfl | among
    · rw [role] at role'
      exact absurd (Role.fade.inj role').symm apart
    · exact ⟨g, among, same, role', spared'⟩
  · have other := h.fades g (Multiset.mem_cons_of_mem among) d role' spared'
    have apart : d ≠ c := by
      rintro rfl
      have same := other.slot.symm.trans own.slot
      exact h.fresh g among (Option.some.inj same)
    refine ⟨?_, other.looping, other.fault, other.acts, other.spent⟩
    show (b.mixer.setFade c none).fades.get d = _
    rw [get_setFade, if_neg apart]
    exact other.slot

/-- Channels that layer their clips have no fade. -/
theorem Manned.free (h : b.Manned) (layers : c.isLooping = false) :
    b.mixer.fades.get c = none := by
  cases slot : b.mixer.fades.get c with
  | none => rfl
  | some id =>
    obtain ⟨f, among, -, role, spared⟩ := h.slots c id slot
    have looping := (h.fades f among c role spared).looping
    rw [layers] at looping
    cases looping

end Backstage

/-! ### The turn of a fade -/

theorem Sweep.take?_fields {s s' : Sweep} {fr : Frame} (taken : s.take? fr = some s') : s'.Of s :=
  Sweep.Of.take ⟨rfl, rfl, rfl⟩ taken

def Strip.dim (t : Strip) (share : Float32) : Strip :=
  { t with volume := fullVolume * (1 - share) }

namespace World

variable {w x : World} {f f' : Fiber} {c : Channel}

/-- What a fade does when it goes on, with `w` as it was without its fiber. -/
inductive FadeStep (w : World) (f : Fiber) (c : Channel) : Backstage → Fiber → Prop where
  | dims {s : Sweep} : f.todo = [.sweep s, .silence c] → s.elapsed < s.span →
      FadeStep w f c (w.backstage.modifyStrip c (·.dim s.share))
        { f with todo := [.stride s, .silence c] }
  | due {s : Sweep} : f.todo = [.sweep s, .silence c] → ¬ s.elapsed < s.span →
      FadeStep w f c w.backstage
        { f with todo := [.silence c], pressed := f.pressed.merge s.pressed }
  | takes {s s' : Sweep} {fr : Frame} {cu : Cursor} {missed : Nat} :
      f.todo = [.stride s, .silence c] → w.feed.pull (f.place w.feed .own) = .frame fr cu missed →
      s.take? fr = some s' →
      FadeStep w f c (w.backstage.write ⟨w.actor, .took fr⟩)
        { f with cursor := some cu, todo := [.sweep s', .silence c] }
  | silences : f.todo = [.silence c] →
      FadeStep w f c ((w.backstage.modifyStrip c Strip.stop).write
        ⟨w.actor, .sound (.fadedOut c)⟩) { f with todo := [] }

/-- What the turn of a fade makes of it. -/
inductive FadeTurn (w : World) (f : Fiber) (c : Channel) (x : World) : Prop where
  | goes {b : Backstage} {f' : Fiber} : FadeStep w f c b f' → x.ready = f' :: w.ready →
      x.blocked = w.blocked → x.backstage = b.join f' → FadeTurn w f c x
  | waits {s : Sweep} : f.todo = [.stride s, .silence c] →
      w.feed.pull (f.place w.feed .own) = .waiting → x.ready = w.ready →
      x.blocked = w.blocked ++ [⟨.frame, f⟩] → x.backstage = w.backstage.join f → FadeTurn w f c x
  /-- The time of the fade overflows: the fiber falls, and the channel stays as it is. -/
  | bursts {s : Sweep} {fr : Frame} {cu : Cursor} {missed : Nat} :
      f.todo = [.stride s, .silence c] → w.feed.pull (f.place w.feed .own) = .frame fr cu missed →
      s.take? fr = none → x.fibers = w.fibers →
      x.backstage = (w.backstage.write ⟨w.actor, .took fr⟩).setFade c none → FadeTurn w f c x
  | ends : f.todo = [] → x.fibers = w.fibers → x.backstage = w.backstage.setFade c none →
      FadeTurn w f c x

theorem backstage_conclude_fade (w : World) (o : Outcome) (role : f.role = .fade c)
    (slot : w.mixer.fades.get c = some f.id) :
    (w.conclude f o).backstage = w.backstage.setFade c none := by
  rw [backstage_conclude, Backstage.yield, role]
  exact if_pos slot

theorem fibers_conclude_fade (w : World) (o : Outcome) (role : f.role = .fade c) :
    (w.conclude f o).fibers = w.fibers := by
  have yielded : (w.yieldScene f).fibers = w.fibers := by
    unfold yieldScene
    split <;> rfl
  unfold conclude
  rw [role]
  dsimp only
  split
  · exact yielded
  · exact yielded

/-- The fade takes a frame, or waits for one. -/
theorem stride_fade {s : Sweep} (role : f.role = .fade c) (slot : w.mixer.fades.get c = some f.id)
    (todo : f.todo = [.stride s, .silence c]) (lane : s.lane = .own) (sources : 0 < w.feed.sources) :
    FadeTurn w f c (w.performStride { f with todo := [.silence c] } s) := by
  have place : (f.place w.feed .own) =
      (({ f with todo := [.silence c] } : Fiber).cursorOn s.lane).getD w.feed.subscribe := by
    rw [lane]
    rfl
  have same : Fiber.first { f with todo := [.silence c] } [.stride s] = f := by
    show { f with todo := [.stride s, .silence c] } = f
    rw [← todo]
  unfold performStride takeFrame
  rw [← place]
  split
  · rename_i waiting
    rw [same]
    exact .waits todo waiting rfl rfl (backstage_park _ _ _)
  · rename_i closed
    exact absurd closed (Feed.pull_ne_closed _ sources)
  · rename_i fr cu missed pulled
    have took : ((w.lagged missed).record (.took fr)).backstage =
        w.backstage.write ⟨w.actor, .took fr⟩ := backstage_took w missed fr
    have kept : ((w.lagged missed).record (.took fr)).ready = w.ready ∧
        ((w.lagged missed).record (.took fr)).blocked = w.blocked ∧
        ((w.lagged missed).record (.took fr)).mixer = w.mixer := by
      unfold lagged
      split <;> exact ⟨rfl, rfl, rfl⟩
    generalize (w.lagged missed).record (.took fr) = w₁ at took kept
    dsimp only
    split
    · rename_i s' taken
      refine .goes (.takes todo pulled taken) ?_ kept.2.1 ?_
      · rw [lane]
        exact congrArg (_ :: ·) kept.1
      · rw [backstage_resume, took, lane]
        rfl
    · rename_i overflow
      have role' : (Fiber.setCursor { f with todo := [.silence c] } s.lane cu).role = .fade c := by
        rw [lane]
        exact role
      refine .bursts todo pulled overflow ?_ ?_
      · rw [fibers_conclude_fade _ _ role', fibers, kept.1, kept.2.1]
        rfl
      · rw [backstage_conclude_fade _ _ role', took]
        rw [kept.2.2, lane]
        exact slot

theorem advance_fade (role : f.role = .fade c) (spared : f.doomed = false)
    (slot : w.mixer.fades.get c = some f.id) (fault : f.fault = none) (acts : Fading c f.todo)
    (sources : 0 < w.feed.sources) : FadeTurn w f c (w.advance f) := by
  have going : w.isCancelled f = false := by rw [isCancelled, role]
  generalize todo : f.todo = left at acts
  cases acts with
  | @sweeps s paint lane =>
    rw [advance_perform spared going todo fault, perform]
    unfold performSweep
    split
    · rename_i going
      rw [paint]
      exact .goes (.dims todo going) rfl rfl rfl
    · rename_i spent
      rw [paint]
      exact .goes (.due todo spent) rfl rfl rfl
  | @strides s paint lane =>
    rw [advance_perform spared going todo fault, perform]
    exact stride_fade role slot todo lane sources
  | silences =>
    rw [advance_perform spared going todo fault, perform]
    refine .goes (.silences todo) rfl rfl ?_
    rw [backstage_resume, backstage_silence]
  | spent =>
    have fetched : w.advance f = w.conclude f .completed := by
      unfold advance
      rw [if_neg (by simp [spared]), if_neg (by simp [going]), todo, fault]
      dsimp only
      rw [fetch, role]
    refine .ends todo ?_ ?_
    · exact fetched ▸ fibers_conclude_fade w .completed role
    · exact fetched ▸ backstage_conclude_fade w .completed role slot

/-! ### Work of other fibers -/

theorem ids_cancel (b : Backstage) (c : Channel) :
    (b.cancel c).hands.map (·.id) = b.hands.map (·.id) := by
  unfold Backstage.cancel
  split
  · rename_i id _
    show (b.hands.map (World.doom id)).map (·.id) = _
    rw [Multiset.map_map]
    exact Multiset.map_congr rfl fun g _ => (Backstage.doom_fields id g).1
  · rfl

theorem fades_cancel_self (b : Backstage) (c : Channel) :
    (b.cancel c).mixer.fades.get c = none := by
  rw [Backstage.fades_cancel, if_pos rfl]

theorem backstage_work_sweep (w : World) {s : Sweep} (free : (Act.sweep s).isHired = false) :
    (w.work (.sweep s)).backstage = w.backstage := by
  show (if s.elapsed < s.span then w.paint s.share s.paint else w).backstage = _
  split
  · cases paint : s.paint with
    | nothing => rfl
    | tint => exact backstage_stage w _
    | board => exact backstage_setBoard w _
    | volume => simp [Act.isHired, paint] at free
  · rfl

section

variable (h : w.backstage.Manned)
include h

theorem manned_play (channel : Channel) (clip : Clip) (pitch : Float32) :
    (w.play channel clip pitch).backstage.Manned := by
  rw [backstage_play]
  split
  · refine Backstage.Manned.write ?_ _
    cases looping : channel.isLooping with
    | true => exact (h.cancel channel).modifyStrip _ (fades_cancel_self _ channel)
    | false => exact h.modifyStrip _ (h.free looping)
  · exact h

theorem manned_stopChannel (channel : Channel) : (w.stopChannel channel).backstage.Manned := by
  rw [backstage_stopChannel]
  exact (h.cancel channel).modifyStrip _ (fades_cancel_self _ channel)

variable (below : ∀ g ∈ w.hands, g.id < w.nextFiber)
include below

theorem manned_fadeOut (channel : Channel) (span : Span) :
    (w.fadeOut channel span).1.backstage.Manned := by
  have free := fades_cancel_self w.backstage channel
  rw [backstage_fadeOut]
  split
  · rename_i mixed
    have looping : channel.isLooping = true := (Bool.and_eq_true_iff.mp mixed).2
    split
    · refine (h.cancel channel).start free looping (fun g among => ?_) rfl rfl rfl rfl
        (.sweeps rfl rfl) (by simp [Fiber.start])
      have listed : g.id ∈ (w.backstage.cancel channel).hands.map (·.id) :=
        Multiset.mem_map_of_mem _ among
      rw [ids_cancel] at listed
      obtain ⟨g', among', same⟩ := Multiset.mem_map.mp listed
      have old := below g' among'
      omega
    · exact ((h.cancel channel).modifyStrip _ free).write _
  · exact h

theorem manned_spawn (role : Role) (cursor : Option Cursor) (todo : List Act)
    (other : role.isFade = false) (idle : ∀ r, role ≠ .run r) :
    (w.spawn role cursor todo).backstage.Manned := by
  rw [backstage_spawn]
  refine h.join (fun g among => Nat.ne_of_lt (below g among)) other (by simp [Fiber.start])
    fun run => ?_
  obtain ⟨r, same⟩ := (Fiber.isRun_iff _).mp run
  exact absurd same (idle r)

/-- The work of an act that no fade and no countdown does. -/
theorem manned_work {a : Act} (free : a.isHired = false ∨ ∃ timer due, a = .count timer due) :
    (w.work a).backstage.Manned := by
  cases a with
  | sweep s =>
    rw [backstage_work_sweep w (by simpa using free)]
    exact h
  | tween => exact manned_spawn h below _ _ _ rfl (by simp)
  | play channel clip pitch => exact manned_play h channel clip pitch
  | hush channel span => exact manned_fadeOut h below channel span
  | hushMusic span => exact manned_fadeOut h below .bgm span
  | silence => simp [Act.isHired] at free
  | timer c =>
    show (w.startCountdown c).backstage.Manned
    rw [backstage_startCountdown]
    refine Backstage.Manned.join (h.still rfl rfl) (fun g among => Nat.ne_of_lt (below g among)) rfl
      (by simp [Fiber.start]) fun run => ?_
    cases run
  | stopTimer => exact backstage_stopCountdown w ▸ h.still rfl rfl
  | count timer due => exact backstage_countDown w timer due ▸ h.still rfl rfl
  | _ => exact h

end

/-! ### Every pulse -/

/-- Acts of fades are done by the fibers of fades alone. -/
theorem free_of_not_fade (dutiful : f.Dutiful)
    (hired : f.isRun = true → ∀ a ∈ f.todo, a.isHired = false)
    (other : f.role.isFade = false) {a : Act} (member : a ∈ f.todo) :
    a.isHired = false ∨ ∃ timer due, a = .count timer due := by
  cases run : f.isRun with
  | true => exact .inl (hired run a member)
  | false =>
    have allowed := dutiful run a member
    cases role : f.role with
    | run r => simp [Fiber.isRun, Fiber.run?, role] at run
    | fade c =>
      rw [role] at other
      cases other
    | tween target scope =>
      rw [role] at allowed
      cases a with
      | sweep s | stride s =>
        cases paint : s.paint <;> simp_all [Role.allows, Act.isHired]
      | _ => cases allowed
    | countdown timer stop =>
      rw [role] at allowed
      cases a with
      | count => exact .inr ⟨_, _, rfl⟩
      | _ => cases allowed
    | load number =>
      rw [role] at allowed
      cases a with
      | sweep s | stride s =>
        cases paint : s.paint <;> simp_all [Role.allows, Act.isScenic, Act.isHired]
      | silence | count => cases allowed
      | _ => exact .inl rfl

theorem yield_of_not_fade (b : Backstage) (other : f.role.isFade = false) : b.yield f = b := by
  unfold Backstage.yield
  split
  · rename_i role
    rw [role] at other
    cases other
  · rfl

theorem amend_of_free {a : Act} (w : World)
    (free : a.isHired = false ∨ ∃ timer due, a = .count timer due) : w.amend a = w := by
  cases a with
  | silence => simp [Act.isHired] at free
  | _ => rfl

theorem manned_taken (h : w.backstage.Manned) {rest : List Fiber} (ready : w.ready = f :: rest) :
    ((w.taken f rest).backstage.join f).Manned :=
  backstage_taken ready ▸ h

theorem isFade_of_role {f' : Fiber} (other : f.role.isFade = false)
    (role : f.isRun = false → f'.role = f.role) (run : f'.isRun = f.isRun) :
    f'.role.isFade = false := by
  cases h : f.isRun with
  | false => rwa [role h]
  | true =>
    obtain ⟨r, same⟩ := (Fiber.isRun_iff f').mp (run.trans h)
    rw [same]
    rfl

/-- A script that goes on has no acts of fades or of countdowns to do. -/
theorem hired_of_onward {a : Act} {after : List Act} {f' : Fiber}
    (onward : a.Onward { f with todo := after } f') (todo : f.todo = a :: after)
    (hired : f.isRun = true → ∀ b ∈ f.todo, b.isHired = false) (run : f'.isRun = true) :
    ∀ b ∈ f'.todo, b.isHired = false := by
  intro b member
  have run : f.isRun = true := onward.isRun ▸ run
  have later (member : b ∈ after) : b.isHired = false := hired run b (by simp [todo, member])
  rcases onward.goes with ⟨-, new, todo', puts⟩ | ⟨-, todo'⟩
  · rw [todo'] at member
    rcases List.mem_append.mp member with member | member
    · exact Act.isHired_of_puts puts (hired run a (by simp [todo])) b member
    · exact later member
  · rw [todo'] at member
    exact later member

/-- The turn of a fiber that fades no channel. -/
theorem manned_turn_other (order : w.InOrder) (h : w.backstage.Manned) {rest : List Fiber}
    (ready : w.ready = f :: rest) (other : f.role.isFade = false) : w.turn.backstage.Manned := by
  have among : f ∈ w.hands := mem_hands_of_ready ready
  have hired := h.hired f among
  have free {a : Act} : a ∈ f.todo → _ :=
    free_of_not_fade (dutiful_hands order among) hired other (a := a)
  have left : (w.taken f rest).backstage.Manned := (manned_taken h ready).leave fun c role => by
    rw [role] at other
    cases other
  have below : ∀ g ∈ (w.taken f rest).hands, g.id < (w.taken f rest).nextFiber := fun g member =>
    order.below_hands g (mem_hands_of_taken ready member)
  -- The identifiers tell that the fiber comes back to a stage without it.
  have back {b : Backstage} {f' : Fiber} (worked : b.Manned) (same : w.turn.backstage = b.join f')
      (role : f'.role.isFade = false) (spared : f'.doomed = false)
      (hired : f'.isRun = true → ∀ a ∈ f'.todo, a.isHired = false) : w.turn.backstage.Manned := by
    have order' : w.turn.InOrder := order.beat (.lull (.turn w))
    rw [same]
    exact worked.join (order'.fresh_join same) role (by simp [spared]) hired
  cases turn_turns order ready with
  | ends _ same => exact (same.trans (yield_of_not_fade _ other)) ▸ left
  | @fetches r c f' _ spared role todo fault id spared' run acts fault' cursor same =>
    refine back left same (isFade_of_role other (fun idle => ?_) ?_) spared' fun _ a member => ?_
    · rw [Fiber.isRun, Fiber.run?, role] at idle
      cases idle
    · rw [run, Fiber.isRun, Fiber.run?, role]
      rfl
    · rw [acts] at member
      exact c.isHired_acts _ _ a member
  | @works a after _ spared todo fault works =>
    have onwards {f' : Fiber} (onward : a.Onward { f with todo := after } f') :
        f'.role.isFade = false ∧ f'.doomed = false ∧
          (f'.isRun = true → ∀ b ∈ f'.todo, b.isHired = false) :=
      ⟨isFade_of_role other onward.role onward.isRun, onward.doomed.trans spared,
        hired_of_onward onward todo hired⟩
    cases works with
    | goes f' onward cursor same =>
      obtain ⟨role, spared', hired'⟩ := onwards onward
      exact back (manned_work left below (free (by simp [todo]))) same role spared' hired'
    | takes f' lane pulled onward cursor same =>
      obtain ⟨role, spared', hired'⟩ := onwards onward
      exact back (left.write _) same role spared' hired'
    | bursts act pulled overflow same =>
      rw [same.trans (yield_of_not_fade _ other)]
      exact left.write _
    | falls told same => exact (same.trans (yield_of_not_fade _ other)) ▸ left
  | @unwinds a after e f' _ spared todo fault id spared' role todo' fault' cursor same =>
    rw [amend_of_free _ (free (by simp [todo]))] at same
    refine back left same (role ▸ other) spared' fun run b member => ?_
    rw [Fiber.isRun, Fiber.run?, role] at run
    rw [todo'] at member
    exact hired run b (by simp [todo, member])

/-- The turn of a fiber that fades a channel. -/
theorem turn_fade (sources : 0 < w.feed.sources) (h : w.backstage.Manned)
    {rest : List Fiber} (ready : w.ready = f :: rest) (role : f.role = .fade c)
    (spared : f.doomed = false) : FadeTurn (w.taken f rest) f c w.turn := by
  have among : f ∈ w.hands := mem_hands_of_ready ready
  have own := h.fades f among c role spared
  have turned := advance_fade (w := w.taken f rest) role spared own.slot own.fault own.acts sources
  rw [turn_cons ready]
  generalize (w.taken f rest).advance f = x at turned
  cases turned with
  | goes step ready blocked same => exact .goes step ready blocked same
  | waits todo pulled ready blocked same => exact .waits todo pulled ready blocked same
  | bursts todo pulled overflow fibers same => exact .bursts todo pulled overflow fibers same
  | ends todo fibers same => exact .ends todo fibers same

theorem FadeStep.hands {b : Backstage} (step : FadeStep w f c b f') : b.hands = w.hands := by
  cases step <;> rfl

theorem FadeStep.fields {b : Backstage} (step : FadeStep w f c b f') : f'.id = f.id ∧
    f'.role = f.role ∧ f'.doomed = f.doomed ∧ f'.fault = f.fault := by
  cases step <;> exact ⟨rfl, rfl, rfl, rfl⟩

theorem manned_turn_fade (sources : 0 < w.feed.sources) (h : w.backstage.Manned)
    {rest : List Fiber} (ready : w.ready = f :: rest) (role : f.role = .fade c)
    (spared : f.doomed = false) : w.turn.backstage.Manned := by
  have among : f ∈ w.hands := mem_hands_of_ready ready
  have own := h.fades f among c role spared
  have joined := manned_taken h ready
  cases turn_fade sources h ready role spared with
  | goes step _ _ same =>
    rw [same]
    obtain ⟨id, role', doomed, fault⟩ := step.fields
    have acts := own.acts
    have strips {d : Channel} {t : Strip → Strip} (other : d ≠ c) :
        ((w.taken f rest).backstage.mixer.strips.modify c t).get d =
          (w.taken f rest).backstage.mixer.strips.get d := Bank.get_set_ne _ _ other
    cases step with
    | dims todo going =>
      rw [todo] at acts
      cases acts with
      | sweeps paint lane =>
        exact joined.goesOn role spared id role' doomed fault (.strides paint lane) rfl rfl
          (fun d other => strips other) (by simp)
    | due todo spent =>
      exact joined.goesOn role spared id role' doomed fault .silences rfl rfl (fun _ _ => rfl)
        (by simp)
    | takes todo pulled taken =>
      rw [todo] at acts
      cases acts with
      | strides paint lane =>
        have of := Sweep.take?_fields taken
        exact joined.goesOn role spared id role' doomed fault
          (.sweeps (of.paint.trans paint) (of.lane.trans lane)) rfl rfl (fun _ _ => rfl) (by simp)
    | silences todo =>
      refine joined.goesOn role spared id role' doomed fault .spent rfl rfl
        (fun d other => strips other) fun _ => ?_
      have strip : ((w.taken f rest).backstage.mixer.strips.modify c Strip.stop).get c =
          ((w.taken f rest).backstage.mixer.strips.get c).stop := Bank.get_set_self _ _ _
      show (((w.taken f rest).backstage.mixer.strips.modify c Strip.stop).get c).volume = _ ∧
        (((w.taken f rest).backstage.mixer.strips.modify c Strip.stop).get c).playing = _
      rw [strip]
      exact ⟨rfl, rfl⟩
  | waits todo pulled _ _ same => exact same ▸ joined
  | bursts todo pulled overflow _ same =>
    rw [same]
    exact (joined.goes role spared).still rfl rfl
  | ends todo _ same => exact same ▸ joined.goes role spared

/-- The turn of a fiber that was told to stop. -/
theorem manned_turn_doomed (order : w.InOrder) (h : w.backstage.Manned) {rest : List Fiber}
    (ready : w.ready = f :: rest) (doomed : f.doomed = true) :
    w.turn.backstage = (w.taken f rest).backstage ∧ w.turn.backstage.Manned := by
  have joined := manned_taken h ready
  have yields : (w.taken f rest).backstage.yield f = (w.taken f rest).backstage := by
    unfold Backstage.yield
    split
    · rename_i channel role
      refine if_neg fun slot => ?_
      obtain ⟨g, among, same, -, spared⟩ := joined.slots channel f.id slot
      have own : f ∈ ((w.taken f rest).backstage.join f).hands :=
        Multiset.mem_cons_self f (w.taken f rest).hands
      obtain rfl := joined.eq_of_id among own same
      rw [doomed] at spared
      cases spared
    · rfl
  have same : w.turn.backstage = (w.taken f rest).backstage := by
    cases turn_turns order ready with
    | ends _ same => exact same.trans yields
    | fetches _ _ spared | works _ spared | unwinds _ _ spared =>
      rw [doomed] at spared
      cases spared
  exact ⟨same, same ▸ joined.leave fun _ _ => doomed⟩

theorem manned_turn (order : w.InOrder) (sources : 0 < w.feed.sources) (h : w.backstage.Manned) :
    w.turn.backstage.Manned := by
  cases ready : w.ready with
  | nil =>
    rw [turn, ready]
    exact h
  | cons f rest =>
    cases doomed : f.doomed with
    | true => exact (manned_turn_doomed order h ready doomed).2
    | false =>
      cases role : f.role with
      | fade c => exact manned_turn_fade sources h ready role doomed
      | _ => exact manned_turn_other order h ready (by rw [role]; rfl)

theorem manned_pulse (play : w.InPlay) (h : w.backstage.Manned) (p : Pulse) :
    (w.pulse p).backstage.Manned := by
  by_cases turn : p = .turn
  · subst turn
    exact manned_turn play.order play.screened.sources_pos h
  have below := play.order.below_hands
  generalize heq : (w.pulse p).backstage = b
  cases heq ▸ pulse_hosts w turn with
  | stays => exact h.still rfl rfl
  | executes =>
    rw [backstage_renewScope]
    refine Backstage.Manned.join (h.still rfl rfl) (fun g among => Nat.ne_of_lt (below g among)) rfl
      ?_ ?_ <;> simp [Fiber.start]
  | cancels => exact backstage_cancelSideEffects w ▸ h.still rfl rfl
  | plays => exact manned_play h _ _ _
  | fades => exact manned_fadeOut h below _ _
  | stops => exact manned_stopChannel h _
  | loads =>
    refine h.join (fun g among => Nat.ne_of_lt (below g among)) rfl (by simp [Fiber.start])
      fun run => ?_
    cases run
  | @aborts _ f among role =>
    refine h.doom fun g among' same => ?_
    obtain rfl := h.eq_of_id among' among same
    rcases role with ⟨r, role⟩ | ⟨n, role⟩ <;> rw [role] <;> exact ⟨rfl, rfl⟩

theorem manned_opening (o : Opening) : o.world.backstage.Manned := by
  have none (c : Channel) : o.world.backstage.mixer.fades.get c = none := by cases c <;> rfl
  have alone : o.world.backstage.hands = 0 := rfl
  refine ⟨?_, fun c id slot => ?_, ?_, ?_, ?_⟩
  · rw [alone]
    exact Multiset.nodup_zero
  · rw [none c] at slot
    cases slot
  all_goals
    rw [alone]
    exact fun f among => absurd among (Multiset.notMem_zero f)

theorem manned_pulses (o : Opening) (ps : List Pulse) : (o.world.pulses ps).backstage.Manned :=
  (inPlay_opening o).induction (P := fun _ w => w.backstage.Manned) (manned_opening o)
    (fun _ p play h => manned_pulse play h p) ps

end World

end SceneScript
