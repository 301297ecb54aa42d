import SceneScript.Proofs.Remains
import SceneScript.Proofs.Written
/-!
Runs are isolated from each other. As soon as a program has started in two worlds, the same performance
goes on behind two pasts (`Parallel`). Those who are left of either have their turns, be they as many
as they are; from then on the worlds take turn by turn together. Of those who are left only a hasty
tween shows anything (`Leavings`), and nobody does if they are calm (`Calm`).
-/

namespace SceneScript

/-- What a performance shows: its calls of the stage, of the audio and of the scenes, and its events,
but for the numbers of runs. -/
def Entry.shown? (e : Entry) : Option Deed :=
  match e.deed with
  | .stage _ | .audio _ | .scene _ => some e.deed
  | .event (.started _) => some (.event (.started 0))
  | .event _ => some e.deed
  | _ => none

theorem blind_shown? (p₁ p₂ : Past) : Blind Entry.shown? p₁ p₂ := by
  rintro ⟨author, deed⟩
  cases deed with
  | event e => cases e <;> rfl
  | _ => rfl

theorem Deed.IsRemark.shown? {e : Entry} (h : e.deed.IsRemark) : e.shown? = none := by
  obtain ⟨r, deed⟩ := h
  rw [Entry.shown?, deed]

/-- Nothing that those who are left tell is of the performance behind the past. -/
theorem Past.own_left {β : Type} {p : Past} {l : List Fiber} {es : Array Entry}
    (lingers : ∀ f ∈ l, p.Lingers f) (left : ∀ e ∈ es, ∃ f ∈ l, e.author = some f.id)
    (g : Entry → Option β) : es.toList.filterMap (p.own g) = [] := by
  refine List.filterMap_eq_nil_iff.mpr fun e member => ?_
  obtain ⟨f, listed, author⟩ := left e (Array.mem_toList_iff.mp member)
  simp [Past.own, author, (lingers f listed).old]

theorem Past.own_performance (p : Past) (es : List Entry) :
    (es.map (Entry.behind p)).filterMap (p.own Entry.shown?) =
      es.filterMap fun e => (e.behind p).shown? := by
  rw [List.filterMap_map]
  exact congrArg (List.filterMap · es) (funext fun e => p.own_behind _ e)

/-- The past with fewer left of it, and with another count of the handles on the feed. -/
def Past.shed (p : Past) (sources : Nat) (left : List Fiber) : Past :=
  { p with sources, ready := left }

variable {p p₁ p₂ : Past} {w w₁ w₂ : World}

theorem Past.Suits.shed (h : p.Suits w) {sources : Nat} {left : List Fiber}
    (fits : sources = 0 ∨ w.feed.sources ≠ 0) (fewer : ∀ f ∈ left, f ∈ p.ready) :
    (p.shed sources left).Suits w where
  stopped := h.stopped
  sources := fits
  permits := h.permits
  young f member := h.young f (fewer f member)
  aside f member := h.aside f (fewer f member)

namespace Twins

theorem symm {β : Type} {g : Entry → Option β} (h : Twins g p₁ p₂ w₁ w₂) : Twins g p₂ p₁ w₂ w₁ := by
  cases h with
  | intro u told left right resolved deaf told₁ told₂ =>
    exact .intro u told right left (fun n => (resolved n).symm) (deaf.imp_left Eq.symm) told₂ told₁

/-- Those who are left of the one past have their turns. -/
theorem clears (h : Twins Entry.shown? p₁ p₂ w₁ w₂) (lingers : ∀ f ∈ p₁.ready, p₁.Lingers f)
    (alone : w₁.actor = none) : ∃ k es, es.toList.filterMap (p₁.own Entry.shown?) = [] ∧
    (w₁.turns k).chronicle = w₁.chronicle ++ es ∧
    Twins Entry.shown? (p₁.shed p₁.sources []) p₂ (w₁.turns k) w₂ := by
  cases h with
  | @intro u told programs₁ programs₂ chronicle₁ chronicle₂ left right resolved deaf told₁ told₂ =>
    have ended : ∀ f ∈ p₁.ready, (u.behind (p₁.told programs₁ chronicle₁)).Outlived f := by
      intro f member
      have lingers := lingers f member
      exact Past.Lingers.outlived (p := p₁.told programs₁ chronicle₁)
        ⟨lingers.old, lingers.dutiful, lingers.ended⟩ u
    obtain ⟨k, es, left', same⟩ := World.turns_outlived ended alone rfl
    have apart := Past.own_left lingers left' Entry.shown?
    refine ⟨k, es, apart, congrArg World.chronicle same, ?_⟩
    have world : (u.behind (p₁.told programs₁ chronicle₁)).turns k =
        { u with chronicle := #[] }.behind ((p₁.shed p₁.sources []).told programs₁
          (chronicle₁ ++ u.chronicle.map (Entry.behind p₁) ++ es)) := by
      rw [same]
      simp only [World.behind, Past.told, Array.map_empty, Array.append_empty]
      rfl
    have shown : (u.chronicle.toList.map (Entry.behind p₁)).filterMap (p₁.own Entry.shown?) =
        (u.chronicle.toList.map (Entry.behind p₂)).filterMap (p₂.own Entry.shown?) := by
      rw [p₁.own_performance, p₂.own_performance]
      exact congrArg (List.filterMap · _) (funext (blind_shown? p₁ p₂))
    have none : ∀ f ∈ ([] : List Fiber), f ∈ p₁.ready := List.forall_mem_nil _
    rw [world, u.behind_told p₂]
    refine .intro _
      (told ++ (u.chronicle.toList.map (Entry.behind p₁)).filterMap (p₁.own Entry.shown?))
      ((left.shed left.sources none).of_eq rfl rfl) (right.of_eq rfl rfl) resolved deaf ?_ ?_
    · show (chronicle₁ ++ _ ++ es).toList.filterMap (p₁.own Entry.shown?) =
        p₁.chronicle.toList.filterMap (p₁.own Entry.shown?) ++ _
      simp only [Array.toList_append, Array.toList_map, List.filterMap_append, told₁, apart,
        List.append_nil, List.append_assoc]
    · rw [shown]
      simp only [Array.toList_append, Array.toList_map, List.filterMap_append, told₂,
        List.append_assoc]

end Twins

/-! ### Behind two pasts -/

/-- What was shown since `w`. -/
def World.shownSince (w x : World) : List Deed :=
  (x.entries.drop w.entries.length).filterMap Entry.shown?

/-- What was shown since `w`, but for what those show who are left of before. -/
def World.ownSince (w x : World) : List Deed :=
  (x.entries.drop w.entries.length).filterMap (w.past.own Entry.shown?)

namespace World

theorem InPlay.lulls_sources (play : w.InPlay) {x : World} (lulls : Lulls w x) :
    x.feed.sources = w.feed.sources ∧ x.rig = w.rig ∧ x.InPlay := by
  induction lulls with
  | refl => exact ⟨rfl, rfl, play⟩
  | tail _ lull ih =>
    obtain ⟨sources, rig, play⟩ := ih
    refine ⟨Eq.trans ?_ sources, (rig_beat play.order (.lull lull)).trans rig,
      play.beat (.lull lull)⟩
    cases lull with
    | turn => exact congrArg Feed.sources (play.screened.feed_turn play.order)
    | publish | reach => rfl

theorem InPlay.apply_sources (play : w.InPlay) {s : HostStep} (clock : s ≠ .dropClock) :
    (w.apply s).1.feed.sources = w.feed.sources ∧ (w.apply s).1.rig = w.rig ∧
      (w.apply s).1.InPlay := by
  cases brief : s.isBrief with
  | true =>
    have beat : Beat w (w.apply s).1 := .brief w brief
    exact ⟨congrArg (·.feed.sources) (curtain_brief w brief clock), rig_beat play.order beat,
      play.beat beat⟩
  | false => exact play.lulls_sources (lulls_apply w brief)

/-- A handle that is let go of is one of the past, as long as there is one. -/
theorem dropClock_shed (p : Past) (w : World) (kept : w.feed.sources = w.rig.keptSources) :
    (w.behind p).dropClock = w.behind (p.shed (p.sources - 1) p.ready) := by
  have count : (w.behind p).feed.sources = p.sources + w.rig.keptSources := congrArg _ kept
  unfold dropClock
  rw [count, show (w.behind p).rig = w.rig from rfl]
  split
  · have fewer : p.sources + w.rig.keptSources - 1 = p.sources - 1 + w.feed.sources := by omega
    rw [fewer]
    rfl
  · have none : p.sources - 1 = p.sources := by omega
    rw [none]
    rfl

theorem sources_dropClock {n : Nat} (sources : w.feed.sources = n + w.rig.keptSources) :
    w.dropClock.feed.sources = n - 1 + w.dropClock.rig.keptSources := by
  unfold dropClock
  split
  · show w.feed.sources - 1 = n - 1 + w.rig.keptSources
    omega
  · omega

end World

/-- A performance goes on behind a past of which `l` are left and `n` handles on the feed. -/
structure Sequel (p : Past) (n : Nat) (l : List Fiber) (w : World) : Prop where
  play : w.InPlay
  lingers : ∀ f ∈ l, p.Lingers f
  sources : w.feed.sources = n + w.rig.keptSources
  entries : p.chronicle.toList <+: w.entries

/-- Behind either past the same performance goes on, and the same has been shown. -/
def Parallel (p₁ p₂ : Past) (l₁ l₂ : List Fiber) (w₁ w₂ : World) : Prop :=
  ∃ n₁ n₂, Sequel p₁ n₁ l₁ w₁ ∧ Sequel p₂ n₂ l₂ w₂ ∧
    Twins Entry.shown? (p₁.shed n₁ l₁) (p₂.shed n₂ l₂) w₁ w₂

variable {n : Nat} {l l₁ l₂ : List Fiber}

theorem Past.Lingers.shed {f : Fiber} (h : p.Lingers f) : (p.shed n l).Lingers f :=
  ⟨h.old, h.dutiful, h.ended⟩

theorem World.InPlay.entries (play : w.InPlay) {x : World} (beats : World.Beats w x) :
    w.entries <+: x.entries := by
  obtain ⟨es, same, -⟩ := (beats.later play.order play.tended).entries
  exact ⟨es, same.symm⟩

namespace Sequel

theorem along (h : Sequel p n l w) {x : World} (lulls : World.Lulls w x) : Sequel p n l x := by
  obtain ⟨sources, rig, play⟩ := h.play.lulls_sources lulls
  exact ⟨play, h.lingers, by rw [sources, rig, h.sources],
    h.entries.trans (h.play.entries (World.beats_of_lulls lulls))⟩

theorem clear (h : Sequel p n l w) : Sequel p n [] w where
  play := h.play
  lingers _ member := nomatch member
  sources := h.sources
  entries := h.entries

theorem apply (h : Sequel p n l w) {s : HostStep} (clock : s ≠ .dropClock) :
    Sequel p n l (w.apply s).1 := by
  obtain ⟨sources, rig, play⟩ := h.play.apply_sources clock
  exact ⟨play, h.lingers, by rw [sources, rig, h.sources],
    h.entries.trans (h.play.entries (World.beats_move w (.host s)))⟩

theorem dropClock (h : Sequel p n l w) : Sequel p (n - 1) l w.dropClock where
  play := h.play.beats (World.beats_move w (.host .dropClock))
  lingers := h.lingers
  sources := World.sources_dropClock h.sources
  entries := h.entries.trans (h.play.entries (World.beats_move w (.host .dropClock)))

end Sequel

/-- Handles of runs of the past lead nowhere. -/
theorem World.abort_past (aside : ∀ f ∈ p.ready, f.watches ≠ none) (w : World) {run : Nat}
    (old : run < p.runs) : ((w.behind p).apply (.abort run)).1 = w.behind p := by
  have none : (w.behind p).runFiber? run = none := by
    refine List.find?_eq_none.mpr fun f member => ?_
    rcases List.mem_append.mp member with member | member
    · rcases List.mem_append.mp member with member | member
      · have watches := aside f member
        cases role : f.role <;> simp_all [Fiber.watches]
      · obtain ⟨f, -, rfl⟩ := List.mem_map.mp member
        cases role : f.role <;> simp [Fiber.behind, Role.behind, Run.behind, role]
        omega
    · obtain ⟨b, among, rfl⟩ := List.mem_map.mp member
      obtain ⟨b, -, rfl⟩ := List.mem_map.mp among
      cases role : b.fiber.role <;>
        simp [Parked.behind, Fiber.behind, Role.behind, Run.behind, role]
      omega
  rw [apply, none]
  rfl

namespace Parallel

theorem apply (h : Parallel p₁ p₂ l₁ l₂ w₁ w₂) (whole₁ : p₁.Whole) (whole₂ : p₂.Whole)
    (s : HostStep) (clear : s.waits = true → l₁ = [] ∧ l₂ = []) :
    Parallel p₁ p₂ l₁ l₂ (w₁.apply (s.behind p₁)).1 (w₂.apply (s.behind p₂)).1 := by
  obtain ⟨n₁, n₂, left, right, twins⟩ := h
  by_cases clock : s = .dropClock
  · subst clock
    refine ⟨n₁ - 1, n₂ - 1, left.dropClock, right.dropClock, ?_⟩
    have sources := left.sources
    cases twins with
    | @intro u told programs₁ programs₂ chronicle₁ chronicle₂ fits₁ fits₂ resolved deaf told₁ told₂ =>
      have kept : u.feed.sources = u.rig.keptSources := Nat.add_left_cancel sources
      have open_ : u.feed.sources ≠ 0 := by
        rw [kept]
        exact Nat.ne_of_gt u.keptSources_pos
      have dropped (p : Past) (programs : Array Program) (chronicle : Array Entry) (n : Nat)
          (l : List Fiber) :
          ((u.behind ((p.shed n l).told programs chronicle)).apply (HostStep.dropClock.behind p)).1 =
            u.behind ((p.shed (n - 1) l).told programs chronicle) :=
        World.dropClock_shed ((p.shed n l).told programs chronicle) u kept
      rw [dropped, dropped]
      exact .intro u told (fits₁.shed (.inr open_) fun f member => member)
        (fits₂.shed (.inr open_) fun f member => member) resolved deaf told₁ told₂
  · have other {p : Past} : s.behind p ≠ .dropClock := by
      cases s <;> first | exact absurd rfl clock | exact nofun
    have whole₁ : (p₁.shed n₁ l₁).Whole := whole₁
    have whole₂ : (p₂.shed n₂ l₂).Whole := whole₂
    have applied := twins.apply (s := s) (blind_shown? _ _) whole₁ whole₂ left.play clear
      fun same => absurd same clock
    exact ⟨n₁, n₂, left.apply other, right.apply other, applied.1⟩

theorem turns (h : Parallel p₁ p₂ [] [] w₁ w₂) (k : Nat) :
    Parallel p₁ p₂ [] [] (w₁.turns k) (w₂.turns k) := by
  obtain ⟨n₁, n₂, left, right, twins⟩ := h
  exact ⟨n₁, n₂, left.along (World.lulls_turns k w₁), right.along (World.lulls_turns k w₂),
    twins.turns (blind_shown? _ _) ⟨rfl, rfl⟩ left.play k⟩

/-- After some turns nobody is left of the past, and all that was told in them is of those. -/
theorem clears (h : Parallel p₁ p₂ l₁ l₂ w₁ w₂) : ∃ k₁ k₂ es₁ es₂,
    es₁.toList.filterMap (p₁.own Entry.shown?) = [] ∧
    es₂.toList.filterMap (p₂.own Entry.shown?) = [] ∧
    (w₁.turns k₁).chronicle = w₁.chronicle ++ es₁ ∧ (w₂.turns k₂).chronicle = w₂.chronicle ++ es₂ ∧
    Parallel p₁ p₂ [] [] (w₁.turns k₁) (w₂.turns k₂) := by
  obtain ⟨n₁, n₂, left, right, twins⟩ := h
  obtain ⟨k₁, es₁, apart₁, told₁, twins⟩ := twins.clears
    (fun f member => (left.lingers f member).shed) left.play.order.actor
  obtain ⟨k₂, es₂, apart₂, told₂, twins⟩ := twins.symm.clears
    (fun f member => (right.lingers f member).shed) right.play.order.actor
  exact ⟨k₁, k₂, es₁, es₂, apart₁, apart₂, told₁, told₂, n₁, n₂,
    (left.along (World.lulls_turns k₁ w₁)).clear, (right.along (World.lulls_turns k₂ w₂)).clear,
    twins.symm⟩

end Parallel

/-! ### Steps of the host -/

namespace World

/-- The world after steps of the host, each with whether the fibers are settled after it. -/
def conducted (w : World) (ss : List (HostStep × Bool)) : World :=
  ss.foldl (fun w s => (w.step s.1 s.2).1) w

/-- Where the host first waits for the fibers, they come to rest. A program that never waits may keep
the host waiting for ever; as long as the host has not waited yet, nothing is asked for. -/
def ComesToRest (w : World) : List (HostStep × Bool) → Prop
  | [] => True
  | (s, settles) :: ss =>
    if s.waits then w.settle.ready = []
    else if settles then (w.apply s).1.settle.ready = []
    else (w.apply s).1.ComesToRest ss

end World

/-- The same step in two performances: the runs and loads it is about were numbered on from their
pasts, or it is about a run of the past in either. -/
inductive HostStep.Alike (p₁ p₂ : Past) : HostStep → HostStep → Prop where
  | same (s : HostStep) : Alike p₁ p₂ (s.behind p₁) (s.behind p₂)
  | past {run₁ run₂ : Nat} : run₁ < p₁.runs → run₂ < p₂.runs →
    Alike p₁ p₂ (.abort run₁) (.abort run₂)

/-- The same steps, settled after the same. -/
def HostStep.AllAlike (p₁ p₂ : Past) : List (HostStep × Bool) → List (HostStep × Bool) → Prop :=
  List.Forall₂ fun s₁ s₂ => HostStep.Alike p₁ p₂ s₁.1 s₂.1 ∧ s₁.2 = s₂.2

theorem HostStep.waits_behind (p : Past) (s : HostStep) : (s.behind p).waits = s.waits := by
  cases s <;> rfl

theorem HostStep.Alike.waits {s₁ s₂ : HostStep} (h : Alike p₁ p₂ s₁ s₂) : s₂.waits = s₁.waits := by
  cases h with
  | same s => rw [waits_behind, waits_behind]
  | past => rfl

namespace World

theorem settle_turns (rest : w.settle.ready = []) (k : Nat) : (w.turns k).settle = w.settle := by
  rw [settle, ← turns_add, Nat.add_comm, turns_add]
  exact turns_of_rest rest k

/-- A step in which the host waits begins with waiting. -/
theorem apply_settle {s : HostStep} (waits : s.waits = true) (rest : w.settle.ready = []) :
    w.settle.apply s = w.apply s := by
  have still : w.settle.settle = w.settle := settle_of_rest rest
  cases s with
  | tick frames =>
    cases frames with
    | nil => cases waits
    | cons f frames =>
      have ticked : w.settle.tick f.1 f.2 = w.tick f.1 f.2 := by rw [tick, tick, still]
      simp only [apply, List.foldl_cons, ticked]
  | sleep span =>
    have passed : w.settle.passTime span = w.passTime span := by rw [passTime, passTime, still]
    simp only [apply, passed]
  | _ => cases waits

-- not by computation, which would start to count the turns
theorem step_fst (w : World) (s : HostStep) (settles : Bool) :
    (w.step s settles).1 = if settles then (w.apply s).1.settle else (w.apply s).1 := by
  unfold step
  rcases w.apply s with ⟨w', r⟩
  rfl

theorem conducted_cons (w : World) (s : HostStep) (settles : Bool) (ss : List (HostStep × Bool)) :
    w.conducted ((s, settles) :: ss) =
      (if settles then (w.apply s).1.settle else (w.apply s).1).conducted ss := by
  rw [← step_fst]
  rfl

end World

namespace Parallel

variable {ss₁ ss₂ : List (HostStep × Bool)} {s₁ s₂ : HostStep}

theorem settle (h : Parallel p₁ p₂ l₁ l₂ w₁ w₂) (rest₁ : w₁.settle.ready = [])
    (rest₂ : w₂.settle.ready = []) : Parallel p₁ p₂ [] [] w₁.settle w₂.settle := by
  obtain ⟨k₁, k₂, -, -, -, -, -, -, clear⟩ := h.clears
  have settled := clear.turns World.patience
  rw [← World.settle_turns rest₁ k₁, ← World.settle_turns rest₂ k₂]
  exact settled

theorem alike (h : Parallel p₁ p₂ l₁ l₂ w₁ w₂) (whole₁ : p₁.Whole) (whole₂ : p₂.Whole)
    (alike : HostStep.Alike p₁ p₂ s₁ s₂) (clear : s₁.waits = true → l₁ = [] ∧ l₂ = []) :
    Parallel p₁ p₂ l₁ l₂ (w₁.apply s₁).1 (w₂.apply s₂).1 := by
  cases alike with
  | same s =>
    rw [HostStep.waits_behind] at clear
    exact h.apply whole₁ whole₂ s clear
  | @past run₁ run₂ old₁ old₂ =>
    have stays : (w₁.apply (.abort run₁)).1 = w₁ ∧ (w₂.apply (.abort run₂)).1 = w₂ := by
      obtain ⟨n₁, n₂, -, -, twins⟩ := h
      cases twins with
      | @intro u told programs₁ programs₂ chronicle₁ chronicle₂ fits₁ fits₂ =>
        have none {p : Past} {n : Nat} {l : List Fiber} (fits : (p.shed n l).Suits u)
            (programs : Array Program) (chronicle : Array Entry) {run : Nat} (old : run < p.runs) :=
          World.abort_past (p := (p.shed n l).told programs chronicle) fits.aside u old
        exact ⟨none fits₁ programs₁ chronicle₁ old₁, none fits₂ programs₂ chronicle₂ old₂⟩
    rw [stays.1, stays.2]
    exact h

/-- Once nobody is left of the past, the worlds are parallel after every step. -/
theorem steps_clear (h : Parallel p₁ p₂ [] [] w₁ w₂) (whole₁ : p₁.Whole) (whole₂ : p₂.Whole)
    (same : HostStep.AllAlike p₁ p₂ ss₁ ss₂) :
    Parallel p₁ p₂ [] [] (w₁.conducted ss₁) (w₂.conducted ss₂) := by
  induction same generalizing w₁ w₂ with
  | nil => exact h
  | @cons s₁ s₂ ss₁ ss₂ alike same ih =>
    obtain ⟨step₁, settles⟩ := s₁
    obtain ⟨step₂, settles⟩ := s₂
    obtain ⟨alike, rfl⟩ := alike
    have applied := h.alike whole₁ whole₂ alike fun _ => ⟨rfl, rfl⟩
    rw [World.conducted_cons, World.conducted_cons]
    apply ih
    cases settles with
    | false => exact applied
    | true => exact applied.turns World.patience

/-- Parallel all the way, if they come to rest where the host first waits. -/
theorem steps (h : Parallel p₁ p₂ l₁ l₂ w₁ w₂) (whole₁ : p₁.Whole) (whole₂ : p₂.Whole)
    (same : HostStep.AllAlike p₁ p₂ ss₁ ss₂) (rest₁ : w₁.ComesToRest ss₁)
    (rest₂ : w₂.ComesToRest ss₂) :
    ∃ m₁ m₂, Parallel p₁ p₂ m₁ m₂ (w₁.conducted ss₁) (w₂.conducted ss₂) := by
  induction same generalizing w₁ w₂ with
  | nil => exact ⟨l₁, l₂, h⟩
  | @cons s₁ s₂ ss₁ ss₂ alike same ih =>
    obtain ⟨step₁, settles⟩ := s₁
    obtain ⟨step₂, settles⟩ := s₂
    obtain ⟨alike, rfl⟩ := alike
    unfold World.ComesToRest at rest₁ rest₂
    rw [World.conducted_cons, World.conducted_cons]
    by_cases waits : step₁.waits = true
    · rw [if_pos waits] at rest₁
      rw [if_pos (alike.waits.trans waits)] at rest₂
      have settled := h.settle rest₁ rest₂
      have whole : HostStep.AllAlike p₁ p₂ ((step₁, settles) :: ss₁) ((step₂, settles) :: ss₂) :=
        .cons ⟨alike, rfl⟩ same
      have all := settled.steps_clear whole₁ whole₂ whole
      rw [World.conducted_cons, World.conducted_cons, World.apply_settle waits rest₁,
        World.apply_settle (alike.waits.trans waits) rest₂] at all
      exact ⟨[], [], all⟩
    · have waits₂ : ¬ step₂.waits = true := fun same => waits (alike.waits.symm.trans same)
      rw [if_neg waits] at rest₁
      rw [if_neg waits₂] at rest₂
      have applied := h.alike whole₁ whole₂ alike fun same => absurd same waits
      cases settles with
      | false => exact ih applied rest₁ rest₂
      | true => exact ⟨[], [], (applied.settle rest₁ rest₂).steps_clear whole₁ whole₂ same⟩

theorem own_since {w : World} {told : List Deed} {programs : Array Program}
    {chronicle : Array Entry} {new : List Entry}
    (entries : p.chronicle.toList ++ new = (w.behind ((p.shed n l).told programs chronicle)).entries)
    (tale : chronicle.toList.filterMap (p.own Entry.shown?) =
      p.chronicle.toList.filterMap (p.own Entry.shown?) ++ told) :
    new.filterMap (p.own Entry.shown?) =
      told ++ w.chronicle.toList.filterMap fun e => (e.behind p).shown? := by
  have all := congrArg (List.filterMap (p.own Entry.shown?)) entries
  have parts : (w.behind ((p.shed n l).told programs chronicle)).entries =
      chronicle.toList ++ w.chronicle.toList.map (Entry.behind p) := by
    rw [World.entries, World.behind, Array.toList_append, Array.toList_map]
    rfl
  rw [parts, List.filterMap_append, List.filterMap_append, tale, List.append_assoc,
    p.own_performance] at all
  exact List.append_cancel_left all

/-- The performance behind the one past has shown what the one behind the other has. -/
theorem shown (h : Parallel p₁ p₂ l₁ l₂ w₁ w₂) :
    (w₁.entries.drop p₁.chronicle.size).filterMap (p₁.own Entry.shown?) =
      (w₂.entries.drop p₂.chronicle.size).filterMap (p₂.own Entry.shown?) := by
  obtain ⟨n₁, n₂, left, right, twins⟩ := h
  obtain ⟨new₁, entries₁⟩ := left.entries
  obtain ⟨new₂, entries₂⟩ := right.entries
  rw [← entries₁, ← entries₂, ← Array.length_toList, ← Array.length_toList, List.drop_left,
    List.drop_left]
  cases twins with
  | @intro u told programs₁ programs₂ chronicle₁ chronicle₂ fits₁ fits₂ resolved deaf told₁ told₂ =>
    rw [own_since entries₁ told₁, own_since entries₂ told₂]
    exact congrArg (fun tale => told ++ List.filterMap tale u.chronicle.toList)
      (funext (blind_shown? p₁ p₂))

end Parallel

/-! ### The start of a run -/

namespace World

/-- Two worlds that agree on all that a run can see of the time before it, and on the haste of those
who join from now on. -/
structure Akin (w₁ w₂ : World) : Prop where
  settings : w₁.settings = w₂.settings
  rig : w₁.rig = w₂.rig
  backlog : w₁.feed.depth = w₂.feed.depth
  registry : w₁.registry = w₂.registry
  vars : w₁.vars = w₂.vars
  chosen : w₁.state.chosen = w₂.state.chosen
  hasty : ∀ i, w₁.hasty (w₁.nextFiber + i) = w₂.hasty (w₂.nextFiber + i)
  programs : ∀ n, resolution w₁.programs n = resolution w₂.programs n

theorem Akin.debut (h : Akin w₁ w₂) : w₁.debut = w₂.debut := by
  have hasty : (fun i => w₁.hasty (w₁.nextFiber + i)) = fun i => w₂.hasty (w₂.nextFiber + i) :=
    funext h.hasty
  unfold World.debut
  rw [h.settings, h.rig, h.backlog, h.registry, h.vars, h.chosen, hasty]

/-- A run has started in `w`, and nothing lies behind it. -/
def opened (w : World) (q : Program) : World :=
  (w.debut.announce 0).spawn (.run ⟨0, q, 0, .empty⟩) (some w.debut.feed.subscribe) []

theorem Idles.launch (h : w.Idles) (q : Program) : w.launch q = (w.opened q).behind w.past := by
  have started : (w.debut.behind w.past).announce w.runs = (w.debut.announce 0).behind w.past := by
    unfold announce
    rw [stage_behind, stage_behind]
    exact emit_behind _ (.started 0)
  unfold World.launch
  rw [h.begins, started]
  have place := subscribe_behind (p := w.past) w.debut.feed
  rw [show (w.debut.behind w.past).feed = w.debut.feed.behind w.past from rfl, place]
  exact spawn_behind _ (.run ⟨0, q, 0, .empty⟩) (some _) []

theorem Idles.executes (h : w.Idles) {n : Nat} {q : Program}
    (found : resolution w.programs n = .ok q) (nonempty : q.commands ≠ []) :
    (w.executeNumber n).1 = (w.opened q).behind
      (w.past.told (w.programs.setIfInBounds n q) w.past.chronicle) := by
  rw [executeNumber, execute_of_preprocess h.rests found nonempty]
  dsimp only
  rw [h.launch q]
  rfl

end World

namespace World

/-! ### Isolation -/

/-- A moment at which no run is under way, on doubles that only record, where a run cancels the
effects of the run before. What was done until then may have been anything. -/
structure Vacant (o : Opening) (before : List Move) : Prop where
  records : o.rig.Records
  plain : ∀ s, .host s ∈ before → s.isStaging = false
  strict : (o.world.after before).settings.cancelStaleEffects = true
  rests : (o.world.after before).state.executing = false

theorem InPlay.rig_beats (play : w.InPlay) {x : World} (beats : Beats w x) : x.rig = w.rig := by
  induction beats with
  | refl => rfl
  | tail beats beat ih => exact (rig_beat (play.beats beats).order beat).trans ih

theorem Vacant.idles {o : Opening} {before : List Move} (h : Vacant o before) :
    (o.world.after before).Idles := by
  obtain ⟨ps, same⟩ := pulses_after o before
  exact {
    play := (inPlay_opening o).beats (beats_after o.world before)
    deep := same ▸ depth_pulses o ps
    alert := alert_after o before
    halted := same ▸ halted_pulses o ps
    bare := bare_after h.records before h.plain
    records := by
      rw [(inPlay_opening o).rig_beats (beats_after o.world before)]
      exact h.records
    strict := h.strict
    rests := h.rests }

/-- Two worlds tell the same, and it stays so turn by turn once those who are left from before are
gone, of whom nothing is told. -/
structure Matches (tell₁ tell₂ : World → List Deed) (x₁ x₂ : World) : Prop where
  same : tell₁ x₁ = tell₂ x₂
  turns : ∃ k₁ k₂, tell₁ (x₁.turns k₁) = tell₁ x₁ ∧ tell₂ (x₂.turns k₂) = tell₂ x₂ ∧
    ∀ m, tell₁ (x₁.turns (k₁ + m)) = tell₂ (x₂.turns (k₂ + m))

theorem Matches.of_eq {tell₁ tell₂ tell₁' tell₂' : World → List Deed} {x₁ x₂ : World}
    (h : Matches tell₁ tell₂ x₁ x₂) (same₁ : ∀ k, tell₁' (x₁.turns k) = tell₁ (x₁.turns k))
    (same₂ : ∀ k, tell₂' (x₂.turns k) = tell₂ (x₂.turns k)) : Matches tell₁' tell₂' x₁ x₂ := by
  have now₁ : tell₁' x₁ = tell₁ x₁ := same₁ 0
  have now₂ : tell₂' x₂ = tell₂ x₂ := same₂ 0
  obtain ⟨k₁, k₂, gone₁, gone₂, onward⟩ := h.turns
  refine ⟨now₁.trans (h.same.trans now₂.symm), k₁, k₂, ?_, ?_, fun m => ?_⟩
  · exact (same₁ k₁).trans (gone₁.trans now₁.symm)
  · exact (same₂ k₂).trans (gone₂.trans now₂.symm)
  · exact (same₁ _).trans ((onward m).trans (same₂ _).symm)

theorem ownSince_left {x y : World} {es : Array Entry} (grown : w.entries <+: x.entries)
    (left : es.toList.filterMap (w.past.own Entry.shown?) = [])
    (told : y.chronicle = x.chronicle ++ es) : w.ownSince y = w.ownSince x := by
  have entries : y.entries = x.entries ++ es.toList := by
    rw [World.entries, told, Array.toList_append]
    rfl
  rw [ownSince, entries, List.drop_append_of_le_length grown.length_le, List.filterMap_append,
    left, List.append_nil]
  rfl

end World

theorem Parallel.matches {x₁ x₂ : World} (h : Parallel w₁.past w₂.past l₁ l₂ x₁ x₂) :
    World.Matches w₁.ownSince w₂.ownSince x₁ x₂ := by
  have shown {l₁ l₂ : List Fiber} {x₁ x₂ : World}
      (h : Parallel w₁.past w₂.past l₁ l₂ x₁ x₂) : w₁.ownSince x₁ = w₂.ownSince x₂ := by
    have same := h.shown
    rwa [← Array.length_toList, ← Array.length_toList] at same
  obtain ⟨k₁, k₂, es₁, es₂, left₁, left₂, told₁, told₂, clear⟩ := h.clears
  have told := shown h
  obtain ⟨n₁, n₂, left, right, -⟩ := h
  refine ⟨told, k₁, k₂, World.ownSince_left left.entries left₁ told₁,
    World.ownSince_left right.entries left₂ told₂, fun m => ?_⟩
  rw [World.turns_add, World.turns_add]
  exact shown (clear.turns m)

theorem Revised.resolution {programs programs' : Array Program} (h : Revised programs programs')
    (size : programs'.size = programs.size) (n : Nat) :
    resolution programs' n = resolution programs n := by
  unfold SceneScript.resolution
  rw [Array.getD_eq_getD_getElem?, Array.getD_eq_getD_getElem?]
  by_cases inside : n < programs'.size
  · obtain ⟨q, found, same | resolved⟩ := h n _ (Array.getElem?_eq_getElem inside)
    · rw [found, Array.getElem?_eq_getElem inside, same]
    · rw [found, Array.getElem?_eq_getElem inside]
      exact (Program.preprocess_preprocess resolved).trans resolved.symm
  · have outside : ¬ n < programs.size := by omega
    rw [Array.getElem?_eq_none (by omega), Array.getElem?_eq_none (by omega)]

namespace World

/-- It is as if the host looked on after the run has started. -/
theorem conducted_execute (w : World) (n : Nat) (settles : Bool) (ss : List (HostStep × Bool)) :
    w.conducted ((.execute n, settles) :: ss) =
      (w.executeNumber n).1.conducted ((.look, settles) :: ss) := by
  have started : (w.apply (.execute n)).1 = (w.executeNumber n).1 := rfl
  have looked (x : World) : (x.apply .look).1 = x := rfl
  rw [conducted_cons, conducted_cons, started, looked]

theorem ComesToRest.execute {n : Nat} {settles : Bool} {ss : List (HostStep × Bool)}
    (h : w.ComesToRest ((.execute n, settles) :: ss)) :
    (w.executeNumber n).1.ComesToRest ((.look, settles) :: ss) := by
  have started : (w.apply (.execute n)).1 = (w.executeNumber n).1 := rfl
  have looked (x : World) : (x.apply .look).1 = x := rfl
  unfold ComesToRest at h ⊢
  rw [if_neg (by exact Bool.false_ne_true), started] at h
  rw [if_neg (by exact Bool.false_ne_true), looked]
  exact h

/-! ### Those who are left -/

/-- No frame comes before the host first waits for the fibers. -/
def Unhurried : List (HostStep × Bool) → Bool
  | [] => true
  | (s, settles) :: ss => s.waits || s.isBrief && (settles || Unhurried ss)

/-- Nobody who is left of before is hasty, or everybody waits and no frame comes before they wait
again. -/
def Calm (w : World) (ss : List (HostStep × Bool)) : Prop :=
  (∀ f ∈ w.fibers, f.role.isTween = true → w.hasty f.id = false) ∨
    w.ready = [] ∧ Unhurried ss = true

/-- What comes of those who are left of before `w`. -/
structure Leavings (w x : World) : Prop where
  /-- All that they show is what a hasty tween paints. -/
  shown : ∀ e ∈ x.entries.drop w.entries.length, ∀ id < w.nextFiber, e.author = some id →
    e.shown? ≠ none → w.hasty id = true ∧ ∃ f ∈ w.fibers, f.id = id ∧
      ∃ target scope color, f.role = .tween target scope ∧ e.deed = .stage (.setColor target color)
  /-- As soon as everybody waits they are gone. -/
  gone : x.ready = [] → ∀ f ∈ x.fibers, w.nextFiber ≤ f.id

theorem pulsed_conducted (h : w.OnTime) (ss : List (HostStep × Bool)) :
    Pulsed w (w.conducted ss) := by
  induction ss generalizing w with
  | nil => exact .refl w
  | cons s ss ih =>
    obtain ⟨s, settles⟩ := s
    have applied : Pulsed w (w.apply s).1 := pulsed_move h (.host s)
    have stepped : Pulsed w (if settles then (w.apply s).1.settle else (w.apply s).1) := by
      cases settles with
      | false => exact applied
      | true => exact applied.trans (pulsed_turns patience _)
    rw [conducted_cons]
    exact stepped.trans (ih (h.along stepped))

theorem lulled_settle (h : w.OnTime) (rest : w.settle.ready = []) (ss : List (HostStep × Bool)) :
    Lulled w (w.settle.conducted ss) := by
  have settled : w.pulses (List.replicate patience .turn) = w.settle := pulses_turns w patience
  have onTime : w.settle.OnTime := h.along (pulsed_turns patience w)
  have still : w.settle.feed.count = w.feed.count := congrArg Feed.count (h.play.feed_turns patience)
  obtain ⟨ps, same⟩ := pulsed_conducted onTime ss
  have later := onTime.play.later ps
  rw [same] at later
  rw [← settled] at rest still later ⊢
  exact .rested _ still rest later

theorem lulled_conducted (h : w.OnTime) {ss : List (HostStep × Bool)} (rest : w.ComesToRest ss)
    (unhurried : Unhurried ss = true) : Lulled w (w.conducted ss) := by
  induction ss generalizing w with
  | nil => exact .frameless [] rfl
  | cons s ss ih =>
    obtain ⟨s, settles⟩ := s
    unfold ComesToRest at rest
    by_cases waits : s.waits = true
    · rw [if_pos waits] at rest
      rw [conducted_cons, ← apply_settle waits rest, ← conducted_cons]
      exact lulled_settle h rest _
    rw [if_neg waits] at rest
    obtain ⟨brief, unhurried⟩ : s.isBrief = true ∧ (settles || Unhurried ss) = true := by
      simpa [Unhurried, waits] using unhurried
    have onTime : (w.apply s).1.OnTime := h.along (.single w (.host s brief))
    have still : (w.pulse (.host s brief)).feed.frames = w.feed.frames := h.play.frames nofun
    have still : (w.pulses [.host s brief]).feed.count = w.feed.count := congrArg Array.size still
    rw [conducted_cons]
    cases settles with
    | false => exact .after still (ih onTime rest unhurried)
    | true => exact .after still (lulled_settle onTime rest ss)

section

variable {x : World} {n : Nat} {q : Program} (h : w.Idles)
  (found : resolution w.programs n = .ok q) (nonempty : q.commands ≠ [])
include h

theorem Idles.shownSince_eq (later : Later (w.executeNumber n).1 x)
    (remarks : ∀ f ∈ w.fibers, f.Remarks (w.executeNumber n).1 x) :
    w.shownSince x = w.ownSince x := by
  refine List.filterMap_congr fun e member => ?_
  unfold Past.own
  split
  · rename_i left
    obtain ⟨id, author, old⟩ := (Option.any_eq_true _ _).mp left
    have old : id < w.nextFiber := of_decide_eq_true old
    obtain ⟨member, f, among, rfl, -⟩ := h.told later member old author
    exact (remarks f among e member author).shown?
  · rfl

include found nonempty

theorem Idles.leavings (later : Later (w.executeNumber n).1 x) (alert : x.Alert) :
    w.Leavings x where
  shown e member id old author shows := by
    obtain ⟨-, f, among, rfl, tells⟩ := h.told later member old author
    have lively : ¬ e.deed.IsRemark := fun remark => shows remark.shown?
    obtain ⟨flag, watches, up⟩ := h.watches among
    rw [← h.flags_launched found nonempty] at up
    have hasty : ¬ (w.executeNumber n).1.Heeds f :=
      fun heeds => lively (tells.ended heeds flag watches up)
    rw [Heeds, (keeps_executeNumber w n).hasty] at hasty
    obtain ⟨tween, hasty⟩ : f.role.isTween = true ∧ w.hasty f.id = true := by simpa using hasty
    refine ⟨hasty, f, among, rfl, ?_⟩
    cases role : f.role with
    | tween target scope =>
      rcases tells.tints target scope role with remark | ⟨fr, took⟩ | ⟨color, paints⟩
      · exact absurd remark lively
      · rw [Entry.shown?, took] at shows
        exact absurd rfl shows
      · exact ⟨target, scope, color, rfl, paints⟩
    | _ =>
      rw [role] at tween
      cases tween
  gone rest g among := by
    have listed := List.mem_map_of_mem (f := Fiber.calm) among
    rcases later.crew g.calm listed with ⟨f, before, same⟩ | hired
    · have id : f.id = g.id := same.id
      rcases old_or_young before with ⟨f, member, rfl⟩ | young
      · obtain ⟨flag, watches, up⟩ := h.watches member
        rw [← h.flags_launched found nonempty] at up
        have gone := gone_of_rest later alert rest h.launched.order.crewed before watches up
        exact absurd id.symm (gone g.calm listed)
      · exact id ▸ young
    · exact Nat.le_trans (keeps_executeNumber w n).nextFiber hired.id_ge

end

theorem Idles.left {n : Nat} {q : Program} {settles : Bool} {ss : List (HostStep × Bool)}
    (h : w.Idles) (onTime : w.OnTime) (found : resolution w.programs n = .ok q)
    (nonempty : q.commands ≠ []) (rest : w.ComesToRest ((.execute n, settles) :: ss)) (k : Nat) :
    w.Leavings ((w.conducted ((.execute n, settles) :: ss)).turns k) ∧
      (w.Calm ((.execute n, settles) :: ss) →
        w.shownSince ((w.conducted ((.execute n, settles) :: ss)).turns k) =
          w.ownSince ((w.conducted ((.execute n, settles) :: ss)).turns k)) := by
  have launched : (w.executeNumber n).1.OnTime := onTime.along (.single w (.host (.execute n) rfl))
  have pulsed := pulsed_conducted launched ((.look, settles) :: ss)
  have lulled := lulled_conducted launched rest.execute
  rw [conducted_execute]
  generalize (w.executeNumber n).1.conducted ((.look, settles) :: ss) = x at pulsed lulled ⊢
  have play : x.InPlay := (launched.along pulsed).play
  obtain ⟨ps, same⟩ := pulsed.trans (pulsed_turns k x)
  have later := launched.play.later ps
  have alert := (h.alert.pulse h.play (.host (.execute n) rfl)).pulses launched.play ps
  have lulled (unhurried : Unhurried ((.execute n, settles) :: ss) = true) :=
    (lulled unhurried).turns play k
  rw [← same] at lulled ⊢
  refine ⟨h.leavings found nonempty later alert, fun calm => ?_⟩
  refine h.shownSince_eq later fun f member => ?_
  rcases calm with heeding | ⟨waits, unhurried⟩
  · exact h.remarks_of_heeding found nonempty member later (heeding f member)
  · exact h.remarks_of_lulled found nonempty member waits (lulled unhurried)

end World

end SceneScript
