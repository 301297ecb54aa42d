import Mathlib.Data.List.Basic
import SceneScript.Proofs.Backdrop
/-!
The fibers of a performance, and work that leaves most of it alone.

`Keeps run w w'` says that `w'` comes from `w` by work of the fiber whose turn it is, or of the host:
fibers may be woken, asked to stop or added, the chronicle grows, and the background is stirred. With
`run` the work leaves the script alone: the state of the run, the choice slot and the programs.
-/

namespace SceneScript

/-! ### Duties -/

namespace Act

def isScenic : Act → Bool
  | .remark _ | .load _ | .hushMusic _ | .watchBoard | .switchScene _ | .enterScene _ | .release
  | .clearBoard _ => true
  | .sweep s | .stride s =>
    match s.paint with
    | .board .. => true
    | _ => false
  | _ => false

/-- Acts that leave the state of the run and the host's interaction alone. -/
def isAside : Act → Bool
  | .stage (.setCursorVisible _) | .stage (.setInputBlocked _) => false
  | .offer _ | .answer .. | .chosen .. | .branch .. | .switch _ | .goto _ | .action _ => false
  | _ => true

end Act

def Role.allows : Role → Act → Bool
  | .run _, _ => false
  | .tween target _, .sweep s | .tween target _, .stride s =>
    match s.paint with
    | .tint t _ _ => t = target
    | _ => false
  | .countdown timer _, .count t _ => t = timer
  | .fade channel, .sweep s | .fade channel, .stride s =>
    match s.paint with
    | .volume c => c = channel
    | _ => false
  | .fade channel, .silence c => c = channel
  | .load _, a => a.isScenic
  | _, _ => false

namespace Fiber

def calm (f : Fiber) : Fiber := { f with doomed := false }

def isRun (f : Fiber) : Bool := f.run?.isSome

def Dutiful (f : Fiber) : Prop := f.isRun = false → ∀ a ∈ f.todo, f.role.allows a = true

@[simp] theorem calm_id (f : Fiber) : f.calm.id = f.id := rfl
@[simp] theorem calm_role (f : Fiber) : f.calm.role = f.role := rfl
@[simp] theorem calm_todo (f : Fiber) : f.calm.todo = f.todo := rfl
@[simp] theorem calm_fault (f : Fiber) : f.calm.fault = f.fault := rfl
@[simp] theorem calm_isRun (f : Fiber) : f.calm.isRun = f.isRun := rfl
@[simp] theorem calm_watches (f : Fiber) : f.calm.watches = f.watches := rfl
@[simp] theorem calm_calm (f : Fiber) : f.calm.calm = f.calm := rfl

/-- Fibers that are calmed alike agree in whatever calming leaves as it is. -/
theorem eq_of_calm {α : Type} {f g : Fiber} (calm : g.calm = f.calm) (field : Fiber → α)
    (blind : ∀ h : Fiber, field h.calm = field h) : field g = field f := by
  rw [← blind g, calm, blind]

@[simp] theorem calm_doom (id : Nat) (f : Fiber) : (World.doom id f).calm = f.calm := by
  unfold World.doom
  split <;> rfl

theorem isRun_iff (f : Fiber) : f.isRun = true ↔ ∃ r, f.role = .run r := by
  unfold isRun run?
  cases f.role <;> simp

theorem isRun_eq_false_iff (f : Fiber) : f.isRun = false ↔ ∀ r, f.role ≠ .run r := by
  unfold isRun run?
  cases f.role <;> simp

theorem dutiful_of_isRun {f : Fiber} (h : f.isRun = true) : f.Dutiful := by
  intro hn
  rw [h] at hn
  cases hn

end Fiber

/-- Deeds that tell nothing of the run: no event but the end of a countdown, no switch of the host's
interaction, no word of a callback and no outcome. -/
def Deed.isIdle : Deed → Bool
  | .event e => e = .countdownTimedOut
  | .stage (.setCursorVisible _) | .stage (.setInputBlocked _) => false
  | .note _ | .replied _ | .outcome .. => false
  | _ => true

namespace World

/-- Every fiber that has not ended. A request to stop is left out: it shows only at the next turn. -/
def crew (w : World) : List Fiber := w.fibers.map Fiber.calm

def entries (w : World) : List Entry := w.chronicle.toList

structure Recruit (run : Prop) (w w' : World) (f : Fiber) : Prop where
  id_ge : w.nextFiber ≤ f.id
  id_lt : f.id < w'.nextFiber
  calm : f.calm = f
  dutiful : f.Dutiful
  background : run → f.isRun = false
  hired : ∃ b b', Backdrop.Stirs w.backdrop b ∧ Backdrop.Stirs b b' ∧ Backdrop.Stirs b' w'.backdrop ∧
    b.Hires b' f.role

structure Keeps (run : Prop) (w w' : World) : Prop where
  settings : w'.settings = w.settings
  rig : w'.rig = w.rig
  hasty : w'.hasty = w.hasty
  actor : w'.actor = w.actor
  nextFiber : w.nextFiber ≤ w'.nextFiber
  crew : ∃ new : List Fiber, w'.crew.Perm (w.crew ++ new) ∧ (new.map (·.id)).Nodup ∧
    ∀ f ∈ new, Recruit run w w' f
  blocked : ∀ b ∈ w'.blocked, ∃ b' ∈ w.blocked, b'.wait = b.wait ∧ b'.fiber.calm = b.fiber.calm
  entries : ∃ es : List Entry, w'.entries = w.entries ++ es ∧
    ∀ e ∈ es, e.author = w.actor ∧ (run → e.deed.isIdle = true)
  stirs : Backdrop.Stirs w.backdrop w'.backdrop
  script : run → w'.state = w.state ∧ w'.slot = w.slot ∧ w'.programs = w.programs ∧ w'.runs = w.runs

variable {run : Prop} {w w' w'' : World}

theorem Keeps.of_fields (settings : w'.settings = w.settings) (rig : w'.rig = w.rig)
    (hasty : w'.hasty = w.hasty) (actor : w'.actor = w.actor)
    (nextFiber : w'.nextFiber = w.nextFiber) (ready : w'.ready = w.ready)
    (blocked : w'.blocked = w.blocked) (chronicle : w'.chronicle = w.chronicle)
    (stirs : Backdrop.Stirs w.backdrop w'.backdrop)
    (script : run → w'.state = w.state ∧ w'.slot = w.slot ∧ w'.programs = w.programs ∧
      w'.runs = w.runs) :
    Keeps run w w' where
  settings := settings
  rig := rig
  hasty := hasty
  actor := actor
  nextFiber := Nat.le_of_eq nextFiber.symm
  crew := ⟨[], by simp [World.crew, fibers, ready, blocked], by simp, by simp⟩
  blocked := fun b hb => ⟨b, blocked ▸ hb, rfl, rfl⟩
  entries := ⟨[], by simp [World.entries, chronicle], by simp⟩
  stirs := stirs
  script := script

theorem Keeps.refl (w : World) : Keeps run w w :=
  .of_fields rfl rfl rfl rfl rfl rfl rfl rfl .refl fun _ => ⟨rfl, rfl, rfl, rfl⟩

theorem keeps_untracked (w : World) (feed : Feed) (now : Span) (registry : Registry) (vars : Vars)
    (mixer : Mixer) (loading : Bool) (boardColor : Color) (sceneFails : Bool)
    (permits releases loads : Nat) :
    Keeps run w { w with
      feed, now, registry, vars, mixer, loading, boardColor, sceneFails, permits, releases, loads } :=
  .of_fields rfl rfl rfl rfl rfl rfl rfl rfl .refl fun _ => ⟨rfl, rfl, rfl, rfl⟩

theorem Keeps.trans (first : Keeps run w w') (second : Keeps run w' w'') :
    Keeps run w w'' where
  settings := second.settings.trans first.settings
  rig := second.rig.trans first.rig
  hasty := second.hasty.trans first.hasty
  actor := second.actor.trans first.actor
  nextFiber := Nat.le_trans first.nextFiber second.nextFiber
  crew := by
    obtain ⟨new, perm, nodup, joined⟩ := first.crew
    obtain ⟨new', perm', nodup', joined'⟩ := second.crew
    refine ⟨new ++ new', ?_, ?_, ?_⟩
    · rw [← List.append_assoc]
      exact perm'.trans (perm.append_right _)
    · rw [List.map_append, List.nodup_append]
      refine ⟨nodup, nodup', ?_⟩
      intro i hi j hj
      obtain ⟨f, hf, rfl⟩ := List.mem_map.mp hi
      obtain ⟨g, hg, rfl⟩ := List.mem_map.mp hj
      have below := (joined f hf).id_lt
      have above := (joined' g hg).id_ge
      omega
    · intro f hf
      rcases List.mem_append.mp hf with hf | hf
      · have old := joined f hf
        obtain ⟨b, b', before, within, after, hires⟩ := old.hired
        exact { old with
          id_lt := Nat.lt_of_lt_of_le old.id_lt second.nextFiber
          hired := ⟨b, b', before, within, after.trans second.stirs, hires⟩ }
      · have young := joined' f hf
        obtain ⟨b, b', before, within, after, hires⟩ := young.hired
        exact { young with
          id_ge := Nat.le_trans first.nextFiber young.id_ge
          hired := ⟨b, b', first.stirs.trans before, within, after, hires⟩ }
  blocked := by
    intro b hb
    obtain ⟨b', hb', wait, calm⟩ := second.blocked b hb
    obtain ⟨b'', hb'', wait', calm'⟩ := first.blocked b' hb'
    exact ⟨b'', hb'', wait'.trans wait, calm'.trans calm⟩
  entries := by
    obtain ⟨es, heq, hes⟩ := first.entries
    obtain ⟨es', heq', hes'⟩ := second.entries
    refine ⟨es ++ es', by rw [heq', heq, List.append_assoc], ?_⟩
    intro e he
    rcases List.mem_append.mp he with he | he
    · exact hes e he
    · rw [← first.actor]
      exact hes' e he
  stirs := first.stirs.trans second.stirs
  script := by
    intro h
    obtain ⟨a, b, c, d⟩ := first.script h
    obtain ⟨a', b', c', d'⟩ := second.script h
    exact ⟨a'.trans a, b'.trans b, c'.trans c, d'.trans d⟩

/-! ### The chronicle -/

theorem keeps_record (w : World) (d : Deed) (idle : run → d.isIdle = true) :
    Keeps run w (w.record d) :=
  { Keeps.refl w with
    crew := ⟨[], by simp [World.crew, fibers, record], by simp, by simp⟩
    entries := ⟨[⟨w.actor, d⟩], by simp [World.entries, record], by simpa using idle⟩ }

theorem keeps_remark (w : World) (r : Remark) : Keeps run w (w.remark r) :=
  keeps_record w _ fun _ => rfl

theorem keeps_stage (w : World) (c : StageCall) (idle : run → (Deed.stage c).isIdle = true) :
    Keeps run w (w.stage c) :=
  keeps_record w _ idle

/-! ### Fibers -/

theorem crew_park (w : World) (wait : Wait) (f : Fiber) :
    (w.park wait f).crew.Perm (f.calm :: w.crew) := by
  simp only [crew, fibers, park, List.map_append, List.map_cons, List.map_nil, ← List.append_assoc]
  exact List.perm_append_singleton _ _

theorem crew_wake (w : World) (p : Parked → Bool) : (w.wake p).crew.Perm w.crew := by
  simp only [crew, fibers, wake, List.map_append, List.append_assoc]
  refine List.Perm.append_left _ ?_
  rw [← List.map_append, ← List.map_append]
  exact ((List.filter_append_perm p w.blocked).map _).map _

theorem keeps_wake (w : World) (p : Parked → Bool) : Keeps run w (w.wake p) :=
  { Keeps.refl w with
    crew := ⟨[], by simpa using crew_wake w p, by simp, by simp⟩
    blocked := fun b hb => ⟨b, (List.mem_filter.mp hb).1, rfl, rfl⟩
    entries := ⟨[], by simp [World.entries, wake], by simp⟩ }

theorem keeps_abort (w : World) (id : Nat) : Keeps run w (w.abort id) := by
  unfold abort
  refine Keeps.trans ?_ (keeps_wake _ _)
  exact
    { Keeps.refl w with
      crew := by
        refine ⟨[], ?_, by simp, by simp⟩
        simp only [crew, fibers, List.map_append, List.map_map, List.append_nil]
        refine List.Perm.of_eq ?_
        congr 1 <;> exact List.map_congr_left fun f _ => Fiber.calm_doom id _
      blocked := by
        intro b hb
        obtain ⟨b', hb', rfl⟩ := List.mem_map.mp hb
        exact ⟨b', hb', rfl, (Fiber.calm_doom id _).symm⟩ }

theorem keeps_raise (w : World) (flag : Nat) : Keeps run w (w.raise flag) := by
  have raised : Keeps run w { w with flags := w.flags.raise flag } :=
    .of_fields rfl rfl rfl rfl rfl rfl rfl rfl (.single (.raises flag)) fun _ => ⟨rfl, rfl, rfl, rfl⟩
  exact raised.trans (keeps_wake _ _)

theorem keeps_hire (w : World) (flags : Flags) (timers : Array Timer) (role : Role)
    (cursor : Option Cursor) (todo : List Act)
    (stirs : Backdrop.Stirs w.backdrop { w.backdrop with flags, timers })
    (recruit : Recruit run w ({ w with flags, timers }.spawn role cursor todo)
      (.start w.nextFiber role cursor todo)) :
    Keeps run w ({ w with flags, timers }.spawn role cursor todo) :=
  { Keeps.refl w with
    nextFiber := Nat.le_succ _
    crew := by
      refine ⟨[.start w.nextFiber role cursor todo], ?_, by simp, by simpa using recruit⟩
      simp only [crew, fibers, spawn, List.map_append, List.append_assoc, List.map_cons, List.map_nil]
      exact List.Perm.append_left _ List.perm_append_comm
    blocked := fun b hb => ⟨b, hb, rfl, rfl⟩
    entries := ⟨[], by simp [World.entries, spawn], by simp⟩
    stirs }

theorem keeps_spawn (w : World) (role : Role) (cursor : Option Cursor) (todo : List Act)
    (recruit : Recruit run w (w.spawn role cursor todo) (.start w.nextFiber role cursor todo)) :
    Keeps run w (w.spawn role cursor todo) :=
  keeps_hire w w.flags w.timers role cursor todo .refl recruit

end World

end SceneScript
