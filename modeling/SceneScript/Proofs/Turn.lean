import SceneScript.Proofs.Aside
/-!
What a turn can do. Most acts leave the script alone (`perform_aside`); a fiber in the background
never does anything else (`advance_background`).
-/

namespace SceneScript

namespace Act

/-- Acts before which a fiber stands while it waits. -/
def suspends : Act → Bool
  | .finish _ | .stride _ | .confirm | .answer .. | .enterScene _ | .count .. => true
  | _ => false

/-- Acts that are over at once and put no others in their place. -/
def isInstant : Act → Bool
  | .finish _ | .sweep _ | .stride _ | .reveal _ | .confirm | .offer _ | .answer .. | .chosen ..
  | .branch .. | .switch _ | .count .. | .load _ | .enterScene _ | .clearBoard _ => false
  | _ => true

/-- `a.Leaves b` if a fiber that does `a` may then have `b` to do in its place. -/
inductive Leaves : Act → Act → Prop where
  | stays {a : Act} : a.suspends = true → Leaves a a
  | takes (s : Sweep) : Leaves (.sweep s) (.stride s)
  | paints {s s' : Sweep} : s'.paint = s.paint → Leaves (.stride s) (.sweep s')
  | shows (r : Reveal) (n : Nat) : Leaves (.reveal r) (.stage (r.call n))
  | pauses (r : Reveal) (span : Span) : Leaves (.reveal r) (.sweep (.pause span))
  | reveals (r r' : Reveal) : Leaves (.reveal r) (.reveal r')
  | counts (timer : Nat) (due due' : Option Span) : Leaves (.count timer due) (.count timer due')
  | loads {job : SceneJob} {a : Act} : a ∈ job.acts → Leaves (.load job) a
  | clears (span span' : Span) (color : Color) (start stop : Float32) :
      Leaves (.clearBoard span) (.sweep (.start .board (.board color start stop) span'))

def raises : Act → Failure → Bool
  | .stride _, .frameSourceClosed | .confirm, .frameSourceClosed => true
  | .load _, .sceneLoadInProgress | .load _, .scene _ | .enterScene _, .scene _ => true
  | _, _ => false

def catches : Act → Bool
  | .loaded _ | .silence _ => true
  | _ => false

theorem isScenic_of_mem_acts {job : SceneJob} {a : Act} (h : a ∈ job.acts) : a.isScenic = true := by
  simp only [SceneJob.acts, List.mem_append, List.mem_cons, List.not_mem_nil, or_false] at h
  rcases h with h | rfl | rfl | rfl | rfl | rfl | rfl | rfl
  · split at h
    · rw [List.mem_singleton.mp h]
      rfl
    · cases h
  all_goals rfl

theorem isAside_of_isScenic {a : Act} (h : a.isScenic = true) : a.isAside = true := by
  cases a <;> simp_all [isScenic, isAside]

theorem Leaves.isAside {a b : Act} (h : a.Leaves b) (aside : a.isAside = true) :
    b.isAside = true := by
  cases h with
  | stays => exact aside
  | takes | paints | pauses | reveals | counts | clears => rfl
  | shows r => cases hk : r.kind <;> simp [Reveal.call, hk, Act.isAside]
  | loads mem => exact isAside_of_isScenic (isScenic_of_mem_acts mem)

theorem Leaves.not_isInstant {a b : Act} (h : a.Leaves b) : a.isInstant = false := by
  cases h with
  | stays h => cases a <;> simp_all [suspends, isInstant]
  | takes | paints | shows | pauses | reveals | counts | loads | clears => rfl

end Act

def Fiber.Stands (f : Fiber) : Prop :=
  f.fault = none ∧ ∃ a rest, f.todo = a :: rest ∧ a.suspends = true

structure Fiber.Follows (f f' : Fiber) : Prop where
  id : f'.id = f.id
  isRun : f'.isRun = f.isRun
  role : f.isRun = false → f'.role = f.role
  dutiful : f'.Dutiful

theorem Fiber.follows_run {f f' : Fiber} {r r' : Run} (id : f'.id = f.id) (role : f.role = .run r)
    (role' : f'.role = .run r') : f.Follows f' := by
  have run := f.isRun_iff.mpr ⟨r, role⟩
  have run' := f'.isRun_iff.mpr ⟨r', role'⟩
  exact { id, isRun := run'.trans run.symm, role := by simp [run], dutiful := dutiful_of_isRun run' }

namespace Role

theorem isAside_of_allows {role : Role} {a : Act} (h : role.allows a = true) : a.isAside = true := by
  cases role <;> cases a <;> simp_all [allows, Act.isAside, Act.isScenic]

theorem allows_of_leaves {role : Role} {a b : Act} (h : role.allows a = true) (leaves : a.Leaves b) :
    role.allows b = true := by
  cases leaves with
  | stays => exact h
  | takes s => cases role <;> simp_all [allows, Act.isScenic]
  | paints same => cases role <;> simp_all [allows, Act.isScenic]
  | shows | pauses | reveals => cases role <;> simp_all [allows, Act.isScenic]
  | counts => cases role <;> simp_all [allows, Act.isScenic]
  | loads mem =>
    cases role with
    | load => exact Act.isScenic_of_mem_acts mem
    | run | tween | countdown | fade => simp [allows] at h
  | clears => cases role <;> simp_all [allows, Act.isScenic, Sweep.start]

end Role

namespace World

variable {run : Prop}

theorem Keeps.weaken {run' : Prop} {w w' : World} (h : Keeps run w w') (hr : run' → run) :
    Keeps run' w w' :=
  { h with
    crew := by
      obtain ⟨new, perm, nodup, joined⟩ := h.crew
      refine ⟨new, perm, nodup, fun f hf => ?_⟩
      have j := joined f hf
      exact { j with background := j.background ∘ hr }
    entries := by
      obtain ⟨es, heq, hes⟩ := h.entries
      exact ⟨es, heq, fun e he => ⟨(hes e he).1, (hes e he).2 ∘ hr⟩⟩
    script := h.script ∘ hr }

structure Goes (a : Act) (f f' : Fiber) : Prop where
  id : f'.id = f.id
  role : f'.role = f.role
  todo : ∃ new : List Act, f'.todo = new ++ f.todo ∧ ∀ b ∈ new, a.Leaves b
  fault : f'.fault = f.fault ∨ ∃ e, f'.fault = some e ∧ a.raises e = true

theorem Goes.same {a : Act} {f f' : Fiber} (id : f'.id = f.id) (role : f'.role = f.role)
    (todo : f'.todo = f.todo) (fault : f'.fault = f.fault) : Goes a f f' :=
  ⟨id, role, ⟨[], by simpa using todo, by simp⟩, .inl fault⟩

theorem Goes.fail (a : Act) (f : Fiber) (e : Failure) (h : a.raises e = true) :
    Goes a f (f.fail e) :=
  ⟨rfl, rfl, ⟨[], rfl, by simp⟩, .inr ⟨e, rfl, h⟩⟩

theorem Goes.first {a : Act} (f : Fiber) {new : List Act} (h : ∀ b ∈ new, a.Leaves b) :
    Goes a f (f.first new) :=
  ⟨rfl, rfl, ⟨new, rfl, h⟩, .inl rfl⟩

/-- How the turn of a fiber goes on after an act that leaves the script alone. -/
inductive Continues (a : Act) (f : Fiber) (w : World) : World → Prop where
  | goes {f' : Fiber} : Goes a f f' → Continues a f w (w.resume f')
  | waits (wait : Wait) {f' : Fiber} {b : Act} : f'.id = f.id → f'.role = f.role →
      f'.fault = f.fault → f'.todo = b :: f.todo → a.Leaves b → b.suspends = true →
      Continues a f w (w.park wait f')
  | breaks (text : String) {f' : Fiber} : f'.id = f.id → f'.role = f.role → f'.todo = f.todo →
      Continues a f w (w.conclude f' (.panicked text))

theorem Continues.again {a : Act} {f f' : Fiber} {w : World} (id : f'.id = f.id)
    (role : f'.role = f.role) (todo : f'.todo = f.todo) (fault : f'.fault = f.fault) :
    Continues a f w (w.resume f') :=
  .goes (.same id role todo fault)

/-! ### Frames -/

theorem setCursor_fields (f : Fiber) (lane : Lane) (c : Cursor) :
    (f.setCursor lane c).id = f.id ∧ (f.setCursor lane c).role = f.role ∧
      (f.setCursor lane c).todo = f.todo ∧ (f.setCursor lane c).fault = f.fault := by
  cases lane <;> exact ⟨rfl, rfl, rfl, rfl⟩

theorem keeps_lagged (w : World) (missed : Nat) : Keeps run w (w.lagged missed) := by
  unfold lagged
  split
  · exact .refl _
  · exact keeps_remark _ _

theorem takeFrame_cases (w : World) (f : Fiber) (lane : Lane) (act : Act)
    (next : World → Fiber → Frame → World) (a : Act) (stays : a.Leaves act)
    (suspends : act.suspends = true) (closed : a.raises .frameSourceClosed = true)
    (goes : ∀ w f' fr, f'.id = f.id → f'.role = f.role → f'.todo = f.todo → f'.fault = f.fault →
      Continues a f w (next w f' fr)) :
    ∃ w₁, Keeps run w w₁ ∧ Continues a f w₁ (w.takeFrame f lane act next) := by
  unfold takeFrame
  split
  · exact ⟨w, .refl _, .waits _ rfl rfl rfl rfl stays suspends⟩
  · exact ⟨w, .refl _, .goes (.fail _ _ _ closed)⟩
  · rename_i fr c missed _
    obtain ⟨id, role, todo, fault⟩ := setCursor_fields f lane c
    exact ⟨_, (keeps_lagged w missed).trans (keeps_record _ _ fun _ => rfl),
      goes _ _ fr id role todo fault⟩

/-! ### Sweeps -/

theorem keeps_paint (w : World) (share : Float32) (p : Paint) :
    Keeps run w (w.paint share p) := by
  cases p with
  | nothing => exact .refl _
  | tint => exact keeps_stage _ _ fun _ => rfl
  | board => exact keeps_setBoard _ _
  | volume => exact keeps_modifyStrip _ _ _

theorem keeps_paintLast (w : World) (p : Paint) : Keeps run w (w.paintLast p) := by
  cases p with
  | nothing | volume => exact .refl _
  | tint => exact keeps_stage _ _ fun _ => rfl
  | board => exact keeps_setBoard _ _

theorem performSweep_aside (w : World) (f : Fiber) (s : Sweep) :
    ∃ w₁, Keeps run w w₁ ∧ Continues (.sweep s) f w₁ (w.performSweep f s) := by
  unfold performSweep
  split
  · exact ⟨_, keeps_paint _ _ _, .goes (.first f (by simpa using .takes s))⟩
  · exact ⟨_, keeps_paintLast _ _, .again rfl rfl rfl rfl⟩

theorem take?_paint {s s' : Sweep} {fr : Frame} (h : s.take? fr = some s') : s'.paint = s.paint := by
  obtain ⟨elapsed, -, rfl⟩ := Option.map_eq_some_iff.mp h
  rfl

theorem performStride_aside (w : World) (f : Fiber) (s : Sweep) :
    ∃ w₁, Keeps run w w₁ ∧ Continues (.stride s) f w₁ (w.performStride f s) := by
  unfold performStride
  refine takeFrame_cases w f s.lane (.stride s) _ (.stride s) (.stays rfl) rfl rfl ?_
  intro w f' fr id role todo fault
  split
  · rename_i s' taken
    refine .goes ⟨id, role, ⟨[.sweep s'], by rw [← todo]; rfl, ?_⟩, .inl fault⟩
    simpa using .paints (take?_paint taken)
  · exact .breaks _ id role todo

/-! ### Text -/

theorem performReveal_aside (w : World) (f : Fiber) (r : Reveal) :
    ∃ w₁, Keeps run w w₁ ∧ Continues (.reveal r) f w₁ (w.performReveal f r) := by
  unfold performReveal
  split
  · exact ⟨w, .refl _, .again rfl rfl rfl rfl⟩
  split
  · split
    · exact ⟨_, keeps_remark _ _, .again rfl rfl rfl rfl⟩
    · exact ⟨w, .refl _, .again rfl rfl rfl rfl⟩
  · refine ⟨w, .refl _, .goes (.first f ?_)⟩
    simpa using ⟨.shows r _, .pauses r _, .reveals r _⟩

theorem performConfirm_aside (w : World) (f : Fiber) :
    ∃ w₁, Keeps run w w₁ ∧ Continues .confirm f w₁ (w.performConfirm f) := by
  unfold performConfirm
  refine takeFrame_cases w f .own .confirm _ .confirm (.stays rfl) rfl rfl ?_
  intro w f' fr id role todo fault
  split
  · exact .again id role todo fault
  · refine .goes ⟨id, role, ⟨[.confirm], by rw [← todo]; rfl, ?_⟩, .inl fault⟩
    simpa using .stays rfl

/-! ### Scenes -/

theorem keeps_loading (w : World) (loading : Bool) : Keeps run w { w with loading } :=
  keeps_untracked ..

theorem performLoad_aside (w : World) (f : Fiber) (job : SceneJob) :
    ∃ w₁, Keeps run w w₁ ∧ Continues (.load job) f w₁ (w.performLoad f job) := by
  unfold performLoad
  split
  · exact ⟨_, keeps_record _ _ fun _ => rfl, .again rfl rfl rfl rfl⟩
  · exact ⟨w, .refl _, .goes (.fail _ _ _ rfl)⟩
  · split
    · exact ⟨_, keeps_remark _ _, .goes (.fail _ _ _ rfl)⟩
    · exact ⟨_, (keeps_loading _ _).trans (keeps_maskBoard _ _),
        .goes (.first f fun _ => .loads)⟩

theorem performHushMusic_aside (w : World) (f : Fiber) (span : Span) :
    ∃ w₁, Keeps run w w₁ ∧ Continues (.hushMusic span) f w₁ (w.performHushMusic f span) := by
  have kept : Keeps run w (w.fadeOut .bgm span).1 := keeps_fadeOut w .bgm span
  unfold performHushMusic
  split
  · rename_i w₁ h
    rw [h] at kept
    exact ⟨_, kept, .again rfl rfl rfl rfl⟩
  · rename_i w₁ e h
    rw [h] at kept
    exact ⟨_, kept.trans (keeps_remark _ _), .again rfl rfl rfl rfl⟩

theorem keeps_spendRelease (w : World) : Keeps run w w.spendRelease := by
  unfold spendRelease
  split
  · exact keeps_untracked ..
  · exact .refl _

theorem performEnterScene_aside (w : World) (f : Fiber) (scene : String) :
    ∃ w₁, Keeps run w w₁ ∧ Continues (.enterScene scene) f w₁ (w.performEnterScene f scene) := by
  have kept : Keeps run _ (w.spendRelease.enterScene scene).1 := keeps_enterScene _ scene
  unfold performEnterScene
  split
  · exact ⟨w, .refl _, .waits _ rfl rfl rfl rfl (.stays rfl) rfl⟩
  split
  · rename_i w₁ h
    rw [h] at kept
    exact ⟨_, (keeps_spendRelease w).trans kept, .again rfl rfl rfl rfl⟩
  · rename_i w₁ e h
    rw [h] at kept
    refine ⟨_, (keeps_spendRelease w).trans kept, .goes (.fail _ _ _ ?_)⟩
    unfold enterScene at h
    split at h
    · cases h; rfl
    · split at h <;> cases h
      rfl

theorem keeps_release (w : World) : Keeps run w { w.maskBoard false with loading := false } :=
  (keeps_maskBoard w false).trans (keeps_loading _ _)

theorem performRelease_aside (w : World) (f : Fiber) (a : Act) :
    ∃ w₁, Keeps run w w₁ ∧ Continues a f w₁ (w.performRelease f) :=
  ⟨_, keeps_release w, .again rfl rfl rfl rfl⟩

/-! ### Effects in the background -/

theorem performFinish_aside (w : World) (f : Fiber) (a : Animation) :
    ∃ w₁, Keeps run w w₁ ∧ Continues (.finish a) f w₁ (w.performFinish f a) := by
  have spent : Keeps run w (if w.rig.gatedStage then { w with permits := w.permits - 1 } else w) := by
    split
    · exact keeps_untracked ..
    · exact .refl _
  unfold performFinish
  split
  · exact ⟨w, .refl _, .waits _ rfl rfl rfl rfl (.stays rfl) rfl⟩
  · exact ⟨_, spent.trans (keeps_stage _ _ fun _ => rfl), .again rfl rfl rfl rfl⟩

theorem performHush_aside (w : World) (f : Fiber) (channel : Channel) (span : Span) :
    ∃ w₁, Keeps run w w₁ ∧
      Continues (.hush channel span) f w₁ (w.performHush f channel span) := by
  have kept : Keeps run w (w.fadeOut channel span).1 := keeps_fadeOut w channel span
  unfold performHush
  split
  · rename_i w₁ h
    rw [h] at kept
    exact ⟨_, kept, .again rfl rfl rfl rfl⟩
  · rename_i w₁ e h
    rw [h] at kept
    exact ⟨_, kept.trans (keeps_remark _ _), .again rfl rfl rfl rfl⟩

theorem performTween_aside (w : World) (f : Fiber) (target : Target) (span : Span)
    (start stop : Color) :
    ∃ w₁, Keeps run w w₁ ∧ Continues (.tween target span start stop) f w₁
      (w.performTween f target span start stop) := by
  refine ⟨_, keeps_spawn _ _ _ _ ?_, .again rfl rfl rfl rfl⟩
  exact
    { id_ge := Nat.le_refl _
      id_lt := Nat.lt_succ_self _
      calm := rfl
      dutiful := by simp [Fiber.Dutiful, Fiber.start, Role.allows, Sweep.start]
      background := fun _ => rfl
      hired := ⟨_, _, .refl, .refl, .refl, rfl⟩ }

theorem keeps_modifyTimer (w : World) (timer : Nat) (c : Countdown) :
    Keeps run w (w.modifyTimer timer c) :=
  .of_fields rfl rfl rfl rfl rfl rfl rfl rfl (.single (.ticks timer c)) fun _ => ⟨rfl, rfl, rfl, rfl⟩

theorem keeps_timeOut (w : World) (stop : Nat) : Keeps run w (w.timeOut stop) := by
  unfold timeOut
  split
  · exact .refl _
  · exact (((keeps_raise _ _).trans (keeps_remark _ _)).trans (keeps_stage _ _ fun _ => rfl)).trans
      (keeps_record _ _ fun _ => rfl)

theorem performCount_aside (w : World) (f : Fiber) (timer : Nat) (due : Option Span) :
    ∃ w₁, Keeps run w w₁ ∧
      Continues (.count timer due) f w₁ (w.performCount f timer due) := by
  unfold performCount
  split
  · exact ⟨w, .refl _, .again rfl rfl rfl rfl⟩
  dsimp only
  split
  · exact ⟨_, keeps_timeOut _ _, .again rfl rfl rfl rfl⟩
  split
  · exact ⟨_, keeps_remark _ _, .again rfl rfl rfl rfl⟩
  split
  · refine ⟨_, (keeps_modifyTimer _ _ _).trans (keeps_stage _ _ fun _ => rfl), .goes (.first f ?_)⟩
    simpa using .counts timer due _
  · exact ⟨w, .refl _, .waits _ rfl rfl rfl rfl (.counts _ _ _) rfl⟩

/-! ### Every act that leaves the script alone -/

theorem perform_aside (w : World) (f : Fiber) {a : Act} (aside : a.isAside = true) :
    ∃ w₁, Keeps True w w₁ ∧ Continues a f w₁ (w.perform f a) := by
  cases a with
  | remark r => exact ⟨_, keeps_remark _ _, .again rfl rfl rfl rfl⟩
  | stage call =>
    refine ⟨_, keeps_stage _ call ?_, .again rfl rfl rfl rfl⟩
    cases call <;> simp_all [Act.isAside, Deed.isIdle]
  | finish a => exact performFinish_aside w f a
  | resync => exact ⟨w, .refl _, .again rfl rfl rfl rfl⟩
  | sweep s => exact performSweep_aside w f s
  | stride s => exact performStride_aside w f s
  | listen => exact ⟨w, .refl _, .again rfl rfl rfl rfl⟩
  | reveal r => exact performReveal_aside w f r
  | confirm => exact performConfirm_aside w f
  | offer | answer | chosen | branch | switch | goto | action => cases aside
  | tween target span start stop => exact performTween_aside w f target span start stop
  | play channel clip pitch => exact ⟨_, keeps_play _ _ _ _, .again rfl rfl rfl rfl⟩
  | hush channel span => exact performHush_aside w f channel span
  | timer c => exact ⟨_, keeps_startCountdown _ _, .again rfl rfl rfl rfl⟩
  | stopTimer =>
    exact ⟨_, (keeps_remark _ _).trans (keeps_stopCountdown _), .again rfl rfl rfl rfl⟩
  | count timer due => exact performCount_aside w f timer due
  | load job => exact performLoad_aside w f job
  | loaded => exact ⟨w, .refl _, .again rfl rfl rfl rfl⟩
  | hushMusic span => exact performHushMusic_aside w f span
  | watchBoard => exact ⟨w, .refl _, .again rfl rfl rfl rfl⟩
  | switchScene => exact ⟨_, keeps_record _ _ fun _ => rfl, .again rfl rfl rfl rfl⟩
  | enterScene scene => exact performEnterScene_aside w f scene
  | release => exact performRelease_aside w f .release
  | clearBoard span =>
    refine ⟨w, .refl _, .goes ⟨rfl, rfl, ⟨_, rfl, ?_⟩, .inl rfl⟩⟩
    simpa using .clears span span _ _ _
  | silence => exact ⟨_, keeps_silence _ _, .again rfl rfl rfl rfl⟩

/-! ### Errors -/

theorem unwind_resumes (w : World) (f : Fiber) (e : Failure) (a : Act) :
    ∃ w₁ f', Keeps True w w₁ ∧ w.unwind f e a = w₁.resume f' ∧ f'.id = f.id ∧
      f'.role = f.role ∧ f'.todo = f.todo ∧
      (f'.fault = f.fault ∨ a.catches = true ∧ f'.fault = none) := by
  unfold unwind
  split
  · exact ⟨_, _, keeps_release w, rfl, rfl, rfl, rfl, .inl rfl⟩
  · exact ⟨_, _, keeps_remark _ _, rfl, rfl, rfl, rfl, .inr ⟨rfl, rfl⟩⟩
  · exact ⟨_, _, (keeps_remark _ _).trans (keeps_silence _ _), rfl, rfl, rfl, rfl, .inr ⟨rfl, rfl⟩⟩
  · exact ⟨w, f, .refl _, rfl, rfl, rfl, rfl, .inl rfl⟩

/-! ### Fibers in the background -/

theorem keeps_yieldScene (w : World) (f : Fiber) : Keeps run w (w.yieldScene f) := by
  unfold yieldScene
  split
  · exact keeps_loading _ _
  · exact .refl _

theorem conclude_background (w : World) {f : Fiber} (o : Outcome) (h : f.isRun = false) :
    Keeps run w (w.conclude f o) := by
  refine (keeps_yieldScene w f).trans ?_
  unfold conclude
  dsimp only
  split
  · rename_i r role
    exact absurd role ((Fiber.isRun_eq_false_iff f).mp h r)
  · exact keeps_remark _ _
  · split
    · exact keeps_setFade _ _ _
    · exact .refl _
  · exact .refl _
  · exact keeps_record _ _ fun _ => rfl
  · exact .refl _

inductive Left (f : Fiber) (w : World) : World → Prop where
  | gone : Left f w w
  | goes {f' : Fiber} : f.Follows f' → Left f w (w.resume f')
  | waits (wait : Wait) {f' : Fiber} : f.Follows f' → f'.Stands → Left f w (w.park wait f')

theorem advance_background (w : World) {f : Fiber} (h : f.isRun = false) (dutiful : f.Dutiful) :
    ∃ w₁, Keeps True w w₁ ∧
      Left f w₁ (w.advance f) := by
  have done (o : Outcome) : ∃ w₁, Keeps True w w₁ ∧
      Left f w₁ (w.conclude f o) := ⟨_, conclude_background w o h, .gone⟩
  have allowed := dutiful h
  have follows {f' : Fiber} (id : f'.id = f.id) (role : f'.role = f.role)
      (ok : ∀ a ∈ f'.todo, f.role.allows a = true) : f.Follows f' :=
    { id, isRun := by simp [Fiber.isRun, Fiber.run?, role], role := fun _ => role,
      dutiful := fun _ a ha => role ▸ ok a ha }
  unfold advance
  split
  · exact done .cancelled
  split
  · unfold noteCancelled
    split
    · exact ⟨_, keeps_remark _ _, .gone⟩
    · exact ⟨w, .refl _, .gone⟩
  split
  · rename_i todo _
    unfold fetch
    split
    · rename_i r role
      exact absurd role ((Fiber.isRun_eq_false_iff f).mp h r)
    · exact done .completed
  · exact done _
  · rename_i a rest todo fault
    have duty : f.role.allows a = true := allowed a (by simp [todo])
    have duties : ∀ b ∈ rest, f.role.allows b = true := fun b hb => allowed b (by simp [todo, hb])
    obtain ⟨w₁, kept, goes⟩ := perform_aside w { f with todo := rest } (Role.isAside_of_allows duty)
    generalize w.perform { f with todo := rest } a = w₂ at goes ⊢
    cases goes with
    | goes g =>
      refine ⟨w₁, kept, .goes (follows g.id g.role ?_)⟩
      obtain ⟨new, todo', leaves⟩ := g.todo
      intro b hb
      rw [todo'] at hb
      rcases List.mem_append.mp hb with hb | hb
      · exact Role.allows_of_leaves duty (leaves b hb)
      · exact duties b hb
    | waits wait id role fault' todo' leaves suspends =>
      refine ⟨w₁, kept, .waits wait (follows id role ?_) ⟨fault'.trans fault, _, _, todo', suspends⟩⟩
      intro b hb
      rw [todo'] at hb
      rcases List.mem_cons.mp hb with rfl | hb
      · exact Role.allows_of_leaves duty leaves
      · exact duties b hb
    | breaks text id role todo' =>
      have idle := (Fiber.isRun_eq_false_iff _).mpr (role ▸ (Fiber.isRun_eq_false_iff f).mp h)
      exact ⟨_, kept.trans (conclude_background _ _ idle), .gone⟩
  · rename_i a rest e todo fault
    obtain ⟨w₁, f', kept, heq, same, role, todo', -⟩ := unwind_resumes w { f with todo := rest } e a
    rw [heq]
    refine ⟨w₁, kept, .goes (follows same role ?_)⟩
    intro b hb
    rw [todo'] at hb
    exact allowed b (by simp [todo, show b ∈ rest from hb])

end World

end SceneScript
