import Mathlib.Data.List.Nodup
import SceneScript.Proofs.Playing
/-!
Every turn of a fiber is a turn of the plot.
-/

namespace SceneScript

def Fiber.leading (f : Fiber) (r : Run) : Lead := ⟨f.id, r, f.todo, f.fault⟩

namespace World

/-- `x` is what a turn of the fiber `f` of run `r` may make of `w`. A fiber that waits for an answer
may have to wait on. -/
structure Turned (f : Fiber) (r : Run) (w x : World) : Prop where
  step : Plot.Plays (f.leading r) (w.plot.lead (f.leading r)) x.plot ∨
    x.plot = w.plot.lead (f.leading r) ∧
      ∃ receiver options rest, f.todo = .answer receiver options :: rest
  left : ∃ w₁, Keeps False w w₁ ∧ Left f w₁ x

variable {w w₁ : World} {f f' : Fiber} {r r' : Run} {a : Act} {rest : List Act}

theorem keeps_noteReply (w : World) (a : Option Reply) : Keeps False w (w.noteReply a) := by
  cases a with
  | none => exact .refl _
  | some => exact keeps_record _ _ False.elim

theorem Turned.goes (role : f.role = .run r) (role' : f'.role = .run r') (id : f'.id = f.id)
    (alone : w₁.leads = []) (kept : Keeps False w w₁)
    (plays : Plot.Plays (f.leading r) (w.plot.lead (f.leading r)) (w₁.plot.lead (f'.leading r'))) :
    Turned f r w (w₁.resume f') where
  step := .inl (plot_resume role' alone ▸ plays)
  left := ⟨w₁, kept, .goes (Fiber.follows_run id role role')⟩

theorem Turned.ends {o : Outcome} (role' : f'.role = .run r) (id : f'.id = f.id)
    (alone : w₁.leads = []) (actor : w.actor = some f.id) (kept : Keeps False w w₁)
    (plays : Plot.Plays (f.leading r) (w.plot.lead (f.leading r))
      ((w₁.plot.lead (f.leading r)).ends (f.leading r) o)) :
    Turned f r w (w₁.conclude f' o) where
  step := by
    have concluded := plot_conclude o role' alone ((kept.actor.trans actor).trans (by rw [id]))
    rw [concluded, id]
    exact .inl plays
  left := ⟨_, kept.trans ((keeps_conclude w₁ o role').weaken False.elim), .gone⟩

/-! ### Acts that leave the script alone -/

theorem leads_of_keeps (kept : Keeps True w w₁) (alone : w.leads = []) : w₁.leads = [] :=
  List.perm_nil.mp (alone ▸ kept.leads)

theorem turned_aside (role : f.role = .run r) (todo : f.todo = a :: rest) (fault : f.fault = none)
    (alone : w.leads = []) (actor : w.actor = some f.id) (aside : a.isAside = true) :
    Turned f r w (w.perform { f with todo := rest } a) := by
  obtain ⟨w₁, kept, goes⟩ := perform_aside w { f with todo := rest } aside
  have alone₁ := leads_of_keeps kept alone
  have plot := kept.plot (by simp [alone])
  have kept' : Keeps False w w₁ := kept.weaken False.elim
  generalize w.perform { f with todo := rest } a = x at goes ⊢
  cases goes with
  | @goes f' g =>
    obtain ⟨new, todo', leaves⟩ := g.todo
    refine .goes role (g.role.trans role) g.id alone₁ kept' ?_
    have fault' : f'.fault = none ∨ ∃ e, f'.fault = some e ∧ a.raises e = true :=
      g.fault.imp_left fun h => h.trans fault
    have leading : f'.leading r = { f.leading r with todo := new ++ rest, fault := f'.fault } := by
      rw [Fiber.leading, todo', g.id]
      rfl
    rw [plot, leading]
    exact .goes todo fault aside leaves fault' kept.nextFiber
  | @waits wait f' b id role' fault' todo' leaves suspends =>
    have leading : f'.leading r = { f.leading r with todo := [b] ++ rest, fault := none } := by
      rw [Fiber.leading, todo', id, show f'.fault = none from fault'.trans fault]
      rfl
    refine ⟨?_, w₁, kept', .waits wait (Fiber.follows_run id role (role'.trans role))
      ⟨fault'.trans fault, _, _, todo', suspends⟩⟩
    rw [plot_park wait (role'.trans role) alone₁, plot]
    show Plot.Plays _ _ (Plot.lead _ (f'.leading r)) ∨ _
    rw [leading]
    exact .inl (.goes todo fault aside (by simpa using leaves) (.inl rfl) kept.nextFiber)
  | @breaks text f' id role' todo' =>
    refine .ends (role'.trans role) id alone₁ actor kept' ?_
    exact .breaks text ((kept.touches (by simp [alone])).lead _) (by simp [Fiber.leading, todo])

/-! ### Choices -/

section

variable (role : f.role = .run r) (fault : f.fault = none) (alone : w.leads = [])
  (actor : w.actor = some f.id)

include role fault alone

theorem turned_offer {options : List String} (todo : f.todo = .offer options :: rest) :
    Turned f r w (w.performOffer { f with todo := rest } options) := by
  unfold performOffer
  split
  · refine .goes role role rfl alone (.refl _) ?_
    exact .refuses _ _ todo fault
  · have offered : Keeps False w { w with slot := (w.slot.offer options.length).1 } :=
      .of_fields rfl rfl rfl rfl rfl rfl rfl rfl .refl False.elim
    refine .goes role role rfl alone offered ?_
    exact .offers (w.slot.offer options.length).2 todo fault

theorem turned_answer {receiver : Nat} {options : List String}
    (todo : f.todo = .answer receiver options :: rest) :
    Turned f r w (w.performAnswer { f with todo := rest } receiver options) := by
  unfold performAnswer
  split
  · have same : Fiber.first { f with todo := rest } [.answer receiver options] = f := by
      cases f
      simp_all [Fiber.first]
    rw [same]
    refine ⟨?_, w, .refl _, .waits _ (Fiber.follows_run rfl role role) ⟨fault, _, _, todo, rfl⟩⟩
    exact .inr ⟨plot_park _ role alone, _, _, _, todo⟩
  · rename_i index _
    have marked : Keeps False w { w with slot := w.slot.mark receiver .spent } :=
      .of_fields rfl rfl rfl rfl rfl rfl rfl rfl .refl False.elim
    refine .goes role role rfl alone marked ?_
    exact .hears index todo fault
  · refine .goes role role rfl alone (.refl _) ?_
    exact .misses _ todo fault

include actor in
theorem turned_chosen {index : Nat} {options : List String}
    (todo : f.todo = .chosen index options :: rest) :
    Turned f r w (w.performChosen { f with todo := rest } index options) := by
  unfold performChosen
  dsimp only
  have plot : ((w.remark (.choiceMade index (options.getD index ""))).emit
      (.choiceMade index)).plot = w.plot.tell (f.leading r) (.event (.choiceMade index)) := by
    rw [emit, plot_record _ rfl, plot_remark, remark, record, actor]
    rfl
  refine .goes role role rfl ((congrArg Plot.leads plot).trans alone)
    ((keeps_remark _ _).trans (keeps_record _ _ False.elim)) ?_
  rw [plot]
  exact .chooses todo fault

/-! ### Callbacks and jumps -/

theorem turned_goto {label : String} (todo : f.todo = .goto label :: rest) :
    Turned f r w (w.performGoto { f with todo := rest } label) := by
  unfold performGoto
  dsimp only
  rw [role]
  dsimp only
  split
  · rename_i place found
    refine .goes role rfl rfl ((congrArg Plot.leads (plot_remark w _)).trans alone)
      (keeps_remark _ _) ?_
    rw [plot_remark]
    exact .jumps todo fault found
  · rename_i e missing
    refine .goes role rfl rfl alone (.refl _) ?_
    exact .strays todo fault missing

include actor in
theorem turned_asked {α : Type} {kind : CallbackKind} {index : Nat} {g : α → Reply}
    {next : α → Fiber} (answer : Answer α) (touched : Plot.Touches w.plot w₁.plot)
    (missed : answer = .unknown → w₁.plot = w.plot) (kept : Keeps False w w₁)
    (todo : f.todo = a :: rest) (asks : a.asks? = some (kind, index))
    (role' : ∀ v, (next v).role = .run r) (id : ∀ v, (next v).id = f.id)
    (plays : ∀ v, Plot.Plays (f.leading r) (w.plot.lead (f.leading r))
      ((w₁.plot.tell (f.leading r) (.replied (g v))).lead ((next v).leading r))) :
    Turned f r w ((w₁.noteReply (answer.reply? g)).afterCall { f with todo := rest } kind index answer
      next) := by
  have alone₁ : w₁.leads = [] := touched.leads.trans alone
  have noted (reply : Reply) : (w₁.noteReply (some reply)).plot =
      w₁.plot.tell (f.leading r) (.replied reply) := by
    rw [noteReply, plot_record _ rfl, kept.actor, actor]
    rfl
  have kept' (reply : Option Reply) : Keeps False w (w₁.noteReply reply) :=
    kept.trans ((keeps_noteReply _ _).weaken False.elim)
  cases answer with
  | value v =>
    refine .goes role (role' v) (id v) ((congrArg Plot.leads (noted _)).trans alone₁) (kept' _) ?_
    rw [Answer.reply?, noted]
    exact plays v
  | panicked text =>
    refine .ends role rfl alone₁ actor (kept' none) ?_
    rw [Answer.reply?, show (w₁.noteReply none).plot = w₁.plot from rfl]
    exact .breaks text (touched.lead _) (by simp [Fiber.leading, todo])
  | unknown =>
    refine .goes role role rfl ((congrArg Plot.leads (noted _)).trans alone₁) (kept' _) ?_
    rw [Answer.reply?, noted, missed rfl]
    exact .unheard todo fault asks

include actor in
theorem turned_branch {predicate : Nat} {otherwise : String}
    (todo : f.todo = .branch predicate otherwise :: rest) :
    Turned f r w (w.performBranch { f with todo := rest } predicate otherwise) := by
  have plot₁ : (w.callPredicate predicate).1.plot = w.plot := by
    unfold callPredicate
    split <;> rfl
  have kept : Keeps False w (w.callPredicate predicate).1 := by
    unfold callPredicate
    split
    · exact .refl _
    · exact keeps_untracked ..
  show Turned f r w (((w.callPredicate predicate).1.noteReply _).afterCall _ _ _
    (w.callPredicate predicate).2 _)
  refine turned_asked role fault alone actor _ (plot₁ ▸ .refl _) (fun _ => plot₁) kept todo rfl
    ?_ ?_ fun holds => ?_
  · intro holds
    cases holds <;> exact role
  · intro holds
    cases holds <;> rfl
  · rw [plot₁]
    cases holds with
    | true => exact .holds todo fault
    | false => exact .turns todo fault

include actor in
theorem turned_switch {selector : Nat} (todo : f.todo = .switch selector :: rest) :
    Turned f r w (w.performSwitch { f with todo := rest } selector) := by
  have plot₁ : (w.callSelector selector).1.plot = w.plot := by
    unfold callSelector
    split <;> rfl
  have kept : Keeps False w (w.callSelector selector).1 := by
    unfold callSelector
    split
    · exact .refl _
    · exact keeps_untracked ..
  show Turned f r w (((w.callSelector selector).1.noteReply _).afterCall _ _ _
    (w.callSelector selector).2 _)
  refine turned_asked role fault alone actor _ (plot₁ ▸ .refl _) (fun _ => plot₁) kept todo rfl
    (fun _ => role) (fun _ => rfl) fun label => ?_
  rw [plot₁]
  exact .switches label todo fault

include actor in
theorem turned_action {action : Nat} (todo : f.todo = .action action :: rest)
    (busy : w.state.executing = true) :
    Turned f r w (w.performAction { f with todo := rest } action) := by
  have called : Plot.Touches w.plot (w.callAction action).1.plot ∧
      ((w.callAction action).2 = .unknown → (w.callAction action).1.plot = w.plot) ∧
      Keeps False w (w.callAction action).1 := by
    unfold callAction
    split
    · exact ⟨.refl _, fun _ => rfl, .refl _⟩
    · exact ⟨touches_runEffects w _ busy (by simp [alone]),
        fun h => absurd h (runEffects_ne_unknown w _), keeps_runEffects w _⟩
  obtain ⟨touched, missed, kept⟩ := called
  show Turned f r w (((w.callAction action).1.noteReply _).afterCall _ _ _ (w.callAction action).2 _)
  refine turned_asked role fault alone actor _ touched missed kept todo rfl (fun _ => role)
    (fun _ => rfl) fun _ => ?_
  have played := Plot.Plays.calls (l := f.leading r) todo fault (touched.lead (f.leading r))
  exact played

end

/-! ### Turns of a run's fiber -/

theorem perform_turned (role : f.role = .run r) (todo : f.todo = a :: rest) (fault : f.fault = none)
    (alone : w.leads = []) (actor : w.actor = some f.id) (busy : w.state.executing = true) :
    Turned f r w (w.perform { f with todo := rest } a) := by
  by_cases aside : a.isAside = true
  · exact turned_aside role todo fault alone actor aside
  cases a with
  | stage call =>
    have told : (Deed.stage call).isIdle = false := by
      cases call <;> simp_all [Act.isAside, Deed.isIdle]
    have plot : (w.stage call).plot = w.plot.tell (f.leading r) (.stage call) := by
      rw [stage, plot_record _ told, actor]
      rfl
    refine .goes role role rfl ((congrArg Plot.leads plot).trans alone)
      (keeps_stage _ _ False.elim) ?_
    rw [plot]
    exact .shows todo fault (by simpa using aside)
  | offer => exact turned_offer role fault alone todo
  | answer => exact turned_answer role fault alone todo
  | chosen => exact turned_chosen role fault alone actor todo
  | branch => exact turned_branch role fault alone actor todo
  | switch => exact turned_switch role fault alone actor todo
  | goto => exact turned_goto role fault alone todo
  | action => exact turned_action role fault alone actor todo busy
  | _ => simp [Act.isAside] at aside

theorem unwind_turned {e : Failure} (role : f.role = .run r) (todo : f.todo = a :: rest)
    (fault : f.fault = some e) (alone : w.leads = []) :
    Turned f r w (w.unwind { f with todo := rest } e a) := by
  obtain ⟨w₁, f', kept, heq, id, role', todo', fault'⟩ := unwind_resumes w { f with todo := rest } e a
  rw [heq]
  refine .goes role (role'.trans role) id (leads_of_keeps kept alone)
    (kept.weaken False.elim) ?_
  have leading : f'.leading r = { f.leading r with todo := rest, fault := f'.fault } := by
    rw [Fiber.leading, todo', id]
    rfl
  rw [kept.plot (by simp [alone]), leading]
  exact .skips todo fault (fault'.imp_left fun h => h.trans fault) kept.nextFiber

theorem fetch_turned (role : f.role = .run r) (todo : f.todo = []) (fault : f.fault = none)
    (alone : w.leads = []) (actor : w.actor = some f.id) : Turned f r w (w.fetch f) := by
  unfold fetch
  rw [role]
  dsimp only
  split
  · rename_i none
    refine .ends role rfl alone actor (.refl _) ?_
    exact .completes todo fault none
  · rename_i c found
    have entered : Keeps False w { w with state := w.state.enter r.pointer c } :=
      .of_fields rfl rfl rfl rfl rfl rfl rfl rfl .refl False.elim
    have kept := (entered.trans (keeps_remark _ (.dispatching r.pointer c.opcode))).trans
      (keeps_record _ (.event (.stepped r.pointer c.opcode)) False.elim)
    have plot : plot (emit (remark { w with state := w.state.enter r.pointer c }
        (.dispatching r.pointer c.opcode)) (.stepped r.pointer c.opcode)) =
        { w.plot with state := w.state.enter r.pointer c }.tell (f.leading r)
          (.event (.stepped r.pointer c.opcode)) := by
      rw [emit, plot_record _ rfl, plot_remark, remark, record]
      show Plot.add _ [⟨w.actor, _⟩] = _
      rw [actor]
      rfl
    refine .goes role rfl rfl ((congrArg Plot.leads plot).trans alone) kept ?_
    rw [plot]
    exact .fetches _ _ todo fault found

theorem advance_turned (role : f.role = .run r) (alone : w.leads = []) (actor : w.actor = some f.id)
    (busy : w.state.executing = true) : Turned f r w (w.advance f) := by
  unfold advance
  split
  · refine .ends role rfl alone actor (.refl _) ?_
    exact .stops
  split
  · rename_i cancelled
    simp [isCancelled, role] at cancelled
  split
  · rename_i todo fault
    exact fetch_turned role todo fault alone actor
  · rename_i e todo fault
    refine .ends role rfl alone actor (.refl _) ?_
    exact .fails todo fault
  · rename_i a rest todo fault
    exact perform_turned role todo fault alone actor busy
  · rename_i a rest e todo fault
    exact unwind_turned role todo fault alone

/-! ### The crew -/

/-- What holds of the fibers between turns. -/
structure Crewed (w : World) : Prop where
  ids : (w.crew.map (·.id)).Nodup
  below : ∀ f ∈ w.crew, f.id < w.nextFiber
  dutiful : ∀ f ∈ w.crew, f.Dutiful
  rests : ∀ b ∈ w.blocked, b.fiber.Stands

theorem stands_of_calm {f f' : Fiber} (h : f'.calm = f.calm) (stands : f'.Stands) : f.Stands := by
  have fault : f'.fault = f.fault := congrArg (·.fault) h
  have todo : f'.todo = f.todo := congrArg (·.todo) h
  unfold Fiber.Stands at *
  rwa [fault, todo] at stands

theorem Crewed.eq_of_id (h : w.Crewed) (member : f ∈ w.crew) (member' : f' ∈ w.crew)
    (same : f.id = f'.id) : f = f' := List.inj_on_of_nodup_map h.ids member member' same

theorem Crewed.lead (h : w.Crewed) {l : Lead} (leads : l ∈ w.leads) (member : f ∈ w.fibers)
    (same : f.id = l.id) : f.lead? = some l := by
  obtain ⟨g, member', lead⟩ := List.mem_filterMap.mp leads
  have id : g.id = l.id := (congrArg Lead.id (lead?_eq_some lead).2).symm
  have calm : f.calm = g.calm :=
    h.eq_of_id (List.mem_map_of_mem member) (List.mem_map_of_mem member') (same.trans id.symm)
  rw [← lead?_calm, calm, lead?_calm, lead]

theorem Crewed.keeps {run : Prop} (h : w.Crewed) (kept : Keeps run w w₁) : w₁.Crewed := by
  obtain ⟨new, perm, nodup, joined⟩ := kept.crew
  refine ⟨?_, fun f hf => ?_, fun f hf => ?_, fun b hb => ?_⟩
  · rw [(perm.map _).nodup_iff, List.map_append, List.nodup_append]
    refine ⟨h.ids, nodup, ?_⟩
    intro i hi j hj
    obtain ⟨f, hf, rfl⟩ := List.mem_map.mp hi
    obtain ⟨g, hg, rfl⟩ := List.mem_map.mp hj
    have old := h.below f hf
    have young := (joined g hg).id_ge
    omega
  · rcases List.mem_append.mp (perm.mem_iff.mp hf) with old | young
    · exact Nat.lt_of_lt_of_le (h.below f old) kept.nextFiber
    · exact (joined f young).id_lt
  · rcases List.mem_append.mp (perm.mem_iff.mp hf) with old | young
    · exact h.dutiful f old
    · exact (joined f young).dutiful
  · obtain ⟨b', hb', -, calm⟩ := kept.blocked b hb
    exact stands_of_calm calm (h.rests b' hb')

theorem Crewed.join {f' : Fiber} {blocked : List Parked} (h : w.Crewed)
    (perm : w₁.crew.Perm (f'.calm :: w.crew)) (fresh : f'.id ∉ w.crew.map (·.id))
    (below : f'.id < w.nextFiber) (nextFiber : w₁.nextFiber = w.nextFiber) (dutiful : f'.Dutiful)
    (parked : w₁.blocked = w.blocked ++ blocked) (stands : ∀ b ∈ blocked, b.fiber.Stands) :
    w₁.Crewed := by
  refine ⟨?_, fun g hg => ?_, fun g hg => ?_, fun b hb => ?_⟩
  · rw [(perm.map _).nodup_iff, List.map_cons, List.nodup_cons]
    exact ⟨fresh, h.ids⟩
  · rw [nextFiber]
    rcases List.mem_cons.mp (perm.mem_iff.mp hg) with rfl | hg
    · exact below
    · exact h.below g hg
  · rcases List.mem_cons.mp (perm.mem_iff.mp hg) with rfl | hg
    · exact dutiful
    · exact h.dutiful g hg
  · rw [parked] at hb
    exact (List.mem_append.mp hb).elim (h.rests b) (stands b)

theorem Crewed.left {x : World} (h : w.Crewed) (fresh : f.id ∉ w.crew.map (·.id))
    (below : f.id < w.nextFiber) (left : Left f w x) : x.Crewed := by
  cases left with
  | gone => exact h
  | @goes f' follows =>
    have id := follows.id
    exact h.join (.refl _) (id ▸ fresh) (id ▸ below) rfl follows.dutiful
      (List.append_nil _).symm (by simp)
  | @waits wait f' follows stands =>
    have id := follows.id
    exact h.join (crew_park w wait f') (id ▸ fresh) (id ▸ below) rfl follows.dutiful rfl
      (by simpa using stands)

theorem fresh_of_keeps {run : Prop} {id : Nat} (kept : Keeps run w w₁)
    (fresh : id ∉ w.crew.map (·.id)) (below : id < w.nextFiber) :
    id ∉ w₁.crew.map (·.id) := by
  obtain ⟨new, perm, -, joined⟩ := kept.crew
  intro member
  obtain ⟨g, hg, rfl⟩ := List.mem_map.mp member
  rcases List.mem_append.mp (perm.mem_iff.mp hg) with old | young
  · exact fresh (List.mem_map_of_mem old)
  · have := (joined g young).id_ge
    omega

/-! ### Turns -/

/-- The world a fiber finds when its turn comes. -/
def taken (w : World) (f : Fiber) (rest : List Fiber) : World :=
  { w with ready := rest, actor := some f.id }

theorem turn_cons {rest : List Fiber} (h : w.ready = f :: rest) :
    w.turn = { (w.taken f rest).advance f with actor := none } := by
  rw [turn, h]
  rfl

theorem resume_taken {rest : List Fiber} (h : w.ready = f :: rest) :
    (w.taken f rest).resume f = { w with actor := some f.id } := by
  rw [taken, resume, ← h]

theorem calm_mem_crew {rest : List Fiber} (ready : w.ready = f :: rest) : f.calm ∈ w.crew := by
  simp [crew, fibers, ready]

theorem role_of_run? {f : Fiber} {r : Run} (h : f.run? = some r) : f.role = .run r := by
  unfold Fiber.run? at h
  split at h
  · cases h
    assumption
  · cases h

/-- When the turn of a run's fiber comes, there is no other. -/
theorem taken_run {rest : List Fiber} (attended : w.plot.Attended) (ready : w.ready = f :: rest)
    (role : f.role = .run r) :
    (w.taken f rest).leads = [] ∧ (w.taken f rest).plot.lead (f.leading r) = w.plot ∧
      w.state.executing = true := by
  have back := resume_taken ready
  have leads : w.leads = f.leading r :: (w.taken f rest).leads := by
    rw [show w.leads = ((w.taken f rest).resume f).leads by rw [back]; rfl]
    show (f :: (w.taken f rest).fibers).filterMap Fiber.lead? = _
    rw [List.filterMap_cons, lead?_of_role role]
    rfl
  have alone : (w.taken f rest).leads = [] := by
    have one : w.leads.length ≤ 1 := attended.1
    rw [leads] at one
    exact List.eq_nil_of_length_eq_zero (by simpa using one)
  refine ⟨alone, ?_, attended.2.mpr ?_⟩
  · rw [← show _ = Plot.lead _ (f.leading r) from plot_resume role alone, back]
    rfl
  · show w.leads ≠ []
    simp [leads]

theorem leads_taken {rest : List Fiber} (attended : w.plot.Attended) (ready : w.ready = f :: rest)
    (role : f.role = .run r) : w.plot.leads = [f.leading r] := by
  obtain ⟨-, plot, -⟩ := taken_run attended ready role
  rw [← plot]
  rfl

theorem turned_turn {rest : List Fiber} (attended : w.plot.Attended) (ready : w.ready = f :: rest)
    (role : f.role = .run r) :
    (Plot.Plays (f.leading r) w.plot w.turn.plot ∨ w.turn.plot = w.plot ∧
      ∃ receiver options rest, f.todo = .answer receiver options :: rest) ∧
    ∃ w₁, Keeps False (w.taken f rest) w₁ ∧ Left f w₁ ((w.taken f rest).advance f) := by
  obtain ⟨alone, plot, busy⟩ := taken_run attended ready role
  have turned : Turned f r (w.taken f rest) ((w.taken f rest).advance f) :=
    advance_turned role alone rfl busy
  have step := turned.step
  rw [plot] at step
  rw [turn_cons ready]
  exact ⟨step, turned.left⟩

/-- The turn of a fiber in the background. -/
theorem touches_turn {rest : List Fiber} (crewed : w.Crewed) (attended : w.plot.Attended)
    (ready : w.ready = f :: rest) (background : f.isRun = false) :
    Plot.Touches w.plot w.turn.plot ∧
      ∃ w₁, Keeps True (w.taken f rest) w₁ ∧ Left f w₁ ((w.taken f rest).advance f) := by
  have back := resume_taken ready
  obtain ⟨w₁, kept, left⟩ := advance_background (w.taken f rest) background
    (show f.calm.Dutiful from crewed.dutiful _ (calm_mem_crew ready))
  have plot : (w.taken f rest).plot = w.plot := by
    rw [← plot_resume_background background, back]
    rfl
  have alone : (w.taken f rest).leads.length ≤ 1 := by
    rw [show (w.taken f rest).leads = w.leads from congrArg Plot.leads plot]
    exact attended.1
  refine ⟨?_, w₁, kept, left⟩
  have touched := kept.touches alone
  rw [plot] at touched
  rw [turn_cons ready]
  show Plot.Touches w.plot ((w.taken f rest).advance f).plot
  generalize (w.taken f rest).advance f = x at left ⊢
  cases left with
  | gone => exact touched
  | goes follows =>
    rw [plot_resume_background (follows.isRun.trans background)]
    exact touched
  | waits wait follows =>
    rw [plot_park_background wait (follows.isRun.trans background)]
    exact touched

theorem turn_cases (w : World) (crewed : w.Crewed) (attended : w.plot.Attended) :
    Plot.Turn w.plot w.turn.plot ∧ (w.turn = w ∨ ∃ f rest w₁ x, w.ready = f :: rest ∧
      Keeps False (w.taken f rest) w₁ ∧ Left f w₁ x ∧ w.turn = { x with actor := none }) := by
  cases ready : w.ready with
  | nil =>
    have still : w.turn = w := by rw [turn, ready]
    rw [still]
    exact ⟨.rests (.refl _), .inl rfl⟩
  | cons f rest =>
    cases role : f.run? with
    | none =>
      have background : f.isRun = false := by simp [Fiber.isRun, role]
      obtain ⟨touched, w₁, kept, left⟩ := touches_turn crewed attended ready background
      exact ⟨.rests touched,
        .inr ⟨f, rest, w₁, _, rfl, kept.weaken False.elim, left, turn_cons ready⟩⟩
    | some r =>
      have role := role_of_run? role
      obtain ⟨step, w₁, kept, left⟩ := turned_turn attended ready role
      refine ⟨?_, .inr ⟨f, rest, w₁, _, rfl, kept, left, turn_cons ready⟩⟩
      rcases step with plays | ⟨same, -⟩
      · exact .plays (leads_taken attended ready role) plays
      · exact .rests (same ▸ .refl _)

theorem Crewed.taken {rest : List Fiber} (h : w.Crewed) (ready : w.ready = f :: rest) :
    (w.taken f rest).Crewed ∧ f.id ∉ (w.taken f rest).crew.map (·.id) ∧ f.id < w.nextFiber := by
  have crew : w.crew = f.calm :: (w.taken f rest).crew := by
    simp [World.crew, fibers, World.taken, ready]
  have ids := h.ids
  rw [crew, List.map_cons, List.nodup_cons] at ids
  exact ⟨⟨ids.2, fun g hg => h.below g (by simp [crew, hg]),
    fun g hg => h.dutiful g (by simp [crew, hg]), h.rests⟩, ids.1, h.below f.calm (by simp [crew])⟩

theorem Crewed.turn (h : w.Crewed) (attended : w.plot.Attended) : w.turn.Crewed := by
  obtain ⟨-, same | ⟨f, rest, w₁, x, ready, kept, left, heq⟩⟩ := turn_cases w h attended
  · rw [same]
    exact h
  obtain ⟨taken, alone, below⟩ := h.taken ready
  have fresh : f.id ∉ w₁.crew.map (·.id) := fresh_of_keeps kept alone below
  have last := (taken.keeps kept).left fresh (Nat.lt_of_lt_of_le below kept.nextFiber) left
  rw [heq]
  exact ⟨last.ids, last.below, last.dutiful, last.rests⟩

end World

end SceneScript
