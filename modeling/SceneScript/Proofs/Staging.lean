import SceneScript.Proofs.Work
/-!
What is shown. In its turn a fiber makes the calls on the stage that its next act stands for
(`Act.calls`), and a run that ends gives the host's input and cursor back (`calls_turn`).
-/

namespace SceneScript

/-! ### Calls -/

namespace Paint

/-- A sample on the way, at this share of it. -/
def calls (share : Float32) : Paint → List StageCall
  | .tint target start stop => [.setColor target (start.lerp stop share)]
  | _ => []

def lastCalls : Paint → List StageCall
  | .tint target _ stop => [.setColor target stop]
  | _ => []

end Paint

/-- Calls that are made for nothing but the stage acts of a script. -/
def StageCall.isScripted : StageCall → Bool
  | .setInputBlocked _ | .setCursorVisible _ | .animationFinished _ | .setColor .. | .setTimerText _ =>
    false
  | .playAnimation a => a != .timerTextEnter && a != .timerTextExit
  | _ => true

/-- The call that the fiber's next act stands for by itself. -/
def Fiber.nextCall? (f : Fiber) : Option StageCall :=
  match f.todo, f.fault with
  | .stage call :: _, none => some call
  | _, _ => none

/-- A run that ends lets the host's input through and shows its cursor. -/
def Fiber.partingCalls (f : Fiber) : List StageCall :=
  if f.isRun then [.setInputBlocked false, .setCursorVisible true] else []

/-- A run makes none when it goes on with its next command. -/
def Fiber.fetchCalls (f : Fiber) : List StageCall :=
  match f.role with
  | .run r => if r.pointer < r.program.commands.length then [] else f.partingCalls
  | _ => []

namespace World

/-- The sweep has taken all the time there is. -/
def bursts (w : World) (f : Fiber) (s : Sweep) : Bool :=
  match w.feed.pull (f.place w.feed s.lane) with
  | .frame fr _ _ => (s.take? fr).isNone
  | _ => false

def countCalls (w : World) (timer : Nat) (due : Option Span) : List StageCall :=
  match w.timers[timer]? with
  | none => []
  | some t =>
    if w.flags.isRaised t.stop then []
    else if t.left.isExpired then [.playAnimation .timerTextExit]
    else if due.getD (w.now + w.settings.tickPeriod) ≤ w.now then [.setTimerText t.left.tick.1.text]
    else []

/-- The calls on the stage that an act stands for. -/
def actCalls (w : World) (f : Fiber) : Act → List StageCall
  | .stage call => [call]
  | .finish a => if w.rig.gatedStage && w.permits == 0 then [] else [.animationFinished a]
  | .sweep s => if s.elapsed < s.span then s.paint.calls s.share else s.paint.lastCalls
  | .stride s => if w.bursts f s then f.partingCalls else []
  | .timer c => [.playAnimation .timerTextEnter, .setTimerText c.text]
  | .count timer due => w.countCalls timer due
  | a => if w.callPanics a then f.partingCalls else []

/-- The calls of a fiber that nobody told to stop. -/
def nextCalls (w : World) (f : Fiber) : List StageCall :=
  match f.todo, f.fault with
  | [], none => f.fetchCalls
  | [], some _ => f.partingCalls
  | a :: _, none => w.actCalls f a
  | _ :: _, some _ => []

/-- The calls on the stage that a fiber makes in its turn. -/
def turnCalls (w : World) (f : Fiber) : List StageCall :=
  if f.doomed then f.partingCalls else if w.isCancelled f then [] else w.nextCalls f

/-- What was shown so far. -/
def shown (w : World) : List StageCall := w.entries.filterMap (·.deed.stage?)

variable {w w₁ : World} {f : Fiber}

theorem shown_record (w : World) (d : Deed) : (w.record d).shown = w.shown ++ d.stage?.toList := by
  rw [shown, entries, record, Array.toList_push, List.filterMap_append]
  cases h : d.stage? <;> simp [shown, entries, h]

theorem shown_record_aside (w : World) {d : Deed} (aside : d.stage? = none) :
    (w.record d).shown = w.shown := by
  rw [shown_record, aside, Option.toList_none, List.append_nil]

@[simp] theorem shown_stage (w : World) (c : StageCall) : (w.stage c).shown = w.shown ++ [c] :=
  shown_record w _

@[simp] theorem shown_remark (w : World) (r : Remark) : (w.remark r).shown = w.shown :=
  shown_record_aside w rfl

@[simp] theorem shown_emit (w : World) (e : Event) : (w.emit e).shown = w.shown :=
  shown_record_aside w rfl

@[simp] theorem shown_note (w : World) (n : Note) : (w.note n).shown = w.shown :=
  shown_record_aside w rfl

theorem shown_chores {w' : World} (chores : Chores (· ≠ .stage) w w') : w'.shown = w.shown := by
  refine chores.view World.shown fun {w w'} chore => ?_
  have unseen {d : Deed} (other : d.part? ≠ some .stage) : (w.record d).shown = w.shown := by
    refine shown_record_aside w ?_
    unfold Deed.part? at other
    cases d <;> simp_all [Deed.stage?]
  cases chore with
  | tells d aside => exact unseen (by simp [aside])
  | shows p part other => exact unseen (by simpa [part] using other)
  | _ => rfl

theorem shown_noteReply (w : World) (r : Option Reply) : (w.noteReply r).shown = w.shown :=
  shown_chores (chores_noteReply w r)

@[simp] theorem shown_resume (w : World) (f : Fiber) : (w.resume f).shown = w.shown := rfl

@[simp] theorem shown_park (w : World) (wait : Wait) (f : Fiber) :
    (w.park wait f).shown = w.shown := rfl

@[simp] theorem shown_raise (w : World) (flag : Nat) : (w.raise flag).shown = w.shown := rfl

/-! ### Effects in the background -/

theorem shown_startCountdown (w : World) (c : Countdown) : (w.startCountdown c).shown =
    w.shown ++ [.playAnimation .timerTextEnter, .setTimerText c.text] := by
  unfold startCountdown
  dsimp only
  have steady (w : World) (flags : Flags) (timers : Array Timer) :
      shown { w with flags, timers } = w.shown := rfl
  refine (shown_chores (chores_spawn _ _ _ rfl)).trans ?_
  simp only [steady, shown_remark, shown_stage, shown_chores (chores_stopCountdown w),
    List.append_assoc, List.cons_append, List.nil_append]

/-! ### Paint -/

theorem shown_paint (w : World) (share : Float32) (p : Paint) :
    (w.paint share p).shown = w.shown ++ p.calls share := by
  cases p with
  | nothing | volume => exact (List.append_nil _).symm
  | tint => exact shown_stage w _
  | board => exact (shown_chores (chores_setBoard w _ nofun)).trans (List.append_nil _).symm

theorem shown_paintLast (w : World) (p : Paint) :
    (w.paintLast p).shown = w.shown ++ p.lastCalls := by
  cases p with
  | nothing | volume => exact (List.append_nil _).symm
  | tint => exact shown_stage w _
  | board => exact (shown_chores (chores_setBoard w _ nofun)).trans (List.append_nil _).symm

/-! ### Choices and runs -/

theorem shown_settleIdle (w : World) : w.settleIdle.shown =
    w.shown ++ [.setInputBlocked false, .setCursorVisible true] := by
  have reset : shown { w with state := w.state.reset } = w.shown := rfl
  rw [settleIdle, shown_stage, shown_stage, shown_chores (chores_closeSlot _), reset,
    List.append_assoc]
  rfl

theorem shown_concludeRun (w : World) (o : Outcome) : (w.concludeRun o).shown =
    w.shown ++ [.setInputBlocked false, .setCursorVisible true] := by
  cases o <;> simp [concludeRun, shown_settleIdle]

theorem partingCalls_of_run?_eq_none (background : f.run? = none) : f.partingCalls = [] := by
  rw [Fiber.partingCalls, Fiber.isRun, background]
  rfl

theorem shown_conclude (w : World) (f : Fiber) (o : Outcome) :
    (w.conclude f o).shown = w.shown ++ f.partingCalls := by
  have yielded : (w.yieldScene f).shown = w.shown := by
    unfold yieldScene
    split <;> rfl
  rw [← yielded]
  unfold conclude
  cases role : f.role with
  | run r =>
    rw [Fiber.partingCalls, if_pos (f.isRun_iff.mpr ⟨r, role⟩)]
    exact (shown_record_aside _ rfl).trans (shown_concludeRun _ o)
  | countdown => rw [partingCalls_of_run?_eq_none (by rw [Fiber.run?, role]), List.append_nil]
  | tween | load =>
    rw [partingCalls_of_run?_eq_none (by rw [Fiber.run?, role]), List.append_nil]
    cases o <;> first | rfl | exact shown_record_aside _ rfl
  | fade =>
    rw [partingCalls_of_run?_eq_none (by rw [Fiber.run?, role]), List.append_nil]
    dsimp only
    split <;> rfl

/-! ### Callbacks -/

theorem shown_runEffect (w : World) (e : Effect) (busy : w.state.executing = true) :
    (w.runEffect e).shown = w.shown := by
  cases e with
  | set | add | setChosen | panic => rfl
  | note | view => exact shown_note w _
  | register kind => cases kind <;> exact shown_note _ _
  | select index => exact (shown_note _ _).trans (shown_chores (chores_select w index))
  | execute n =>
    rcases execute_cases w (w.programs.getD n (.ofCommands [])) with
      ⟨e, rm, q, refused, -⟩ | ⟨q, idle, -⟩
    · rw [runEffect, executeNumber, refused]
      exact (shown_note _ _).trans (shown_remark w rm)
    · rw [busy] at idle
      cases idle

theorem shown_runEffects (w : World) (es : List Effect) (busy : w.state.executing = true) :
    (w.runEffects es).1.shown = w.shown := by
  fun_induction runEffects w es with
  | case1 | case2 => rfl
  | case3 w e rest _ ih =>
    rw [ih (busy_runEffect w e busy).2, shown_runEffect w e busy]

theorem shown_callAction (w : World) (index : Nat) (busy : w.state.executing = true) :
    (w.callAction index).1.shown = w.shown := by
  unfold callAction
  split
  · rfl
  · exact shown_runEffects w _ busy

theorem shown_afterCall {α : Type} (w : World) (f : Fiber) (kind : CallbackKind) (index : Nat)
    (an : Answer α) (next : α → Fiber) : (w.afterCall f kind index an next).shown =
      w.shown ++ if an.isPanic then f.partingCalls else [] := by
  cases an with
  | value | unknown => simp [afterCall, Answer.isPanic]
  | panicked text => exact shown_conclude w f (.panicked text)

/-! ### Acts -/

theorem shown_takeFrame (w : World) (f : Fiber) (lane : Lane) (act : Act)
    (next : World → Fiber → Frame → World) (calls : Frame → List StageCall)
    (goes : ∀ w₁ c fr, (next w₁ (f.setCursor lane c) fr).shown = w₁.shown ++ calls fr) :
    (w.takeFrame f lane act next).shown = w.shown ++
      match w.feed.pull (f.place w.feed lane) with
      | .frame fr _ _ => calls fr
      | _ => [] := by
  unfold takeFrame Fiber.place
  cases w.feed.pull ((f.cursorOn lane).getD w.feed.subscribe) with
  | waiting | closed => simp
  | frame fr c missed =>
    rw [goes _ c fr, shown_record_aside _ rfl, shown_chores (chores_lagged w missed)]

theorem partingCalls_setCursor (f : Fiber) (lane : Lane) (c : Cursor) :
    (f.setCursor lane c).partingCalls = f.partingCalls := by
  cases lane <;> rfl

theorem shown_performStride (w : World) (f : Fiber) (s : Sweep) : (w.performStride f s).shown =
    w.shown ++ if w.bursts f s then f.partingCalls else [] := by
  let calls (fr : Frame) := if (s.take? fr).isNone then f.partingCalls else []
  refine (shown_takeFrame w f s.lane _ _ calls fun w₁ c fr => ?_).trans ?_
  · cases taken : s.take? fr with
    | some s' => simp [calls, taken]
    | none =>
      simpa [calls, taken, partingCalls_setCursor] using
        shown_conclude w₁ (f.setCursor s.lane c) (.panicked overflowText)
  · rw [bursts]
    cases w.feed.pull (f.place w.feed s.lane) <;> rfl

theorem shown_performCount (w : World) (f : Fiber) (timer : Nat) (due : Option Span) :
    (w.performCount f timer due).shown = w.shown ++ w.countCalls timer due := by
  unfold performCount countCalls
  cases w.timers[timer]? with
  | none => simp
  | some t =>
    dsimp only
    by_cases raised : w.flags.isRaised t.stop = true
    · by_cases expired : t.left.isExpired = true <;> simp [raised, expired, timeOut]
    · by_cases expired : t.left.isExpired = true
      · simp [raised, expired, timeOut]
      · have modified (c : Countdown) : (w.modifyTimer timer c).shown = w.shown := rfl
        simp only [raised, expired, Bool.false_eq_true, if_false]
        split <;> simp [modified]

theorem shown_performFinish (w : World) (f : Fiber) (a : Animation) :
    (w.performFinish f a).shown = w.shown ++ w.actCalls f (.finish a) := by
  rw [performFinish, actCalls]
  split
  · simp
  · rw [shown_resume, shown_stage]
    split <;> rfl

theorem actCalls_quiet (w : World) (f : Fiber) {a : Act} (quiet : a.isLoud = false) :
    w.actCalls f a = [] := by
  cases a <;> first | rfl | cases quiet

theorem shown_perform_quiet (w : World) (f : Fiber) {a : Act} (quiet : a.isLoud = false) :
    (w.perform f a).shown = w.shown := by
  refine shown_chores (chores_perform ?_)
  rintro p needs rfl
  cases needs with
  | shows _ loud => simp [quiet] at loud
  | loads _ _ _ among => simp at among

theorem shown_perform (w : World) (f : Fiber) (a : Act)
    (busy : ∀ action, a = .action action → w.state.executing = true) :
    (w.perform f a).shown = w.shown ++ w.actCalls f a := by
  have called {α : Type} {x : World} (kind : CallbackKind) (index : Nat) (an : Answer α)
      (r : Option Reply) (next : α → Fiber) (same : x.shown = w.shown) :
      ((x.noteReply r).afterCall f kind index an next).shown =
        w.shown ++ if an.isPanic then f.partingCalls else [] := by
    rw [shown_afterCall, shown_noteReply, same]
  cases loud : a.isLoud with
  | false => rw [shown_perform_quiet w f loud, actCalls_quiet w f loud, List.append_nil]
  | true =>
    cases a with
    | stage call => exact shown_stage w call
    | finish a => exact shown_performFinish w f a
    | sweep s =>
      show (w.performSweep f s).shown = _ ++ if _ then _ else _
      unfold performSweep
      split
      · exact shown_paint w _ s.paint
      · exact shown_paintLast w s.paint
    | stride s => exact shown_performStride w f s
    | timer c => exact shown_startCountdown w c
    | count timer due => exact shown_performCount w f timer due
    | branch predicate =>
      exact called _ _ _ _ _ (shown_chores (chores_callPredicate w predicate))
    | switch selector => exact called _ _ _ _ _ (shown_chores (chores_callSelector w selector))
    | action action => exact called _ _ _ _ _ (shown_callAction w action (busy action rfl))
    | _ => cases loud

theorem shown_unwind (w : World) (f : Fiber) (e : Failure) (a : Act) :
    (w.unwind f e a).shown = w.shown :=
  shown_chores (chores_unwind (fun _ => nofun) w e (fun _ => nofun) (fun _ _ => nofun)
    fun _ _ => nofun)

theorem shown_fetch (w : World) (f : Fiber) : (w.fetch f).shown = w.shown ++ f.fetchCalls := by
  unfold fetch Fiber.fetchCalls
  cases role : f.role with
  | run r =>
    dsimp only
    cases found : r.program.commands[r.pointer]? with
    | none =>
      rw [if_neg (Nat.not_lt.mpr (List.getElem?_eq_none_iff.mp found))]
      exact shown_conclude w f _
    | some c =>
      rw [if_pos (List.getElem?_eq_some_iff.mp found).1]
      have entered : shown { w with state := w.state.enter r.pointer c } = w.shown := rfl
      simp [entered]
  | tween | countdown | fade | load =>
    have none := shown_conclude w f .completed
    rwa [partingCalls_of_run?_eq_none (by rw [Fiber.run?, role])] at none

theorem shown_advance (w : World) (f : Fiber)
    (busy : ∀ a ∈ f.todo.head?, a.asks?.isSome = true → w.state.executing = true) :
    (w.advance f).shown = w.shown ++ w.turnCalls f := by
  unfold advance
  split
  · rename_i doomed
    rw [turnCalls, if_pos doomed]
    exact shown_conclude w f _
  rename_i spared
  split
  · rename_i cancelled
    rw [turnCalls, if_neg spared, if_pos cancelled, noteCancelled]
    split <;> simp
  rename_i going
  rw [turnCalls, if_neg spared, if_neg going]
  split
  · rename_i todo fault
    rw [nextCalls, todo, fault]
    exact shown_fetch w f
  · rename_i e todo fault
    rw [nextCalls, todo, fault]
    exact shown_conclude w f _
  · rename_i a rest todo fault
    have calls : w.nextCalls f = w.actCalls { f with todo := rest } a := by
      rw [nextCalls, todo, fault]
      cases a <;> rfl
    rw [calls]
    exact shown_perform w _ a fun action same =>
      busy a (by simp [todo]) (by simp [same, Act.asks?])
  · rename_i a rest e todo fault
    rw [nextCalls, todo, fault, List.append_nil]
    exact shown_unwind w _ e a

/-! ### Turns -/

/-- The calls that a fiber has made. -/
def calls (w : World) (id : Nat) : List StageCall := tale Deed.stage? id w.entries

theorem shown_turn (order : w.InOrder) {rest : List Fiber} (ready : w.ready = f :: rest) :
    w.turn.shown = w.shown ++ (w.taken f rest).turnCalls f := by
  have busy (a : Act) (head : a ∈ f.todo.head?) (asks : a.asks?.isSome = true) :
      (w.taken f rest).state.executing = true := by
    obtain ⟨r, role⟩ := order.run_of_act ready (List.mem_of_mem_head? head)
      (Act.isAside_of_asks (Option.some_get asks).symm)
    exact order.staged.attended.2.mpr (by simp [leads_taken order.staged.attended ready role])
  rw [turn_cons ready]
  exact shown_advance _ f busy

/-- In its turn a fiber makes the calls that its next act stands for. -/
theorem calls_turn (order : w.InOrder) {rest : List Fiber} (ready : w.ready = f :: rest) :
    w.turn.calls f.id = w.calls f.id ++ (w.taken f rest).turnCalls f := by
  obtain ⟨es, grown, own⟩ := entries_turn order ready
  have told : tale Deed.stage? f.id es = es.filterMap (·.deed.stage?) :=
    List.filterMap_congr fun e among => if_pos (own e among)
  have shown : w.shown ++ es.filterMap (·.deed.stage?) =
      w.shown ++ (w.taken f rest).turnCalls f := by
    rw [← shown_turn order ready, World.shown, World.shown, grown, List.filterMap_append]
  rw [calls, calls, grown, tale_append, told, List.append_cancel_left shown]

/-! ### Calls of the script -/

section

variable {α : Type} {g : StageCall → Option α}

theorem filterMap_unscripted (scripted : ∀ c, c.isScripted = false → g c = none)
    (calls : List StageCall) (other : ∀ c ∈ calls, c.isScripted = false) :
    calls.filterMap g = [] :=
  List.filterMap_eq_nil_iff.mpr fun c among => scripted c (other c among)

theorem filterMap_partingCalls (scripted : ∀ c, c.isScripted = false → g c = none) (f : Fiber) :
    f.partingCalls.filterMap g = [] := by
  refine filterMap_unscripted scripted _ ?_
  unfold Fiber.partingCalls
  split <;> simp [StageCall.isScripted]

theorem filterMap_actCalls (scripted : ∀ c, c.isScripted = false → g c = none) (w : World)
    (f : Fiber) (a : Act) : (w.actCalls f a).filterMap g = (match a with
      | .stage call => g call
      | _ => none).toList := by
  have parting (c : Bool) : (if c then f.partingCalls else []).filterMap g = [] := by
    cases c
    · rfl
    · exact filterMap_partingCalls scripted f
  have quiet := filterMap_unscripted scripted
  have panics := parting (w.callPanics a)
  cases a with
  | stage call =>
    show [call].filterMap g = (g call).toList
    cases made : g call <;> simp [made]
  | finish =>
    refine quiet _ ?_
    rw [actCalls]
    split <;> simp [StageCall.isScripted]
  | sweep s =>
    refine quiet _ ?_
    rw [actCalls]
    split <;> cases s.paint <;> simp [Paint.calls, Paint.lastCalls, StageCall.isScripted]
  | stride s => exact parting (w.bursts f s)
  | timer => exact quiet _ (by simp [actCalls, StageCall.isScripted])
  | count timer due =>
    refine quiet _ ?_
    rw [actCalls, countCalls]
    split
    · simp
    · split
      · simp
      · split
        · simp [StageCall.isScripted]
        · split <;> simp [StageCall.isScripted]
  | _ => exact panics

/-- Of the calls that are made for stage acts, a fiber makes none in its turn but the one of its next
act. -/
theorem filterMap_turnCalls (scripted : ∀ c, c.isScripted = false → g c = none) (w : World)
    (f : Fiber) : (w.turnCalls f).filterMap g =
      (if f.doomed || w.isCancelled f then none else f.nextCall?.bind g).toList := by
  unfold turnCalls
  cases f.doomed with
  | true => exact filterMap_partingCalls scripted f
  | false =>
    cases w.isCancelled f with
    | true => rfl
    | false =>
      show (w.nextCalls f).filterMap g = (f.nextCall?.bind g).toList
      unfold nextCalls Fiber.nextCall?
      split
      · rename_i todo fault
        rw [todo]
        unfold Fiber.fetchCalls
        split
        · split
          · rfl
          · exact filterMap_partingCalls scripted f
        · rfl
      · rename_i todo fault
        rw [todo]
        exact filterMap_partingCalls scripted f
      · rename_i a rest todo fault
        rw [todo, fault, filterMap_actCalls scripted]
        cases a <;> rfl
      · rename_i a rest e todo fault
        rw [todo, fault]
        cases a <;> rfl

theorem filterMap_calls_turn (scripted : ∀ c, c.isScripted = false → g c = none) (order : w.InOrder)
    {rest : List Fiber} (ready : w.ready = f :: rest) : (w.turn.calls f.id).filterMap g =
      (w.calls f.id).filterMap g ++
        (if f.doomed || w.isCancelled f then none else f.nextCall?.bind g).toList := by
  rw [calls_turn order ready, List.filterMap_append, filterMap_turnCalls scripted]
  rfl

end

end World

end SceneScript
