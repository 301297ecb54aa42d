import SceneScript.Proofs.Voyage
/-!
The showcase from its opening to its end. All that the host does between two frames is a sequence of
deals, and in each of them the world stays on course and nothing can fail (`deals_pass`). So one frame
leads to the next (`Sailed.playFrame`), and by induction on the frames that are left the host ends in one
of three ways (`play_arrives`).
-/

namespace SceneScript

namespace World

theorem withdraw_stopCountdown (w : World) : w.withdraw.stopCountdown = w.stopCountdown.withdraw := by
  unfold stopCountdown withdraw
  dsimp only
  cases w.timers.back? <;> rfl

theorem withdraw_renewScope (w : World) : w.withdraw.renewScope = w.renewScope.withdraw := by
  have stopped := withdraw_stopCountdown (w.freshScope.raise w.scope)
  unfold renewScope
  dsimp only
  by_cases strict : w.settings.cancelStaleEffects = true
  · rw [if_pos (by exact strict), if_pos (by exact strict)]
    exact stopped
  · rw [if_neg (by exact strict), if_neg (by exact strict)]
    rfl

theorem withdraw_launch (w : World) (q : Program) : w.withdraw.launch q = (w.launch q).withdraw := by
  have renewed : w.withdraw.begun.renewScope = w.begun.renewScope.withdraw :=
    withdraw_renewScope w.begun
  unfold launch
  rw [renewed]
  rfl

end World

namespace Showcase

open Plot

variable {setup : Setup} {hasty : Nat → Bool} {w w' : World}

/-! ### The opening -/

theorem OnCourse.withdraw (h : OnCourse setup w) : OnCourse setup w.withdraw where
  play := h.play.withdraw
  pace := h.pace
  manned := h.manned
  settings := h.settings
  moored := h.moored.of_stock rfl
  handed := h.handed.onward fun handing => handing.beside
    ⟨rfl, rfl, rfl, .refl _, rfl, fun b among run => ⟨b, among, run, rfl⟩⟩
  time := h.time
  unharmed := h.unharmed
  unstopped := h.unstopped
  chart := by
    cases h.chart with
    | underway leads number program silent stage => exact .underway leads number program silent stage
    | completed alone ended picked met => exact .completed alone ended picked met
    | refused alone ended few => exact .refused alone ended few

/-- A host that has the cutscene among its programs. -/
def stand (setup : Setup) (hasty : Nat → Bool) : Opening :=
  ⟨setup.settings, rig, Feed.defaultBacklog, hasty, (harbour .empty).1, [harbourCommands 0 0 0]⟩

def started (setup : Setup) (hasty : Nat → Bool) : World :=
  (stand setup hasty).world.pulses [.host (.execute 0) rfl]

theorem execute_harbour (idle : w.state.executing = false) :
    w.execute (.ofCommands (harbourCommands 0 0 0)) = (w.launch cutscene, cutscene, .ok w.runs) := by
  rw [World.execute, if_neg (by exact nofun), if_neg (by simp [idle]), preprocess_harbour]
  rfl

theorem executeNumber_stand (setup : Setup) (hasty : Nat → Bool) :
    ∃ programs, (stand setup hasty).world.executeNumber 0 =
      ({ (stand setup hasty).world.launch cutscene with programs }, .ok 0) := by
  have cast : (stand setup hasty).world.programs.getD 0 (.ofCommands []) =
      .ofCommands (harbourCommands 0 0 0) := rfl
  have executed := execute_harbour (w := (stand setup hasty).world) rfl
  generalize (stand setup hasty).world.launch cutscene = v at executed ⊢
  rw [World.executeNumber, cast, executed]
  exact ⟨_, rfl⟩

theorem opening_eq (setup : Setup) (hasty : Nat → Bool) : Host.opening setup hasty =
    (started setup hasty).withdraw.remark (.cutsceneStarted cutscene.length) := by
  obtain ⟨programs, executed⟩ := executeNumber_stand setup hasty
  have started : (started setup hasty).withdraw =
      ((stand setup hasty).world.launch cutscene).withdraw := by
    show ((stand setup hasty).world.executeNumber 0).1.withdraw = _
    rw [executed]
    rfl
  have opened := execute_harbour (w := (stand setup hasty).world.withdraw) rfl
  rw [started, ← World.withdraw_launch]
  show World.remark
    ((stand setup hasty).world.withdraw.execute (.ofCommands (harbourCommands 0 0 0))).1
    (.cutsceneStarted ((stand setup hasty).world.withdraw.execute
      (.ofCommands (harbourCommands 0 0 0))).2.1.length) = _
  rw [opened]

theorem plot_started (setup : Setup) (hasty : Nat → Bool) :
    (started setup hasty).plot = (stand setup hasty).world.plot.starts 0 cutscene := by
  have order := (World.inPlay_opening (stand setup hasty)).order
  obtain ⟨programs, executed⟩ := executeNumber_stand setup hasty
  rcases World.plot_executeNumber (stand setup hasty).world 0 fun _ => ⟨rfl, rfl⟩ with
    ⟨e, failed, -⟩ | ⟨q, q', -, found, resolved, -, -, plot⟩
  · cases (congrArg Prod.snd executed).symm.trans failed
  · have cast : (stand setup hasty).world.programs[0]? =
        some (.ofCommands (harbourCommands 0 0 0)) := rfl
    obtain rfl := Option.some.inj (cast.symm.trans found)
    obtain rfl := Except.ok.inj (preprocess_harbour.symm.trans resolved)
    exact plot

theorem moored_started (setup : Setup) (hasty : Nat → Bool) : Moored (started setup hasty) := by
  refine Moored.of_stock ⟨?_, ?_, rfl, rfl⟩
    (World.stock_chores (World.chores_executeNumber (stand setup hasty).world 0 nofun))
  · show #[(⟨remembersFerryman, 0⟩ : Registered Predicate)].map (·.body) = _
    simp
  · show #[(⟨harbourRoutes, 0⟩ : Registered Selector)].map (·.body) = _
    simp

/-- The one fiber is that of the run. -/
theorem backstage_started (setup : Setup) (hasty : Nat → Bool) :
    ∃ (b : Backstage) (f : Fiber), b.hands = 0 ∧ b.feed = (stand setup hasty).world.feed ∧
      f.doomed = false ∧ (started setup hasty).backstage = b.join f := by
  obtain ⟨programs, executed⟩ := executeNumber_stand setup hasty
  rcases World.backstage_executeNumber (stand setup hasty).world 0 with ⟨e, failed, -⟩ | ⟨q, -, -, same⟩
  · cases (congrArg Prod.snd executed).symm.trans failed
  · rw [World.backstage_renewScope] at same
    refine ⟨_, _, ?_, ?_, ?_, same⟩
    all_goals rfl

theorem feed_started (setup : Setup) (hasty : Nat → Bool) :
    (started setup hasty).feed = (stand setup hasty).world.feed := by
  obtain ⟨_, _, -, feed, -, backstage⟩ := backstage_started setup hasty
  show (started setup hasty).backstage.feed = _
  rw [backstage]
  exact feed

theorem onCourse_started (setup : Setup) (hasty : Nat → Bool) :
    OnCourse setup (started setup hasty) := by
  have opening := World.inPlay_opening (stand setup hasty)
  have plot := plot_started setup hasty
  obtain ⟨b, f, alone, -, spared, backstage⟩ := backstage_started setup hasty
  refine
    { play := World.inPlay_pulses _ _
      pace := World.inPace_pulses _ _
      manned := World.manned_pulses _ _
      settings := World.settings_pulses _ _
      moored := moored_started setup hasty
      handed := ?_
      time := ?_
      unharmed := World.mishaps_host opening.order (p := .host (.execute 0) rfl) nofun
      unstopped := ?_
      chart := ?_ }
  · exact Handed.onward ⟨[], World.handing_opening (stand setup hasty), nofun⟩ fun handing =>
      handing.execute opening.order 0
  · rw [feed_started]
    exact (Nat.zero_mul _).symm
  · have hands : (started setup hasty).hands = f ::ₘ b.hands := congrArg Backstage.hands backstage
    intro g among
    have among : g ∈ (started setup hasty).hands := among
    rw [hands, alone] at among
    obtain rfl := Multiset.mem_singleton.mp among
    exact fun _ => spared
  · have leads : (started setup hasty).leads = [⟨0, ⟨0, cutscene, 0, .empty⟩, [], none⟩] :=
      congrArg Plot.leads plot
    have silent : (started setup hasty).plot.verdicts = [] := by
      rw [plot]
      rfl
    exact .underway leads rfl rfl silent (.dusk (Nat.zero_le 9) (by simp) (by simp))

/-! ### What the host does in a frame -/

abbrev Deals : World → World → Prop := Relation.ReflTransGen Deal

theorem deals_turns (w : World) (n : Nat) : Deals w (w.turns n) := by
  induction n generalizing w with
  | zero => exact .refl
  | succ n ih =>
    rw [World.turns_succ]
    exact .head (.turn w) (ih w.turn)

theorem deals_fireTimers (goal : Span) (included : Bool) (n : Nat) (w : World) :
    Deals w (World.fireTimers goal included n w) := by
  induction n generalizing w with
  | zero => exact .refl
  | succ n ih =>
    rw [World.fireTimers]
    split
    · split
      · exact .trans (.head (.reach w _) (deals_turns _ _)) (ih _)
      · exact .refl
    · exact .refl

theorem deals_awaitFrame (w : World) (due : Span) : Deals w (Host.awaitFrame w due) := by
  unfold Host.awaitFrame
  split
  · exact .refl
  · exact (deals_fireTimers _ _ _ w).tail (.reach _ _)

theorem deals_pick (w : World) : Deals w (Host.pick w).1 := by
  have picked : Deals w (World.select { w with vars := w.vars.set routeVar autoChoice } autoChoice).1 :=
    .tail (.single (.steer w)) (.pick _)
  unfold Host.pick
  dsimp only
  split
  · rename_i v selected
    rwa [selected] at picked
  · rename_i v e selected
    rw [selected] at picked
    exact picked.tail (.remark v _)

theorem deals_hear (s : World × Bool) (e : Event) : Deals s.1 (Host.hear s e).1 := by
  unfold Host.hear
  split
  · exact .refl
  all_goals exact .single (.remark _ _)

/-- Whatever was lost, reading the inbox leads to no more than remarks. -/
theorem deals_readInbox (h : Host) :
    Deals h.world (Host.readInbox h).world ∧ (Host.readInbox h).frame = h.frame := by
  have heard (events : List Event) (s : World × Bool) : Deals s.1 (events.foldl Host.hear s).1 := by
    induction events generalizing s with
    | nil => exact .refl
    | cons e events ih => exact (deals_hear s e).trans (ih _)
  unfold Host.readInbox
  dsimp only
  split
  · exact ⟨heard _ (h.world, h.choicePending), rfl⟩
  · exact ⟨.refl, rfl⟩

theorem Deal.feed (deal : Deal w w') (play : w.InPlay) : w'.feed = w.feed := by
  cases deal with
  | turn => exact play.feed_turn
  | reach time => rfl
  | remark r => rfl
  | steer => rfl
  | pick => exact congrArg Backstage.feed (World.backstage_select w autoChoice)

/-! ### From frame to frame -/

/-- Frames have a length, confirm is pressed now and then, and frames are counted in a machine word. -/
structure Setup.Playable (s : Setup) : Prop where
  frames : s.frameSpan ≠ .zero
  confirms : 1 ≤ s.confirmEvery
  limited : s.maxFrames < Nat.pow 2 64

/-- A step of the showcase from a world in which nothing can fail. -/
def Sails (setup : Setup) (w w' : World) : Prop :=
  Step setup.frameSpan w w' ∧ w.TurnsWell ∧ w.turnPanics = false

abbrev Passes (setup : Setup) : World → World → Prop := Relation.ReflTransGen (Sails setup)

theorem Setup.Playable.bounded (playable : setup.Playable) (h : Aboard setup w)
    (within : w.feed.count ≤ setup.maxFrames) : w.feed.total.nanos < Span.limit := by
  have second : setup.frameSpan.nanos ≤ Span.perSecond := Nat.div_le_self _ _
  have counted : w.feed.count < Nat.pow 2 64 := Nat.lt_of_le_of_lt within playable.limited
  calc w.feed.total.nanos = w.feed.count * setup.frameSpan.nanos := h.time
    _ ≤ w.feed.count * Span.perSecond := Nat.mul_le_mul_left _ second
    _ < Span.limit := Nat.mul_lt_mul_of_pos_right counted (by decide)

theorem deals_pass {P : World → Prop} (playable : setup.Playable)
    (aboard : ∀ {v : World}, P v → Aboard setup v)
    (step : ∀ {v v' : World}, P v → v.feed.total.nanos < Span.limit → Deal v v' → P v')
    (h : P w) (within : w.feed.count ≤ setup.maxFrames) (deals : Deals w w') :
    Passes setup w w' ∧ P w' ∧ w'.feed = w.feed := by
  induction deals with
  | refl => exact ⟨.refl, h, rfl⟩
  | tail _ deal ih =>
    obtain ⟨passes, h, feed⟩ := ih
    have bounded := playable.bounded (aboard h) (feed.symm ▸ within)
    refine ⟨passes.tail ⟨.deal deal, (aboard h).turnsWell bounded, (aboard h).turnPanics⟩,
      step h bounded deal, (deal.feed (aboard h).play).trans feed⟩

/-- The showcase after so many frames, if the host has not stopped the run. -/
structure Sailed (setup : Setup) (hasty : Nat → Bool) (frame : Nat) (w : World) : Prop
    extends OnCourse setup w where
  passes : Passes setup (Host.opening setup hasty) w
  frames : w.feed.count = frame
  within : frame ≤ setup.maxFrames

section

variable {frame : Nat} (playable : setup.Playable) (h : Sailed setup hasty frame w)
include playable h

theorem Sailed.deals (deals : Deals w w') : Sailed setup hasty frame w' := by
  obtain ⟨passes, course, feed⟩ := deals_pass (P := OnCourse setup) playable OnCourse.toAboard
    OnCourse.deal h.toOnCourse (h.frames ▸ h.within) deals
  exact ⟨course, h.passes.trans passes, feed ▸ h.frames, h.within⟩

theorem Sailed.publish (more : frame < setup.maxFrames) (keys : Keys) :
    Sailed setup hasty (frame + 1) (w.publish setup.frameSpan keys) := by
  have bounded := playable.bounded h.toAboard (h.frames ▸ h.within)
  have passes := h.passes.tail ⟨.publish w keys, h.turnsWell bounded, h.turnPanics⟩
  refine ⟨h.toOnCourse.publish keys, passes, ?_, more⟩
  show (w.feed.frames.push _).size = frame + 1
  rw [Array.size_push]
  exact congrArg (· + 1) h.frames

end

theorem Sailed.playFrame (playable : setup.Playable) {h : Host}
    (sailed : Sailed setup hasty h.frame h.world) (more : h.frame < setup.maxFrames) :
    Sailed setup hasty (h.frame + 1) (h.playFrame setup).world ∧
      (h.playFrame setup).frame = h.frame + 1 := by
  obtain ⟨w, frame, due, pending, mark, inbox⟩ := h
  unfold Host.playFrame
  dsimp only at sailed more ⊢
  have waited := sailed.deals playable (deals_awaitFrame w due)
  generalize Host.awaitFrame w due = v at waited ⊢
  obtain ⟨s, same, picked⟩ : ∃ s : World × Bool,
      (if ((frame + 1) % setup.confirmEvery == 0 && pending) = true then Host.pick v
        else (v, pending)) = s ∧ Sailed setup hasty frame s.1 := by
    refine ⟨_, rfl, ?_⟩
    split
    · exact waited.deals playable (deals_pick v)
    · exact waited
  rw [same]
  obtain ⟨read, still⟩ := deals_readInbox ⟨(s.1.publish setup.frameSpan
    ⟨(frame + 1) % setup.confirmEvery == 0, false⟩).settle, frame + 1, due + setup.frameSpan, s.2,
      mark, inbox⟩
  refine ⟨?_, still⟩
  exact ((picked.publish playable more _).deals playable (deals_turns _ _)).deals playable read

/-! ### How it ends -/

/-- What the host may return, and what is true of the world then. In each case it says how many frames
were published. -/
inductive Ends (setup : Setup) (w : World) : Ending → Prop where
  /-- The cutscene was played. The first option was picked, and the ferryman was met. -/
  | frames {n : Nat} : n ≤ setup.maxFrames → w.feed.count = n → Host.outcome? w = some .completed →
      w.state.view = ⟨none, none, none, false, some autoChoice⟩ → w.vars.get metVar = 1 →
      Ends setup w (.frames n)
  | timeout : w.feed.count = setup.maxFrames → Ends setup w (.fault (.timeout setup.maxFrames))
  | refused : w.feed.count ≤ setup.maxFrames → setup.settings.maxChoices < 2 →
      Ends setup w (.fault (.dialogue (.tooManyChoices 2 setup.settings.maxChoices)))

/-- The host returned `ending`. Nothing failed on the way there, in the background either. -/
structure Arrives (setup : Setup) (hasty : Nat → Bool) (w : World) (ending : Ending) : Prop where
  passes : Passes setup (Host.opening setup hasty) w
  unharmed : w.mishaps = []
  ends : Ends setup w ending

theorem outcome?_eq (w : World) : Host.outcome? w = (w.plot.verdicts.map (·.2)).head? := by
  have verdicts : w.plot.verdicts = w.entries.filterMap (·.deed.outcome?) :=
    World.filterMap_story _ (fun e idle => by cases deed : e.deed <;> simp_all [Deed.isIdle, Deed.outcome?]) w
  have told : Report.since w 0 = w.entries.map (·.deed) := by
    simp [Report.since, World.entries]
  rw [Host.outcome?, told, verdicts, List.map_filterMap, List.head?_filterMap, List.findSome?_map]
  rfl

/-- Without a run only the host and what it left behind are at work. -/
theorem Deal.touches (deal : Deal w w') (play : w.InPlay) (alone : w.leads = []) :
    Touches w.plot w'.plot := by
  have attended := play.order.staged.attended
  cases deal with
  | turn =>
    cases (World.turn_cases w play.order.crewed attended).1 with
    | rests touched => exact touched
    | plays lead => cases (show w.leads = _ from lead).symm.trans alone
  | reach time => exact (World.keeps_reach w time).touches attended.1
  | remark r => exact (World.keeps_remark w r).touches attended.1
  | steer =>
    exact (World.keeps_brief w (s := .setVar routeVar autoChoice) rfl rfl).touches attended.1
  | pick => exact World.touches_select w autoChoice attended.1

/-- The host waits for the fiber of the run it started. -/
theorem leads_of_isOver (chart : Chart w) (done : Host.isOver w = true) : w.leads = [] := by
  cases chart with
  | completed alone | refused alone => exact alone
  | @underway l leads number =>
    obtain ⟨f, among, role, -⟩ := World.exists_of_mem_leads (leads ▸ List.mem_singleton_self l)
    have gone := List.find?_eq_none.mp (Option.isNone_iff_eq_none.mp done) f among
    rw [role] at gone
    exact absurd (beq_iff_eq.mpr number) gone

theorem deals_touch (playable : setup.Playable) (h : OnCourse setup w)
    (within : w.feed.count ≤ setup.maxFrames) (alone : w.leads = []) (deals : Deals w w') :
    Touches w.plot w'.plot := by
  refine (deals_pass (P := fun v => OnCourse setup v ∧ Touches w.plot v.plot) playable
    (fun h => h.1.toAboard) (fun {v v'} h bounded deal => ?_) ⟨h, .refl _⟩ within deals).2.1.2
  exact ⟨h.1.deal bounded deal, h.2.trans (deal.touches h.1.play (h.2.leads.trans alone))⟩

theorem view_of_alone (order : w.InOrder) (alone : w.leads = []) :
    w.state.view = ⟨none, none, none, false, w.state.chosen⟩ := by
  cases order.staged with
  | playing l playing => cases alone.symm.trans playing.leads
  | idle idle =>
    obtain ⟨-, executing, run, -, command, -⟩ := idle
    have executing : w.state.executing = false := executing
    have run : w.state.run = none := run
    have command : w.state.command = none := command
    simp [Execution.view, executing, run, command]

theorem Sailed.finish (playable : setup.Playable) {h : Host}
    (sailed : Sailed setup hasty h.frame h.world) (done : Host.isOver h.world = true) :
    Arrives setup hasty h.finish.1.settle h.finish.2 := by
  obtain ⟨w, frame, due, pending, mark, inbox⟩ := h
  have alone := leads_of_isOver sailed.chart done
  have within : w.feed.count ≤ setup.maxFrames := sailed.frames ▸ sailed.within
  dsimp only at sailed alone
  unfold Host.finish
  dsimp only
  cases sailed.chart with
  | underway lead => cases lead.symm.trans alone
  | completed _ ended picked met =>
    have outcome : Host.outcome? w = some .completed := by
      rw [outcome?_eq, ended]
      rfl
    rw [outcome]
    have deals : Deals w (w.remark (.cutsceneFinished frame)).settle :=
      .head (.remark w _) (deals_turns _ _)
    have after := sailed.deals playable deals
    have touched := deals_touch playable sailed.toOnCourse within alone deals
    have alone' := touched.leads.trans alone
    have ended' := touched.verdicts.trans ended
    -- The chart is read once more, since the host settles after its last remark.
    show Arrives setup hasty (w.remark (.cutsceneFinished frame)).settle (.frames frame)
    refine ⟨after.passes, after.unharmed, ?_⟩
    cases after.chart with
    | underway lead => cases lead.symm.trans alone'
    | refused _ ended => cases ended.symm.trans ended'
    | completed _ _ picked met =>
      refine .frames after.within after.frames ?_ ?_ met
      · rw [outcome?_eq, ended']
        rfl
      · rw [view_of_alone after.play.order alone', picked]
  | refused _ ended few =>
    have outcome : Host.outcome? w = some (.failed (.tooManyChoices 2 setup.settings.maxChoices)) := by
      rw [outcome?_eq, ended, sailed.settings]
      rfl
    rw [outcome]
    have after := sailed.deals playable (deals_turns w World.patience)
    exact ⟨after.passes, after.unharmed,
      .refused (after.frames ▸ after.within) (sailed.settings ▸ few)⟩

theorem Sailed.stop (playable : setup.Playable) {h : Host}
    (sailed : Sailed setup hasty h.frame h.world) (last : h.frame = setup.maxFrames) : Arrives setup hasty h.stop.1.settle h.stop.2 := by
  -- The world is off its course then, but nothing fails in it while it settles.
  obtain ⟨w, frame, due, pending, mark, inbox⟩ := h
  dsimp only at sailed last
  have feed : (w.abortFiber (w.runFiber? 0)).1.feed = w.feed := by
    cases w.runFiber? 0 <;> rfl
  have stopped : w.feed.count ≤ setup.maxFrames := sailed.frames ▸ sailed.within
  have bounded := playable.bounded sailed.toAboard stopped
  have passes := sailed.passes.tail ⟨.stop w, sailed.turnsWell bounded, sailed.turnPanics⟩
  obtain ⟨settles, aboard, still⟩ := deals_pass (P := Aboard setup) playable id Aboard.deal
    sailed.toAboard.stop (feed ▸ stopped) (deals_turns _ World.patience)
  refine ⟨passes.trans settles, aboard.unharmed, last ▸ .timeout ?_⟩
  exact (congrArg Feed.count (still.trans feed)).trans (sailed.frames.trans last)

theorem play_arrives (playable : setup.Playable) (n : Nat) (h : Host)
    (sailed : Sailed setup hasty h.frame h.world) (left : h.frame + n = setup.maxFrames) :
    Arrives setup hasty (Host.play setup n h).1.settle (Host.play setup n h).2 := by
  induction n generalizing h with
  | zero =>
    rw [Host.play]
    split
    · rename_i done
      exact sailed.finish playable done
    · exact sailed.stop playable left
  | succ n ih =>
    rw [Host.play]
    split
    · rename_i done
      exact sailed.finish playable done
    · obtain ⟨next, frame⟩ := sailed.playFrame playable (by omega)
      exact ih _ (frame ▸ next) (by omega)

theorem sailed_opening (playable : setup.Playable) :
    Sailed setup hasty 0 (Host.opening setup hasty) := by
  have course := onCourse_started setup hasty
  have none : (started setup hasty).feed.count = 0 := congrArg Feed.count (feed_started setup hasty)
  have bounded := playable.bounded course.toAboard (none ▸ Nat.zero_le _)
  have opened : OnCourse setup (Host.opening setup hasty) := by
    rw [opening_eq]
    exact course.withdraw.deal bounded (.remark _ _)
  refine ⟨opened, .refl, ?_, Nat.zero_le _⟩
  rw [opening_eq]
  exact none

/-- The showcase ends in one of three ways, however long its frames are and however short its inbox. -/
theorem showcase_arrives (setup : Setup) (hasty : Nat → Bool) (playable : setup.Playable) :
    Arrives setup hasty (play setup hasty).1 (play setup hasty).2 := by
  rw [play, if_neg playable.frames]
  exact play_arrives playable setup.maxFrames ⟨Host.opening setup hasty, 0, .zero, false, 0, []⟩
    (sailed_opening playable) (Nat.zero_add _)

theorem standard_showcase_arrives :
    let setup : Setup := ⟨.standard, 60, 20, 36000⟩
    setup.Playable ∧ ∀ hasty, Arrives setup hasty (play setup hasty).1 (play setup hasty).2 := by
  have playable : Setup.Playable ⟨.standard, 60, 20, 36000⟩ := ⟨by decide, by decide, by decide⟩
  exact ⟨playable, fun hasty => showcase_arrives _ hasty playable⟩

end Showcase

end SceneScript
