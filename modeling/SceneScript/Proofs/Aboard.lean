import SceneScript.Proofs.FadeOut
import SceneScript.Proofs.Harbour
import SceneScript.Proofs.Stock
import SceneScript.Showcase.Player
/-!
Worlds of the showcase. Its host publishes frames of one length, sets the route, picks the first
option and makes remarks; it stops the run at most (`Step`). Whatever comes of that, every fiber does
well (`Aboard.step`).
-/

namespace SceneScript

/-! ### Runs that nobody stops -/

namespace Backstage

variable {b b' : Backstage} {f : Fiber}

/-- No run was told to stop. -/
def Unstopped (b : Backstage) : Prop := ∀ f ∈ b.hands, f.isRun = true → f.doomed = false

theorem Unstopped.of_hands (h : b.Unstopped) (same : b'.hands = b.hands) : b'.Unstopped :=
  fun f among => h f (same ▸ among)

theorem Unstopped.join (h : b.Unstopped) (spared : f.isRun = true → f.doomed = false) :
    (b.join f).Unstopped := by
  intro g among
  rcases Multiset.mem_cons.mp among with rfl | among
  · exact spared
  · exact h g among

/-- Whoever holds a channel fades it, and is no run. -/
theorem Unstopped.cancel (h : b.Unstopped) (manned : b.Manned) (c : Channel) :
    (b.cancel c).Unstopped := by
  unfold Backstage.cancel
  split
  · rename_i task slot
    intro g among run
    obtain ⟨g, before, rfl⟩ := Multiset.mem_map.mp among
    have before : g ∈ b.hands := before
    obtain ⟨-, role, -, -⟩ := doom_fields task g
    obtain ⟨r, later⟩ := (Fiber.isRun_iff _).mp run
    have runs : g.role = .run r := role.symm.trans later
    have other : g.id ≠ task := by
      rintro rfl
      obtain ⟨f, among', same, fades, -⟩ := manned.slots c _ slot
      obtain rfl := manned.eq_of_id among' before same
      rw [fades] at runs
      cases runs
    rw [doom_of_ne other]
    exact h g before ((Fiber.isRun_iff g).mpr ⟨r, runs⟩)
  · exact h

theorem hands_yield (b : Backstage) (f : Fiber) : (b.yield f).hands = b.hands := by
  unfold yield
  split
  · split <;> rfl
  · rfl

end Backstage

namespace World

open Backstage

variable {w w' : World} {f : Fiber} {rest : List Fiber}

theorem hands_amend (w : World) (a : Act) : (w.amend a).backstage.hands = w.backstage.hands := by
  cases a with
  | silence c =>
    rw [amend, backstage_silence]
    rfl
  | _ => rfl

theorem unstopped_play (h : w.backstage.Unstopped) (manned : w.backstage.Manned) (c : Channel)
    (clip : Clip) (pitch : Float32) : (w.play c clip pitch).backstage.Unstopped := by
  have cancelled := h.cancel manned c
  rw [backstage_play]
  split
  · split
    · exact cancelled.of_hands rfl
    · exact h.of_hands rfl
  · exact h

theorem unstopped_fadeOut (h : w.backstage.Unstopped) (manned : w.backstage.Manned) (c : Channel)
    (span : Span) : (w.fadeOut c span).1.backstage.Unstopped := by
  have cancelled := h.cancel manned c
  rw [backstage_fadeOut]
  split
  · split
    · exact Unstopped.join (cancelled.of_hands rfl) fun _ => rfl
    · exact cancelled.of_hands rfl
  · exact h

theorem unstopped_work (h : w.backstage.Unstopped) (manned : w.backstage.Manned) (a : Act) :
    (w.work a).backstage.Unstopped := by
  cases a with
  | sweep s =>
    refine h.of_hands ?_
    show (if s.elapsed < s.span then w.paint s.share s.paint else w).hands = _
    split
    · cases s.paint <;> rfl
    · rfl
  | tween =>
    rw [work, backstage_spawn]
    exact h.join fun _ => rfl
  | play c clip pitch => exact unstopped_play h manned c clip pitch
  | hush c span => exact unstopped_fadeOut h manned c span
  | hushMusic span => exact unstopped_fadeOut h manned .bgm span
  | silence c =>
    rw [work, backstage_silence]
    exact h.of_hands rfl
  | timer c =>
    rw [work, backstage_startCountdown]
    exact Unstopped.join (h.of_hands rfl) fun _ => rfl
  | stopTimer =>
    rw [work, backstage_stopCountdown]
    exact h.of_hands rfl
  | count i due =>
    rw [work, backstage_countDown]
    exact h.of_hands rfl
  | _ => exact h

/-- No fiber tells a run to stop. -/
theorem unstopped_turn (play : w.InPlay) (manned : w.backstage.Manned)
    (h : w.backstage.Unstopped) : w.turn.backstage.Unstopped := by
  cases ready : w.ready with
  | nil =>
    rw [World.turn, ready]
    exact h
  | cons f rest =>
    have others : (w.taken f rest).backstage.Unstopped := fun g among =>
      h g (mem_hands_of_taken ready among)
    cases doomed : f.doomed with
    | true =>
      rw [(manned_turn_doomed play.order manned ready doomed).1]
      exact others
    | false =>
      by_cases fades : ∃ c, f.role = .fade c
      · obtain ⟨c, role⟩ := fades
        cases turn_fade play.screened.sources_pos manned ready role doomed with
        | goes step _ _ same =>
          rw [same]
          exact Unstopped.join (others.of_hands step.hands) fun _ =>
            step.fields.2.2.1.trans doomed
        | waits _ _ _ _ same => exact same ▸ others.join fun _ => doomed
        | bursts _ _ _ _ same | ends _ _ same =>
          rw [same]
          exact others.of_hands rfl
      · have left : (w.taken f rest).backstage.Manned :=
          (manned_taken manned ready).leave fun c role => absurd ⟨c, role⟩ fades
        cases turn_turns play.order ready with
        | ends _ same => exact same ▸ others.of_hands (hands_yield _ _)
        | fetches f' _ _ _ _ _ _ spared _ _ _ _ same => exact same ▸ others.join fun _ => spared
        | @works a after _ _ _ _ works =>
          cases works with
          | goes f' onward _ same =>
            exact same ▸ (unstopped_work others left a).join fun _ => onward.doomed.trans doomed
          | takes f' _ _ onward _ same =>
            rw [same]
            exact Unstopped.join (others.of_hands rfl) fun _ => onward.doomed.trans doomed
          | bursts _ _ _ same => exact same ▸ others.of_hands (hands_yield _ _)
          | falls _ same => exact same ▸ others.of_hands (hands_yield _ _)
        | @unwinds a _ e f' _ _ _ _ _ spared _ _ _ _ same =>
          exact same ▸ Unstopped.join (others.of_hands (hands_amend _ a)) fun _ => spared

/-! ### Remarks of a host -/

theorem InPlay.remark (h : w.InPlay) (r : Remark) : (w.remark r).InPlay where
  order := by
    obtain ⟨crewed, actor, staged, sound⟩ := h.order
    rw [← plot_remark w r] at staged sound
    have kept : Keeps True w (w.remark r) := keeps_remark w r
    exact ⟨crewed.keeps kept, actor, staged, sound⟩
  tended := ⟨h.tended.sound, h.tended.tends⟩
  screened := by
    obtain ⟨sources, card, loads, masked, stranded⟩ := h.screened
    have mask : (w.remark r).mask? = w.mask? :=
      congrArg (fun c => c.masks.getLast?) (curtain_remark w r)
    have board (id : Nat) : (w.remark r).board id = w.board id := board_record w id rfl
    refine ⟨sources, card, fun f among holds => ?_, fun f among holds => ?_, fun idle a last => ?_⟩
    · rw [board]
      exact loads f among holds
    · rw [mask]
      exact masked f among holds
    · exact stranded idle a (mask ▸ last)

/-- The host keeps its programs to itself. -/
def withdraw (w : World) : World := { w with programs := #[] }

theorem InPlay.withdraw (h : w.InPlay) : w.withdraw.InPlay where
  order := by
    obtain ⟨crewed, actor, staged, -⟩ := h.order
    refine ⟨⟨crewed.ids, crewed.below, crewed.dutiful, crewed.rests⟩, actor, ?_, fun n q found => ?_⟩
    · cases staged with
      | idle idle => exact .idle { idle with }
      | playing l playing =>
        refine .playing l { playing with course := playing.course.imp ?_ ?_ }
        · exact fun fresh => { fresh with }
        · exact fun ⟨c, shown, picks, under⟩ => ⟨c, shown, picks, { under with }⟩
    · cases found
  tended := ⟨h.tended.sound, h.tended.tends⟩
  screened := { h.screened with }

end World

/-! ### The host of the showcase -/

theorem Vars.get_set (v : Vars) (name other : String) (value : Int) :
    (v.set name value).get other = if other = name then value else v.get other := by
  show ((Vars.insert v.entries name value).lookup other).getD 0 =
    if other = name then value else (v.entries.lookup other).getD 0
  induction v.entries with
  | nil => grind [Vars.insert]
  | cons entry rest ih =>
    obtain ⟨n, old⟩ := entry
    rw [List.lookup_cons, Vars.insert]
    by_cases here : n = name
    · subst here
      by_cases same : other = n
      · simp [same]
      · simp [same, List.lookup_cons, beq_eq_false_iff_ne.mpr same]
    · rw [if_neg (by simpa using here), List.lookup_cons]
      by_cases first : other = n
      · simp [first, here]
      · simpa [beq_eq_false_iff_ne.mpr first] using ih

namespace Showcase

/-- What the showcase's host does beside publishing frames, and what fibers do. -/
inductive Deal : World → World → Prop where
  | turn (w : World) : Deal w w.turn
  | reach (w : World) (time : Span) : Deal w (w.reach time)
  | remark (w : World) (r : Remark) : Deal w (w.remark r)
  | steer (w : World) : Deal w { w with vars := w.vars.set routeVar autoChoice }
  | pick (w : World) : Deal w (w.select autoChoice).1

inductive Step (span : Span) : World → World → Prop where
  | deal {w w' : World} : Deal w w' → Step span w w'
  | publish (w : World) (keys : Keys) : Step span w (w.publish span keys)
  | stop (w : World) : Step span w (w.abortFiber (w.runFiber? 0)).1

/-- The callbacks of the cutscene are there, and the host steers for the first option. -/
structure Moored (w : World) : Prop where
  predicates : w.stock.predicates = #[remembersFerryman]
  selectors : w.stock.selectors = #[harbourRoutes]
  actions : w.stock.actions = #[meetFerryman]
  route : w.vars.get routeVar = autoChoice

/-- No option but the first was ever picked. -/
def Handed (w : World) : Prop :=
  ∃ h, World.Handing h w ∧ ∀ word ∈ h.filterMap Happening.word?, word = some autoChoice

/-- What holds of the world of the showcase at all times. -/
structure Aboard (setup : Setup) (w : World) : Prop where
  play : w.InPlay
  pace : w.backstage.InPace
  manned : w.backstage.Manned
  settings : w.settings = setup.settings
  moored : Moored w
  handed : Handed w
  time : w.feed.total.nanos = w.feed.count * setup.frameSpan.nanos
  unharmed : w.mishaps = []

/-! ### What every step keeps -/

variable {setup : Setup} {w w' : World}

theorem Moored.calm (h : Moored w) : w.stock.Calm where
  predicates := by
    rw [h.predicates]
    simp [remembersFerryman]
  selectors := by
    rw [h.selectors]
    simp [harbourRoutes]
  actions := by
    rw [h.actions]
    simp [meetFerryman]

theorem Moored.of_stock (h : Moored w) (same : w'.stock = w.stock) : Moored w' where
  predicates := same ▸ h.predicates
  selectors := same ▸ h.selectors
  actions := same ▸ h.actions
  route := (congrArg (fun s => s.vars.get routeVar) same).trans h.route

/-- The one action of the cutscene notes that the ferryman was met. -/
theorem callAction_meet (actions : w.stock.actions = #[meetFerryman]) :
    w.callAction 0 = ({ w with vars := w.vars.set metVar 1 }, .value ()) := by
  have found : w.registry.actions[0]? = some meetFerryman := by
    rw [show w.registry.actions = #[meetFerryman] from actions]
    rfl
  rw [World.callAction, found]
  rfl

/-- The host steers for the ferry. -/
theorem Moored.callSelector (h : Moored w) : (w.callSelector 0).2 = .value "ferry" := by
  have bodies : w.registry.selectors.map (·.body) = #[harbourRoutes] := h.selectors
  have found : w.registry.selectors[0]?.map (·.body) = some harbourRoutes := by
    rw [← Array.getElem?_map, bodies]
    rfl
  obtain ⟨s, registered, body⟩ := Option.map_eq_some_iff.mp found
  rw [World.callSelector, registered]
  show World.answer (s.body.answer s.calls w.state.chosen w.vars) = _
  rw [body, harbourRoutes, Selector.answer, h.route]
  rfl

theorem Moored.turn (h : Moored w) : Moored w.turn := by
  by_cases other : ∀ i, w.act? ≠ some (.action i)
  · exact h.of_stock (World.stock_turn other)
  push Not at other
  obtain ⟨i, act⟩ := other
  obtain ⟨f, rest, -, stock⟩ := World.stock_turn_action act
  have actions : (w.taken f rest).stock.actions = #[meetFerryman] := h.actions
  cases i with
  | zero =>
    rw [callAction_meet actions] at stock
    refine ⟨stock ▸ h.predicates, stock ▸ h.selectors, stock ▸ h.actions, ?_⟩
    have vars : w.turn.vars = w.vars.set metVar 1 := congrArg Stock.vars stock
    rw [vars, Vars.get_set, if_neg (by decide), h.route]
  | succ i =>
    have none : (w.taken f rest).registry.actions[i + 1]? = none := by
      rw [show (w.taken f rest).registry.actions = #[meetFerryman] from actions]
      rfl
    refine h.of_stock (stock.trans ?_)
    rw [World.callAction, none]
    rfl

theorem Handed.onward (handed : Handed w) (onward : ∀ {h}, World.Handing h w → World.Onward h w w') :
    Handed w' := by
  obtain ⟨h, handing, words⟩ := handed
  obtain ⟨es, -, next⟩ := onward handing
  refine ⟨_, next, fun word among => ?_⟩
  rw [List.filterMap_append, List.filterMap_map] at among
  have silent : es.filterMap (Happening.word? ∘ .event) = [] :=
    List.filterMap_eq_nil_iff.mpr fun _ _ => rfl
  rw [silent, List.append_nil] at among
  exact words word among

theorem Handed.pick (handed : Handed w) (order : w.InOrder) : Handed (w.select autoChoice).1 := by
  obtain ⟨h, handing, words⟩ := handed
  refine ⟨_, handing.select order autoChoice, fun word among => ?_⟩
  rw [List.filterMap_append] at among
  rcases List.mem_append.mp among with among | among
  · exact words word among
  · rw [World.happens] at among
    split at among
    · exact List.mem_singleton.mp among
    · cases among

namespace Aboard

theorem turnPanics (h : Aboard setup w) : w.turnPanics = false :=
  World.turnPanics_of_calm h.moored.calm

theorem turnsWell (h : Aboard setup w) (bounded : w.feed.total.nanos < Span.limit) :
    w.TurnsWell := by
  obtain ⟨_, handing, -⟩ := h.handed
  exact World.turnsWell_of h.play.order h.pace handing bounded

/-- A step that leaves runs alone. -/
theorem keeps (h : Aboard setup w) (kept : World.Keeps True w w') (play : w'.InPlay)
    (pace : w'.backstage.InPace) (manned : w'.backstage.Manned) (moored : Moored w')
    (time : w'.feed.total.nanos = w'.feed.count * setup.frameSpan.nanos) : Aboard setup w' where
  play := play
  pace := pace
  manned := manned
  settings := kept.settings.trans h.settings
  moored := moored
  handed := h.handed.onward fun handing => handing.beside kept.beside
  time := time
  unharmed := by
    rw [World.mishaps_eq, (kept.touches h.play.order.staged.attended.1).mishaps,
      ← World.mishaps_eq]
    exact h.unharmed

theorem turn (h : Aboard setup w) (bounded : w.feed.total.nanos < Span.limit) :
    Aboard setup w.turn where
  play := h.play.beat (.lull (.turn w))
  pace := World.inPace_turn h.pace h.play.order
  manned := World.manned_turn h.play.order h.play.screened.sources_pos h.manned
  settings := (World.settings_pulse h.play .turn).trans h.settings
  moored := h.moored.turn
  handed := h.handed.onward fun handing => handing.turn h.play.order
  time := by
    rw [h.play.feed_turn]
    exact h.time
  unharmed := ((h.turnsWell bounded).mishaps_turn h.play.order h.turnPanics).trans h.unharmed

theorem deal (h : Aboard setup w) (bounded : w.feed.total.nanos < Span.limit) (deal : Deal w w') :
    Aboard setup w' := by
  cases deal with
  | turn => exact h.turn bounded
  | reach time =>
    have backstage : (w.reach time).backstage = { w.backstage with now := time } :=
      World.backstage_wake _ _
    refine h.keeps (World.keeps_reach w time) (h.play.beat (.lull (.reach w time))) ?_ ?_
      (h.moored.of_stock rfl) h.time
    · exact backstage ▸ h.pace
    · exact backstage ▸ h.manned.still rfl rfl
  | remark r =>
    refine h.keeps (World.keeps_remark w r) (h.play.remark r) ?_ ?_ (h.moored.of_stock rfl) h.time
    · exact (World.backstage_remark w r).symm ▸ h.pace
    · exact (World.backstage_remark w r).symm ▸ h.manned
  | steer =>
    refine h.keeps (World.keeps_brief w (s := .setVar routeVar autoChoice) rfl rfl)
      (h.play.beat (.brief w (s := .setVar routeVar autoChoice) rfl)) h.pace h.manned ?_ h.time
    have route : (w.vars.set routeVar autoChoice).get routeVar = autoChoice := by
      rw [Vars.get_set, if_pos rfl]
    exact ⟨h.moored.predicates, h.moored.selectors, h.moored.actions, route⟩
  | pick =>
    have brief : (HostStep.select autoChoice).isBrief = true := rfl
    have backstage := World.backstage_select w autoChoice
    have feed : (w.select autoChoice).1.feed = w.feed := congrArg Backstage.feed backstage
    exact
      { play := h.play.beat (.brief w brief)
        pace := backstage.symm ▸ h.pace
        manned := backstage.symm ▸ h.manned
        settings := (World.settings_pulse h.play (.host _ brief)).trans h.settings
        moored := h.moored.of_stock (World.stock_chores (World.chores_select w autoChoice))
        handed := h.handed.pick h.play.order
        time := by
          rw [feed]
          exact h.time
        unharmed := (World.mishaps_host h.play.order (p := .host _ brief) nofun).trans h.unharmed }

theorem publish (h : Aboard setup w) (keys : Keys) :
    Aboard setup (w.publish setup.frameSpan keys) := by
  have feed : (w.publish setup.frameSpan keys).feed = w.feed.publish setup.frameSpan keys := rfl
  refine h.keeps (World.keeps_publish w _ keys) (h.play.beat (.lull (.publish w _ keys))) ?_ ?_
    (h.moored.of_stock rfl) ?_
  · exact h.pace.joins (World.joins_pulse h.play (p := .publish _ keys) nofun)
  · exact World.manned_pulse h.play h.manned (.publish _ keys)
  · rw [feed, Feed.total, Feed.publish, Feed.count]
    rw [Array.toList_push, totalDelta_concat, Array.size_push, Nat.add_mul, Nat.one_mul]
    exact congrArg (· + setup.frameSpan.nanos) h.time

theorem stop (h : Aboard setup w) : Aboard setup (w.abortFiber (w.runFiber? 0)).1 := by
  have brief : (HostStep.abort 0).isBrief = true := rfl
  have stock : (w.abortFiber (w.runFiber? 0)).1.stock = w.stock := by
    cases w.runFiber? 0 <;> rfl
  have feed : (w.abortFiber (w.runFiber? 0)).1.feed = w.feed := by
    cases w.runFiber? 0 <;> rfl
  refine h.keeps (World.keeps_abortFiber w _) (h.play.beat (.brief w brief)) ?_ ?_
    (h.moored.of_stock stock) ?_
  · exact h.pace.joins (World.joins_pulse h.play (p := .host _ brief) nofun)
  · exact World.manned_pulse h.play h.manned (.host _ brief)
  · rw [feed]
    exact h.time

end Aboard

end Showcase

end SceneScript
