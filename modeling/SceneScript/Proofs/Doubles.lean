import SceneScript.Proofs.Fades
import SceneScript.Proofs.Vigil
/-!
Performances on doubles that only record: no gate, no mixer, and loads that are noted. Nothing there
is ever used but the feed and the clock (`Bare`): the mixer and the board stay as they were set up,
and besides the run there are only tweens and countdowns.
-/

namespace SceneScript

/-- Animations end at once, sounds are passed on, and loads are noted. -/
structure Rig.Records (rig : Rig) : Prop where
  ungated : rig.gatedStage = false
  plain : rig.mixed = false
  noted : rig.scenes = .noted

/-- Steps that bring a board into play. -/
def HostStep.isStaging : HostStep → Bool
  | .load _ | .boardIn .. | .boardOut _ | .release | .failScenes _ => true
  | _ => false

/-- Acts that work a board or a mixer. -/
def Act.isTechnical : Act → Bool
  | .sweep s | .stride s =>
    match s.paint with
    | .board .. | .volume _ => true
    | _ => false
  | .clearBoard _ | .silence _ => true
  | _ => false

/-- What only a mixer or a board uses. -/
structure Fixtures where
  mixer : Mixer
  loading : Bool
  boardColor : Color
  sceneFails : Bool
  releases : Nat

def Fixtures.unused : Fixtures := ⟨.silent, false, .transparent, false, 0⟩

def World.fixtures (w : World) : Fixtures :=
  ⟨w.mixer, w.loading, w.boardColor, w.sceneFails, w.releases⟩

def Part.isFixture : Part → Bool
  | .mixer | .board | .loading | .releases => true
  | _ => false

namespace World

variable {w w' x : World} {f : Fiber}

theorem fixtures_chores (chores : Chores (·.isFixture = false) w w') : w'.fixtures = w.fixtures := by
  refine chores.view World.fixtures fun {w w'} chore => ?_
  cases chore with
  | mixes _ other | paints _ other | spends _ other => cases other
  | holds loading same =>
    obtain rfl := same.resolve_right nofun
    rfl
  | _ => rfl

/-! ### Work on doubles that record -/

theorem play_plain (plain : w.rig.mixed = false) (channel : Channel) (clip : Clip)
    (pitch : Float32) : w.play channel clip pitch = w.record (.audio (.play channel clip pitch)) := by
  rw [play, plain]
  rfl

theorem fadeOut_plain (plain : w.rig.mixed = false) (channel : Channel) (span : Span) :
    (w.fadeOut channel span).1 = w ∨
      (w.fadeOut channel span).1 = w.record (.audio (.fadeOut channel span)) := by
  rw [fadeOut, plain]
  cases channel.isLooping
  · exact .inl rfl
  · exact .inr rfl

theorem performLoad_noted (noted : w.rig.scenes = .noted) (f : Fiber) (job : SceneJob) :
    w.performLoad f job = (w.record (.scene (.load job))).resume f := by
  rw [performLoad, noted]

/-- A mixer that was never used has nothing to stop. -/
theorem fixtures_stopChannel (unused : w.fixtures = .unused) (channel : Channel) :
    (w.stopChannel channel).fixtures = .unused := by
  have mixer : w.mixer = .silent := congrArg Fixtures.mixer unused
  have none : w.mixer.fades.get channel = none := by
    rw [mixer]
    cases channel <;> rfl
  have same : (w.stopChannel channel).fixtures =
      { w.fixtures with mixer := w.mixer.modifyStrip channel Strip.stop } := by
    unfold stopChannel cancelFade
    rw [none]
    rfl
  rw [same, unused, mixer]
  cases channel <;> rfl

/-- Where loads are noted and nothing is mixed, an act needs no fixtures. -/
theorem Needs.isFixture {a : Act} {p : Part} (needs : w.Needs f a p) (records : w.rig.Records)
    (idle : w.loading = false) (other : f.role.isFade = false) (plain : a.isTechnical = false) :
    p.isFixture = false := by
  cases needs with
  | shows | stays | acts | lifts => rfl
  | yields _ _ busy | releases busy => simp [idle] at busy
  | fades _ role => simp [role, Role.isFade] at other
  | plays _ _ _ mixed | hushes _ _ mixed | hushesMusic _ mixed => simp [records.plain] at mixed
  | silences => cases plain
  | lowers s paint | paints s paint => simp [Act.isTechnical, paint] at plain
  | loads _ rig | enters _ rig => simp [records.noted] at rig

theorem Engages.isFixture {p : Part} (engages : w.Engages f p) (records : w.rig.Records)
    (idle : w.loading = false) (other : f.role.isFade = false)
    (plain : ∀ a ∈ f.todo, a.isTechnical = false) : p.isFixture = false := by
  cases engages with
  | shows | stays | lifts => rfl
  | yields _ busy | releases _ busy => simp [idle] at busy
  | fades role => simp [role, Role.isFade] at other
  | silences todo => simp [Act.isTechnical, todo] at plain
  | performs _ _ _ todo needs =>
    exact needs.isFixture records idle other (plain _ (by simp [todo]))

/-! ### Fibers -/

end World

/-- The fiber of a run, of a tween or of a countdown, with nothing technical to do. -/
structure Fiber.Lay (f : Fiber) : Prop where
  role : f.isRun = true ∨ f.watches ≠ none
  todo : ∀ a ∈ f.todo, a.isTechnical = false

theorem Fiber.Lay.isFade {f : Fiber} (h : f.Lay) : f.role.isFade = false := by
  cases role : f.role with
  | fade channel =>
    rcases h.role with run | watches
    · simp [Fiber.isRun, Fiber.run?, role] at run
    · simp [Fiber.watches, role] at watches
  | _ => rfl

theorem Act.isTechnical_of_puts {a : Act} {new : List Act} (puts : a.Puts new)
    (plain : a.isTechnical = false) (other : ∀ job, a ≠ .load job) :
    ∀ b ∈ new, b.isTechnical = false := by
  cases a with
  | load job => exact absurd rfl (other job)
  | silence | clearBoard => cases plain
  | finish an | enterScene =>
    rcases puts with rfl | rfl <;> simp [isTechnical]
  | sweep s =>
    rcases puts with rfl | ⟨-, rfl⟩
    · simp
    · simpa [isTechnical] using plain
  | stride s =>
    rcases puts with rfl | ⟨s', of, rfl⟩
    · simpa using plain
    · simpa [isTechnical, of.paint] using plain
  | reveal r =>
    rcases puts with rfl | ⟨-, call, span, rfl⟩
    · simp
    · simp [isTechnical, Sweep.pause, Sweep.start]
  | confirm | branch =>
    rcases puts with rfl | rfl <;> simp [isTechnical]
  | offer options =>
    obtain ⟨receiver, rfl⟩ := puts
    simp [opening, Command.animate, isTechnical]
  | answer receiver options =>
    rcases puts with rfl | ⟨index, rfl⟩ <;> simp [isTechnical]
  | chosen =>
    obtain rfl := puts
    simp [closing, Command.animate, isTechnical]
  | switch =>
    obtain ⟨label, rfl⟩ := puts
    simp [isTechnical]
  | count i =>
    rcases puts with rfl | ⟨due, rfl⟩ <;> simp [isTechnical]
  | _ =>
    obtain rfl := puts
    simp

theorem Command.isTechnical_acts (c : Command) (settings : Settings) (page : Page) :
    ∀ a ∈ c.acts settings page, a.isTechnical = false := by
  have plain : (c.acts settings page).any Act.isTechnical = false := by
    cases c with
    | boxState opening => cases opening <;> rfl
    | image layer texture => cases texture <;> rfl
    | portrait place texture => cases texture <;> rfl
    | _ => rfl
  intro a member
  by_contra technical
  exact Bool.eq_false_iff.mp plain (List.any_eq_true.mpr ⟨a, member, by simpa using technical⟩)

theorem Act.Onward.lay {a : Act} {f f' : Fiber} (h : a.Onward f f')
    (role : f.isRun = true ∨ f.watches ≠ none) (plain : a.isTechnical = false)
    (todo : ∀ b ∈ f.todo, b.isTechnical = false) (other : ∀ job, a ≠ .load job) : f'.Lay where
  role := by
    cases run : f.isRun with
    | true => exact .inl (h.isRun.trans run)
    | false =>
      rw [Fiber.watches, h.role run]
      exact .inr (role.resolve_left (by simp [run]))
  todo := by
    rcases h.goes with ⟨-, new, same, puts⟩ | ⟨-, same⟩
    · intro b member
      rw [same] at member
      rcases List.mem_append.mp member with member | member
      · exact Act.isTechnical_of_puts puts plain other b member
      · exact todo b member
    · rwa [same]

namespace World

variable {w w' x : World} {f : Fiber}

/-- Nothing was ever used that only a mixer or a board uses. -/
structure Bare (w : World) : Prop where
  fibers : ∀ f ∈ w.crew, f.Lay
  fixtures : w.fixtures = .unused

theorem Bare.loading (h : w.Bare) : w.loading = false := congrArg Fixtures.loading h.fixtures

theorem lay_calm : f.calm.Lay ↔ f.Lay := ⟨fun h => ⟨h.role, h.todo⟩, fun h => ⟨h.role, h.todo⟩⟩

theorem mem_crew_of_hands (among : f ∈ w.hands) : f.calm ∈ w.crew :=
  List.mem_map_of_mem (mem_hands.mp among)

theorem lay_of_hands (hands : ∀ f ∈ w.hands, f.Lay) : ∀ f ∈ w.crew, f.Lay := by
  intro f among
  obtain ⟨g, listed, rfl⟩ := List.mem_map.mp among
  exact lay_calm.mpr (hands g (mem_hands.mpr listed))

/-- Who is there after the work of an act. -/
theorem lay_work {a : Act} (records : w.rig.Records) (plain : a.isTechnical = false) :
    ∀ f ∈ (w.work a).hands, f ∈ w.hands ∨ f.Lay := by
  have same {x : World} (hands : x.backstage.hands = w.backstage.hands) :
      ∀ f ∈ x.hands, f ∈ w.hands ∨ f.Lay := by
    intro f among
    have among : f ∈ x.backstage.hands := among
    rw [hands] at among
    exact .inl among
  have faded (channel : Channel) (span : Span) :
      (w.fadeOut channel span).1.backstage.hands = w.backstage.hands := by
    rcases fadeOut_plain records.plain channel span with same | same <;> rw [same]
    rfl
  have joined {x : World} {b : Backstage} {g : Fiber} (heq : x.backstage = b.join g)
      (hands : b.hands = w.hands) (young : g.Lay) : ∀ f ∈ x.hands, f ∈ w.hands ∨ f.Lay := by
    intro f among
    have among : f ∈ x.backstage.hands := among
    rw [heq, show (b.join g).hands = g ::ₘ b.hands from rfl, hands] at among
    rcases Multiset.mem_cons.mp among with rfl | old
    · exact .inr young
    · exact .inl old
  cases a with
  | sweep s =>
    refine same ?_
    show (if s.elapsed < s.span then w.paint s.share s.paint else w).backstage.hands = _
    split
    · cases s.paint <;> rfl
    · rfl
  | tween target span start stop =>
    refine joined (backstage_spawn _ _ _ _) rfl ⟨.inr ?_, ?_⟩
    · simp [Fiber.watches, Fiber.start]
    · simp [Fiber.start, Act.isTechnical, Sweep.start]
  | play channel clip pitch => exact same (by rw [work, play_plain records.plain]; rfl)
  | hush channel span => exact same (faded channel span)
  | hushMusic span => exact same (faded .bgm span)
  | silence => cases plain
  | timer c =>
    refine joined (backstage_startCountdown w c) rfl ⟨.inr ?_, ?_⟩
    · simp [Fiber.watches, Fiber.start]
    · simp [Fiber.start, Act.isTechnical]
  | stopTimer => exact same (by rw [work, backstage_stopCountdown])
  | count timer due => exact same (by rw [work, backstage_countDown])
  | _ => exact fun f among => .inl among

/-- The turn of a fiber that notes a load. -/
theorem lay_turn_load (lay : ∀ f ∈ w.crew, f.Lay) (records : w.rig.Records) {job : SceneJob}
    (act : w.act? = some (.load job)) : ∀ f ∈ w.turn.crew, f.Lay := by
  obtain ⟨f, rest, after, ready, spared, fault, todo, turned⟩ := turn_doing act
  have own : f.Lay := lay_calm.mp (lay f.calm (calm_mem_crew ready))
  have noted : (w.taken f rest).rig.scenes = .noted := records.noted
  intro g among
  rw [turned, perform, performLoad_noted noted] at among
  rcases List.mem_cons.mp among with rfl | among
  · exact ⟨own.role, fun a member => own.todo a (by simp [todo, show a ∈ after from member])⟩
  · refine lay g ?_
    have among : g ∈ (w.taken f rest).crew := among
    simpa [crew, fibers, taken, ready] using .inr (by simpa [crew, fibers, taken] using among)

theorem lay_turn (lay : ∀ f ∈ w.crew, f.Lay) (records : w.rig.Records) (order : w.InOrder) :
    ∀ f ∈ w.turn.crew, f.Lay := by
  by_cases loads : ∃ job, w.act? = some (.load job)
  · obtain ⟨job, act⟩ := loads
    exact lay_turn_load lay records act
  refine lay_of_hands ?_
  have lay {g : Fiber} (among : g ∈ w.hands) : g.Lay := lay_calm.mp (lay _ (mem_crew_of_hands among))
  cases ready : w.ready with
  | nil =>
    have same : w.turn = w := by rw [turn, ready]
    rw [same]
    exact fun f => lay
  | cons f rest =>
    have own : f.Lay := lay (mem_hands_of_ready ready)
    have left {g : Fiber} (among : g ∈ (w.taken f rest).hands) : g.Lay :=
      lay (mem_hands_of_taken ready among)
    have stays {b : Backstage} (same : w.turn.backstage = b.yield f)
        (hands : b.hands = (w.taken f rest).hands) : ∀ g ∈ w.turn.hands, g.Lay := by
      intro g among
      have among : g ∈ w.turn.backstage.hands := among
      rw [same, yield_of_not_fade _ own.isFade, hands] at among
      exact left among
    have back {b : Backstage} {f' : Fiber} (same : w.turn.backstage = b.join f')
        (hands : ∀ g ∈ b.hands, g.Lay) (own : f'.Lay) : ∀ g ∈ w.turn.hands, g.Lay := by
      intro g among
      have among : g ∈ w.turn.backstage.hands := among
      rw [same] at among
      rcases Multiset.mem_cons.mp among with rfl | among
      · exact own
      · exact hands g among
    cases turn_turns order ready with
    | ends _ same => exact stays same rfl
    | @fetches r c f' _ _ _ _ _ _ _ run acts _ _ same =>
      exact back same (fun g => left) ⟨.inl run, by rw [acts]; exact c.isTechnical_acts _ _⟩
    | @works a after act _ todo _ works =>
      have plain := own.todo a (by simp [todo])
      have other (job : SceneJob) : a ≠ .load job := fun same => loads ⟨job, same ▸ act⟩
      have rest (b : Act) (member : b ∈ after) : b.isTechnical = false :=
        own.todo b (by simp [todo, member])
      cases works with
      | goes f' onward _ same =>
        refine back same (fun g among => ?_) (onward.lay own.role plain rest other)
        exact (lay_work (w := w.taken _ _) records plain g among).elim left id
      | takes f' _ _ onward _ same =>
        exact back same (fun g => left) (onward.lay own.role plain rest other)
      | bursts _ _ _ same => exact stays same rfl
      | falls _ same => exact stays same rfl
    | @unwinds a after e f' _ _ todo _ _ _ role todo' _ _ same =>
      have plain := own.todo a (by simp [todo])
      have amended : (w.taken f rest).amend a = w.taken f rest := by
        cases a with
        | silence => cases plain
        | _ => rfl
      rw [amended] at same
      refine back same (fun g => left) ⟨?_, fun b member => ?_⟩
      · rw [Fiber.isRun, Fiber.run?, Fiber.watches, role]
        exact own.role
      · rw [todo'] at member
        exact own.todo b (by simp [todo, member])

theorem Bare.turn (h : w.Bare) (records : w.rig.Records) (order : w.InOrder) : w.turn.Bare := by
  refine ⟨lay_turn h.fibers records order, ?_⟩
  cases ready : w.ready with
  | nil =>
    rw [World.turn, ready]
    exact h.fixtures
  | cons f rest =>
    have own : f.Lay := lay_calm.mp (h.fibers f.calm (calm_mem_crew ready))
    refine (fixtures_chores (chores_turn ready fun p engages => ?_)).trans h.fixtures
    exact engages.isFixture records h.loading own.isFade own.todo

/-! ### The host -/

theorem Bare.perm (h : w.Bare) (crew : x.crew.Perm w.crew) (fixtures : x.fixtures = w.fixtures) :
    x.Bare :=
  ⟨fun f among => h.fibers f (crew.mem_iff.mp among), fixtures.trans h.fixtures⟩

theorem nextFiber_cancelFade (w : World) (channel : Channel) :
    (w.cancelFade channel).nextFiber = w.nextFiber := by
  unfold cancelFade
  split <;> rfl

theorem Bare.brief (h : w.Bare) (records : w.rig.Records) {s : HostStep} (brief : s.isBrief = true)
    (plain : s.isStaging = false) : (w.apply s).1.Bare := by
  have kept : Keeps False w (w.apply s).1 := keeps_of_isBrief w brief
  cases s with
  | tick | burst | sleep => cases brief
  | load | boardIn | boardOut | release | failScenes => cases plain
  | setVar | setChosen | finishAnimation | look => exact h.perm (kept.perm rfl) rfl
  | execute n =>
    refine ⟨lay_of_hands fun f among => ?_, (fixtures_chores (chores_executeNumber w n rfl)).trans h.fixtures⟩
    have among : f ∈ (w.executeNumber n).1.backstage.hands := among
    have lay {g : Fiber} (among : g ∈ w.hands) : g.Lay :=
      lay_calm.mp (h.fibers _ (mem_crew_of_hands among))
    rcases backstage_executeNumber w n with ⟨e, -, same⟩ | ⟨q, -, -, same⟩
    · rw [same] at among
      exact lay among
    · rw [same, backstage_renewScope] at among
      have among : f ∈ _ ::ₘ w.hands := among
      rcases Multiset.mem_cons.mp among with rfl | among
      · exact ⟨.inl rfl, by simp [Fiber.start]⟩
      · exact lay among
  | select index =>
    have selected : (w.select index).1.nextFiber = w.nextFiber := by
      unfold select
      split <;> rfl
    exact h.perm (kept.perm selected) (fixtures_chores (chores_select w index))
  | abort | abortLoad =>
    have aborted (found : Option Fiber) : (w.abortFiber found).1.nextFiber = w.nextFiber ∧
        (w.abortFiber found).1.fixtures = w.fixtures := by
      cases found <;> exact ⟨rfl, rfl⟩
    exact h.perm (kept.perm (aborted _).1) (aborted _).2
  | cancelSideEffects =>
    exact h.perm (kept.perm (nextFiber_cancelSideEffects w)) (fixtures_chores (chores_cancelSideEffects w))
  | play channel clip pitch =>
    have played : (w.apply (.play channel clip pitch)).1 =
        w.record (.audio (.play channel clip pitch)) := play_plain records.plain ..
    rw [played] at kept ⊢
    exact h.perm (kept.perm rfl) rfl
  | fadeOut channel span =>
    have faded : (w.fadeOut channel span).1.nextFiber = w.nextFiber := by
      rcases fadeOut_plain records.plain channel span with same | same <;> rw [same]
      rfl
    have unmixed (mixed : w.rig.mixed = true) : Part.mixer.isFixture = false := by
      simp [records.plain] at mixed
    exact h.perm (kept.perm faded) (fixtures_chores (chores_fadeOut w channel span unmixed))
  | stopChannel channel =>
    refine ⟨fun f among => h.fibers f ?_, fixtures_stopChannel h.fixtures channel⟩
    exact (kept.perm (nextFiber_cancelFade w channel)).mem_iff.mp among
  | dropClock =>
    have dropped : w.dropClock.nextFiber = w.nextFiber ∧ w.dropClock.fixtures = w.fixtures := by
      unfold dropClock
      split <;> exact ⟨rfl, rfl⟩
    exact h.perm (kept.perm dropped.1) dropped.2

theorem Bare.lull (h : w.Bare) (records : w.rig.Records) (order : w.InOrder) (lull : Lull w x) :
    x.Bare := by
  cases lull with
  | turn => exact h.turn records order
  | publish delta keys =>
    have kept : Keeps False w (w.publish delta keys) := keeps_publish w delta keys
    exact h.perm (kept.perm rfl) rfl
  | reach time =>
    have kept : Keeps False w (w.reach time) := keeps_reach w time
    exact h.perm (kept.perm rfl) rfl

/-- Where a board is never brought into play, the doubles stay unused. -/
theorem bare_after {o : Opening} (records : o.rig.Records) (ms : List Move)
    (plain : ∀ s, .host s ∈ ms → s.isStaging = false) : (o.world.after ms).Bare := by
  have lulls {w x : World} (bare : w.Bare) (records : w.rig.Records) (play : w.InPlay)
      (lulls : Lulls w x) : x.Bare ∧ x.rig.Records ∧ x.InPlay := by
    induction lulls with
    | refl => exact ⟨bare, records, play⟩
    | tail _ lull ih =>
      obtain ⟨bare, records, play⟩ := ih
      exact ⟨bare.lull records play.order lull, rig_beat play.order (.lull lull) ▸ records,
        play.beat (.lull lull)⟩
  suffices moved : ∀ w : World, w.Bare → w.rig.Records → w.InPlay → (w.after ms).Bare by
    refine moved _ ⟨?_, rfl⟩ records (inPlay_opening o)
    simp [crew, fibers, Opening.world, new]
  induction ms with
  | nil => exact fun w bare _ _ => bare
  | cons m ms ih =>
    intro w bare records play
    have ih := ih fun s among => plain s (List.mem_cons_of_mem _ among)
    suffices step : (w.move m).Bare ∧ (w.move m).rig.Records ∧ (w.move m).InPlay from
      ih _ step.1 step.2.1 step.2.2
    cases m with
    | turn => exact lulls bare records play (.single (.turn w))
    | host s =>
      cases brief : s.isBrief with
      | true =>
        have beat : Beat w (w.apply s).1 := .brief w brief
        exact ⟨bare.brief records brief (plain s List.mem_cons_self),
          rig_beat play.order beat ▸ records, play.beat beat⟩
      | false => exact lulls bare records play (lulls_apply w brief)

end World

end SceneScript
