import SceneScript.Proofs.Past
import SceneScript.Proofs.Places
import SceneScript.Proofs.Plans
import SceneScript.Proofs.Toil
/-!
A script can hold its run up, but not for good. Every wait ahead of a run counts (`Act.waits`); no
turn adds one unless the run leaves its command, and for whatever a run waits for there is a step of
the host that ends the wait (`serves`). So the run can always be brought to leave its command
(`runs_can_go_on`), except from a choice that offers nothing (`empty_choice_holds_up`).
-/

namespace SceneScript

/-- The run leaves the command that it is in: it enters another one, or it ends. -/
def Event.departs : Event → Bool
  | .stepped .. | .completed | .aborted _ => true
  | _ => false

/-- A reader that has taken every frame takes the next one as soon as it is published. -/
theorem Feed.pull_published {feed : Feed} {c : Cursor} (deep : 0 < feed.depth)
    (here : c.taken = feed.count) (delta : Span) (keys : Keys) :
    (feed.publish delta keys).pull c =
      .frame ⟨feed.count + 1, delta, keys⟩ ⟨feed.count + 1⟩ 0 := by
  have size : (feed.publish delta keys).frames.size = feed.count + 1 := Array.size_push ..
  have place : max c.taken ((feed.publish delta keys).frames.size -
      (feed.publish delta keys).depth) = feed.count := by
    rw [here, size]
    have depth : (feed.publish delta keys).depth = feed.depth := rfl
    omega
  have found : (feed.publish delta keys).frames[feed.count]? =
      some ⟨feed.count + 1, delta, keys⟩ := Array.getElem?_push_size
  unfold pull
  dsimp only
  rw [place, found, here, Nat.sub_self]

theorem ChoiceSlot.receipt_mark {slot : ChoiceSlot} {receiver : Nat}
    (waiting : slot.receipt receiver = .waiting) (r : Receipt) :
    (slot.mark receiver r).receipt receiver = r := by
  have bound : receiver < slot.receipts.size := by
    by_contra outside
    rw [receipt, Array.getD_eq_getD_getElem?, Array.getElem?_eq_none (Nat.not_lt.mp outside)]
      at waiting
    cases waiting
  simp [receipt, mark, Array.getD_eq_getD_getElem?, bound]

namespace Act

/-- How many waits an act may lead to, the one before it included. -/
def waits : Act → Nat
  | .sweep s => if s.elapsed < s.span then 1 else 0
  | .stride _ | .confirm | .finish _ | .chosen .. | .enterScene _ | .clearBoard _ => 1
  | .answer .. => 2
  | .offer _ | .load _ => 3
  | .reveal r => r.last - r.shown
  | _ => 0

variable {a : Act} {acts new : List Act} {wait : Wait}

theorem waits_sweep_le (s : Sweep) : (Act.sweep s).waits ≤ 1 := by
  unfold waits
  dsimp only
  split <;> omega

theorem waits_job_le (job : SceneJob) : (job.acts.map waits).sum ≤ 3 := by
  have covers := waits_sweep_le (.start .board (.board job.color 0 1) job.span.half)
  have uncovers :=
    waits_sweep_le (.start .board (.board job.color 1 0) (job.span.without job.span.half))
  have music : ((if job.fadeMusic then [Act.hushMusic job.span] else []).map waits).sum = 0 := by
    split <;> rfl
  unfold SceneJob.acts
  dsimp only
  rw [List.map_append, List.sum_append, music]
  simp only [List.map_cons, List.map_nil, List.sum_cons, List.sum_nil]
  simp only [waits] at covers uncovers ⊢
  omega

/-- What takes the place of an act leads to no more waits than the act. -/
theorem waits_of_puts (puts : a.Puts new) : (new.map waits).sum ≤ a.waits := by
  cases a with
  | sweep s =>
    rcases puts with rfl | ⟨going, rfl⟩
    · exact Nat.zero_le _
    · simp [waits, going]
  | stride s =>
    rcases puts with rfl | ⟨s', -, rfl⟩
    · simp
    · exact waits_sweep_le s'
  | reveal r =>
    rcases puts with rfl | ⟨hidden, call, span, rfl⟩
    · exact Nat.zero_le _
    · have pause := waits_sweep_le (.pause span)
      simp only [List.map_cons, List.map_nil, List.sum_cons, List.sum_nil]
      simp only [waits] at pause ⊢
      omega
  | load job =>
    rcases puts with rfl | rfl
    · exact Nat.zero_le _
    · exact waits_job_le job
  | clearBoard =>
    obtain ⟨color, start, stop, span, rfl⟩ := puts
    exact waits_sweep_le _
  | finish | confirm | branch | enterScene => rcases puts with rfl | rfl <;> simp [waits]
  | answer | count => rcases puts with rfl | ⟨_, rfl⟩ <;> simp [waits]
  | offer | switch =>
    obtain ⟨_, rfl⟩ := puts
    simp [opening, Command.animate, waits]
  | chosen =>
    obtain rfl := puts
    simp [closing, Command.animate, waits]
  | _ =>
    obtain rfl : new = _ := puts
    exact Nat.zero_le _

theorem waits_pos_of_lane? {lane : Lane} (takes : a.lane? = some lane) : 0 < a.waits := by
  cases a with
  | stride | confirm => exact Nat.one_pos
  | _ => cases takes

/-- The frame ends the wait before the act. -/
def Ends (fr : Frame) : Act → Prop
  | .stride s => ∀ s', s.take? fr = some s' → s'.span ≤ s'.elapsed
  | .confirm => fr.keys.confirm = true
  | _ => False

end Act

namespace Fiber

def waits (f : Fiber) : Nat := (f.todo.map Act.waits).sum

/-- The fiber has a frame to take that ends its wait. -/
def Fed (f : Fiber) (feed : Feed) : Prop := ∃ a after lane fr c missed, f.todo = a :: after ∧
  a.lane? = some lane ∧ feed.pull (f.place feed lane) = .frame fr c missed ∧ a.Ends fr

variable {f g : Fiber} {feed : Feed} {a : Act} {after : List Act}

theorem waits_cons (todo : f.todo = a :: after) :
    f.waits = a.waits + (after.map Act.waits).sum := by
  rw [waits, todo, List.map_cons, List.sum_cons]

theorem waits_of_calm (calm : g.calm = f.calm) : g.waits = f.waits := by
  rw [waits, waits, (fields_of_calm calm).2.2.1]

theorem Fed.of_calm (h : f.Fed feed) (calm : g.calm = f.calm) : g.Fed feed := by
  have same : g.calm.Fed feed := by
    rw [calm]
    exact h
  exact same

end Fiber

/-! ### Waits ahead -/

/-- At most `n` waits are ahead of a run, or one more, which a frame is about to end. -/
def Backstage.Due (b : Backstage) (n : Nat) : Prop := ∀ f ∈ b.hands, f.isRun = true →
  f.waits ≤ n ∨ f.waits = n + 1 ∧ f.Fed b.feed

namespace Backstage

variable {b b' : Backstage} {f : Fiber} {n : Nat}

theorem Due.joins (h : b.Due n) (joins : b.Joins b') (feed : b'.feed = b.feed) : b'.Due n := by
  intro g among run
  rcases joins.hands g among with ⟨f, before, calm⟩ | fresh
  · have same : f.isRun = true := by
      rw [← f.calm_isRun, ← calm]
      exact run
    rw [feed, Fiber.waits_of_calm calm]
    exact (h f before same).imp_right fun ⟨more, fed⟩ => ⟨more, fed.of_calm calm⟩
  · left
    rw [Fiber.waits, (fresh.run run).2]
    exact Nat.zero_le n

theorem Due.join (h : b.Due n) (own : f.isRun = true → f.waits ≤ n) : (b.join f).Due n := by
  intro g among run
  rcases Multiset.mem_cons.mp among with rfl | among
  · exact .inl (own run)
  · exact h g among run

end Backstage

namespace World

open Backstage

variable {w w' x : World} {f : Fiber} {a : Act} {rest : List Fiber} {after : List Act} {n : Nat}

/-- The fiber has the next turn, and it need not wait for its act. -/
def Freed (w : World) (f : Fiber) : Prop := w.ready.head? = some f ∧ ∃ a after, f.todo = a :: after ∧
  a.suspends = true ∧ a.lane? = none ∧ 0 < a.waits ∧ ∀ wait, ¬ w.Stuck f a wait

/-- At most `n` waits are ahead of the run, or one more that is about to end. -/
def Due (w : World) (n : Nat) : Prop := ∀ f ∈ w.hands, f.isRun = true →
  f.waits ≤ n ∨ f.waits = n + 1 ∧ (f.Fed w.feed ∨ w.Freed f)

theorem Due.taken (h : w.Due n) (order : w.InOrder) (ready : w.ready = f :: rest) :
    (w.taken f rest).backstage.Due n := by
  intro g among run
  rcases h g (mem_hands_of_taken ready among) run with few | ⟨more, fed | ⟨head, -⟩⟩
  · exact .inl few
  · exact .inr ⟨more, fed⟩
  · rw [ready] at head
    obtain rfl := Option.some.inj head
    exact absurd rfl (order.fresh_taken ready f among)

/-- A wait that is about to end is over. -/
theorem Meets.lessens (meets : Meets w { f with todo := after } a x) (suspends : a.suspends = true)
    (todo : f.todo = a :: after) (waits : 0 < a.waits)
    (free : (a.lane? = none ∧ ∀ wait, ¬ w.Stuck f a wait) ∨ ∃ lane fr c missed,
      a.lane? = some lane ∧ w.feed.pull (f.place w.feed lane) = .frame fr c missed ∧ a.Ends fr) :
    (∃ b f', x.backstage = b.join f' ∧ w.backstage.Joins b ∧ f'.waits < f.waits) ∨
      w.backstage.Joins x.backstage := by
  have ahead := Fiber.waits_cons todo
  cases meets with
  | @waits b wait puts stuck =>
    exfalso
    rcases eq_of_stuck suspends puts stuck with rfl | ⟨i, due, due', rfl, rfl⟩
    · rcases free with ⟨-, free⟩ | ⟨lane, fr, c, missed, takes, pulled, -⟩
      · exact free wait stuck
      · cases b with
        | stride s =>
          obtain rfl := Option.some.inj takes
          cases wait with
          | frame => cases pulled.symm.trans stuck
          | _ => exact stuck
        | confirm =>
          obtain rfl := Option.some.inj takes
          cases wait with
          | frame => cases pulled.symm.trans stuck
          | _ => exact stuck
        | _ => cases takes
    · cases waits
  | passes f' own same =>
    refine .inl ⟨_, f', same, joins_work w a, ?_⟩
    have left : f'.waits = (after.map Act.waits).sum := by
      rcases own with rfl | ⟨e, rfl⟩ <;> rfl
    omega
  | @hears receiver options index act same =>
    subst act
    refine .inl ⟨_, _, same, .refl _, ?_⟩
    have left : (Fiber.first { f with todo := after } [.resync, .chosen index options]).waits =
        0 + (1 + (after.map Act.waits).sum) := rfl
    have whole : f.waits = 2 + (after.map Act.waits).sum := ahead
    omega
  | @takes lane fr c missed new takes pulled how same =>
    refine .inl ⟨_, _, same, joins_write _ _, ?_⟩
    rcases free with ⟨none, -⟩ | ⟨lane', fr', c', missed', takes', pulled', ends⟩
    · rw [none] at takes
      cases takes
    obtain rfl := Option.some.inj (takes.symm.trans takes')
    have pulled : w.feed.pull (f.place w.feed lane) = .frame fr c missed := pulled
    rw [pulled'] at pulled
    cases pulled
    have spent : (new.map Act.waits).sum = 0 := by
      rcases how with ⟨rfl, rfl⟩ | ⟨s, s', rfl, taken, rfl⟩
      · have pressed : fr.keys.confirm = true := ends
        rw [if_pos pressed]
        rfl
      · have past : s'.span ≤ s'.elapsed := ends s' taken
        have passed : ¬ s'.elapsed < s'.span := Nat.not_lt.mpr past
        simp [Act.waits, passed]
    have left : ((Fiber.setCursor { f with todo := after } lane c).first new).waits =
        (new.map Act.waits).sum + (after.map Act.waits).sum := by
      rw [Fiber.waits, Fiber.first, (setCursor_fields _ lane c).2.2.1, List.map_append,
        List.sum_append]
    omega
  | bursts same => exact .inr (same ▸ (joins_write _ _).trans (joins_yield _ _))
  | ticks next act =>
    rw [act] at waits
    cases waits

end World

/-! ### Leaving a command -/

/-- What a host can do for a run: frames, selections, ends of animations, releases of a scene. -/
def HostStep.isGentle : HostStep → Bool
  | .tick _ | .burst _ | .select _ | .finishAnimation _ | .release => true
  | _ => false

theorem Outcome.departs (o : Outcome) : o.event.departs = true := by
  cases o <;> rfl

namespace Plot

variable {p p' : Plot} {l : Lead}

theorem events_ends (p : Plot) (l : Lead) (o : Outcome) :
    (p.ends l o).events = p.events ++ [o.event] := List.filterMap_append

theorem events_enters (p : Plot) (l : Lead) (c : Command) (settings : Settings) (page : Page) :
    (p.enters l c settings page).events = p.events ++ [Event.stepped l.run.pointer c.opcode] :=
  List.filterMap_append

/-- In its turn a run leaves its command, or it had something left to do and is still in it. -/
theorem Plays.moves (plays : Plays l p p') :
    (∃ e : Event, p'.events = p.events ++ [e] ∧ e.departs = true) ∨
      l.todo ≠ [] ∧ p'.state.command = p.state.command ∧
        p'.state.executing = p.state.executing := by
  cases plays with
  | completes | fails | stops => exact .inl ⟨_, events_ends p l _, Outcome.departs _⟩
  | breaks text touched =>
    exact .inl ⟨_, by rw [events_ends, touched.events], Outcome.departs _⟩
  | fetches => exact .inl ⟨_, events_enters p l _ _ _, rfl⟩
  | calls todo _ touched =>
    obtain ⟨chosen, state⟩ := touched.state
    have command := congrArg Execution.command state
    have executing := congrArg Execution.executing state
    exact .inr ⟨by simp [todo], command, executing⟩
  | goes todo | skips todo | shows todo | offers _ todo | refuses _ _ todo | hears _ todo
  | misses _ todo | chooses todo | holds todo | turns todo | switches _ todo | unheard todo
  | jumps todo | strays todo => exact .inr ⟨by simp [todo], rfl, rfl⟩

end Plot

namespace World

variable {w w' : World} {f : Fiber} {rest : List Fiber} {n : Nat}

/-- On the way from `w` to `w'` the run left the command that it was in. -/
def MovesOn (w w' : World) : Prop :=
  ∃ es, w'.events = w.events ++ es ∧ es.any Event.departs = true

/-- The run is still in the command that it was in. -/
structure Lingers (w w' : World) : Prop where
  command : w'.state.command = w.state.command
  executing : w'.state.executing = w.state.executing

theorem Lingers.refl (w : World) : Lingers w w := ⟨rfl, rfl⟩

theorem Lingers.trans {w'' : World} (first : Lingers w w') (second : Lingers w' w'') :
    Lingers w w'' :=
  ⟨second.command.trans first.command, second.executing.trans first.executing⟩

theorem MovesOn.after {w'' : World} (moves : MovesOn w w') {es : List Event}
    (grown : w''.events = w'.events ++ es) : MovesOn w w'' := by
  obtain ⟨es', told, departs⟩ := moves
  refine ⟨es' ++ es, by rw [grown, told, List.append_assoc], ?_⟩
  rw [List.any_append, departs]
  rfl

theorem MovesOn.before {w'' : World} (moves : MovesOn w' w'') {es : List Event}
    (grown : w'.events = w.events ++ es) : MovesOn w w'' := by
  obtain ⟨es', told, departs⟩ := moves
  refine ⟨es ++ es', by rw [told, grown, List.append_assoc], ?_⟩
  rw [List.any_append, departs, Bool.or_true]

theorem events_eq_plot (w : World) : w.events = w.plot.events := events_eq_story w

theorem MovesOn.of_plot {e : Event} (told : w'.plot.events = w.plot.events ++ [e])
    (departs : e.departs = true) : MovesOn w w' := by
  refine ⟨[e], by rw [events_eq_plot, events_eq_plot, told], ?_⟩
  rw [List.any_cons, departs]
  rfl

/-- The run leaves its command in the turn of its fiber, unless the fiber has something left to do. -/
theorem turn_moves (order : w.InOrder) : MovesOn w w.turn ∨ Lingers w w.turn ∧
    ∀ f rest, w.ready = f :: rest → f.isRun = true → f.doomed = false → f.todo ≠ [] := by
  cases ready : w.ready with
  | nil =>
    rw [World.turn, ready]
    refine .inr ⟨.refl w, fun f rest none => ?_⟩
    cases none
  | cons f rest =>
    cases run : f.run? with
    | none =>
      have background : f.isRun = false := by rw [Fiber.isRun, run]; rfl
      have state := (beside_turn order ready background).state
      refine .inr ⟨⟨congrArg _ state, congrArg _ state⟩, fun g rest' same running => ?_⟩
      obtain ⟨rfl, -⟩ := List.cons.inj same
      rw [background] at running
      cases running
    | some r =>
      have role := role_of_run? run
      have attended := order.staged.attended
      cases doomed : f.doomed with
      | true =>
        left
        obtain ⟨alone, back, -⟩ := taken_run attended ready role
        have plot : w.turn.plot = (w.taken f rest).plot.ends (f.leading r) .cancelled := by
          rw [turn_cons ready, advance, if_pos doomed]
          exact plot_conclude .cancelled role alone rfl
        refine .of_plot (e := Outcome.event .cancelled) ?_ (Outcome.departs _)
        rw [plot, ← back]
        exact Plot.events_ends _ _ _
      | false =>
        have stays (left : f.todo ≠ []) (lingers : Lingers w w.turn) : Lingers w w.turn ∧
            ∀ g rest', f :: rest = g :: rest' → g.isRun = true → g.doomed = false → g.todo ≠ [] := by
          refine ⟨lingers, fun g rest' same _ _ => ?_⟩
          obtain ⟨rfl, -⟩ := List.cons.inj same
          exact left
        rcases (turned_turn attended ready role).1 with plays | ⟨same, receiver, options, after, todo⟩
        · rcases plays.moves with ⟨e, told, departs⟩ | ⟨left, command, executing⟩
          · exact .inl (.of_plot told departs)
          · exact .inr (stays left ⟨command, executing⟩)
        · refine .inr (stays (by simp [todo]) ⟨?_, ?_⟩)
          · exact congrArg (·.state.command) same
          · exact congrArg (·.state.executing) same

/-! ### Turns -/

section

open Backstage

theorem waits_onward {a : Act} {f' : Fiber} {after : List Act} (todo : f.todo = a :: after)
    (onward : a.Onward { f with todo := after } f') : f'.waits ≤ f.waits := by
  rw [Fiber.waits_cons todo, Fiber.waits]
  rcases onward.goes with ⟨-, new, todo', puts⟩ | ⟨-, todo'⟩
  · have fewer := Act.waits_of_puts puts
    rw [todo', List.map_append, List.sum_append]
    exact Nat.add_le_add_right fewer _
  · rw [todo']
    exact Nat.le_add_left _ _

theorem waits_pos_of_ends {a : Act} {after : List Act} (todo : f.todo = a :: after)
    (end? : f.Fed w.feed ∨ w.Freed f) : 0 < a.waits := by
  rcases end? with ⟨b, after', lane, fr, c, missed, todo', takes, -⟩ |
    ⟨-, b, after', todo', -, -, waits, -⟩
  · obtain ⟨rfl, rfl⟩ := List.cons.inj (todo.symm.trans todo')
    exact Act.waits_pos_of_lane? takes
  · obtain ⟨rfl, rfl⟩ := List.cons.inj (todo.symm.trans todo')
    exact waits

/-- The turn of a fiber that is about to end a wait. -/
theorem turn_lessens {b : Act} {after : List Act} (act : w.act? = some b)
    (ready : w.ready = f :: rest) (todo : f.todo = b :: after)
    (end? : f.Fed w.feed ∨ w.Freed f) :
    (∃ b f', w.turn.backstage = b.join f' ∧ (w.taken f rest).backstage.Joins b ∧
      f'.waits < f.waits) ∨ (w.taken f rest).backstage.Joins w.turn.backstage := by
  obtain ⟨f', rest', after', ready', -, -, todo', turned⟩ := turn_doing act
  obtain ⟨rfl, rfl⟩ := List.cons.inj (ready.symm.trans ready')
  obtain rfl := (List.cons.inj (todo.symm.trans todo')).2
  have meets := perform_meets (w.taken f rest) { f with todo := after } b
  rw [turned]
  rcases end? with ⟨a, after', lane, fr, c, missed, todo', takes, pulled, ends⟩ |
    ⟨-, a, after', todo', suspends, none, waits, free⟩
  · obtain ⟨rfl, rfl⟩ := List.cons.inj (todo.symm.trans todo')
    have suspends : b.suspends = true := by
      cases b with
      | stride | confirm => rfl
      | _ => cases takes
    exact (meets suspends).lessens suspends todo (Act.waits_pos_of_lane? takes)
      (.inr ⟨lane, fr, c, missed, takes, pulled, ends⟩)
  · obtain ⟨rfl, rfl⟩ := List.cons.inj (todo.symm.trans todo')
    exact (meets suspends).lessens suspends todo waits (.inl ⟨none, free⟩)

/-- No turn adds a wait unless the run leaves its command, and a wait that is about to end is over
after the turn of the run. -/
theorem Due.turn (due : w.Due n) (play : w.InPlay) :
    MovesOn w w.turn ∨ Lingers w w.turn ∧ w.turn.Due n := by
  rcases turn_moves play.order with moves | ⟨lingers, works⟩
  · exact .inl moves
  refine .inr ⟨lingers, ?_⟩
  cases ready : w.ready with
  | nil =>
    rw [World.turn, ready]
    exact due
  | cons f rest =>
    have feed : w.turn.backstage.feed = w.feed := play.screened.feed_turn play.order
    have others := due.taken play.order ready
    have own := due f (mem_hands_of_ready ready)
    suffices behind : w.turn.backstage.Due n from fun g among run =>
      (behind g among run).imp_right fun more => ⟨more.1, .inl more.2⟩
    have back {b : Backstage} {f' : Fiber} (same : w.turn.backstage = b.join f')
        (joins : (w.taken f rest).backstage.Joins b) (few : f'.isRun = true → f'.waits ≤ n) :
        w.turn.backstage.Due n := by
      rw [same] at feed ⊢
      exact (others.joins joins feed).join few
    have gone (joins : (w.taken f rest).backstage.Joins w.turn.backstage) :
        w.turn.backstage.Due n := others.joins joins feed
    cases turn_turns play.order ready with
    | ends _ same => exact gone (same ▸ joins_yield _ f)
    | fetches f' _ spared role empty =>
      exact absurd empty (works f rest ready (f.isRun_iff.mpr ⟨_, role⟩) spared)
    | @unwinds a after e f' _ _ todo _ _ _ role todo' _ _ same =>
      have run : f'.isRun = f.isRun := by
        rw [Fiber.isRun, Fiber.run?, role]
        rfl
      refine back same (joins_amend _ a) fun running => ?_
      have whole := Fiber.waits_cons todo
      have left : f'.waits = (after.map Act.waits).sum := by rw [Fiber.waits, todo']
      rcases own (run ▸ running) with few | ⟨more, end?⟩
      · omega
      · have some := waits_pos_of_ends todo end?
        omega
    | @works a after act _ todo _ works =>
      by_cases about : f.isRun = true ∧ (f.Fed w.feed ∨ w.Freed f)
      · obtain ⟨run, end?⟩ := about
        have most : f.waits ≤ n + 1 := by
          rcases own run with few | ⟨more, -⟩ <;> omega
        rcases turn_lessens act ready todo end? with ⟨b, f', same, joins, less⟩ | joins
        · exact back same joins fun _ => by omega
        · exact gone joins
      · have few (run : f.isRun = true) : f.waits ≤ n := by
          rcases own run with few | ⟨-, end?⟩
          · exact few
          · exact absurd ⟨run, end?⟩ about
        have onwards {f' : Fiber} (onward : a.Onward { f with todo := after } f')
            (run : f'.isRun = true) : f'.waits ≤ n :=
          Nat.le_trans (waits_onward todo onward) (few (onward.isRun ▸ run))
        cases works with
        | goes f' onward _ same => exact back same (joins_work _ _) (onwards onward)
        | takes f' _ _ onward _ same => exact back same (joins_write _ _) (onwards onward)
        | bursts _ _ _ same => exact gone (same ▸ (joins_write _ _).trans (joins_yield _ _))
        | falls _ same => exact gone (same ▸ joins_yield _ _)

end

/-! ### At rest -/

theorem parked_of_rest (rest : w.ready = []) (among : f ∈ w.hands) : ∃ b ∈ w.blocked, b.fiber = f := by
  have there := mem_hands.mp among
  rw [fibers, rest, List.nil_append] at there
  exact List.mem_map.mp there

/-- What is known of a world in which every fiber waits and a run is under way. -/
structure Suspended (w : World) : Prop where
  play : w.InPlay
  manned : w.backstage.Manned
  halted : w.Halted
  placed : w.backstage.Placed
  deep : 0 < w.feed.depth
  desk : ∃ pick, w.Desk pick
  rest : w.ready = []
  executing : w.state.executing = true

theorem Due.few (due : w.Due n) (halted : w.Halted) (rest : w.ready = []) :
    ∀ f ∈ w.hands, f.isRun = true → f.waits ≤ n := by
  intro f among run
  rcases due f among run with few | ⟨-, fed | ⟨head, -⟩⟩
  · exact few
  · -- whoever is parked for a frame has taken them all
    exfalso
    obtain ⟨b, parked, rfl⟩ := parked_of_rest rest among
    obtain ⟨a, after, lane, fr, c, missed, todo, takes, pulled, -⟩ := fed
    obtain ⟨a', after', todo', halts⟩ := (halted b parked).stands
    obtain ⟨rfl, rfl⟩ := List.cons.inj (todo.symm.trans todo')
    have frame : b.wait = .frame := by
      cases a with
      | stride | confirm => cases wait : b.wait <;> first | rfl | (rw [wait] at halts; cases halts)
      | _ => cases takes
    have read := (halted b parked).read frame lane (by rw [todo]; exact takes)
    obtain ⟨found, -⟩ := Feed.of_pull_eq_frame pulled
    obtain ⟨within, -⟩ := Array.getElem?_eq_some_iff.mp found
    have taken : w.feed.count ≤ (b.fiber.place w.feed lane).taken := by
      unfold Fiber.place
      cases stands : b.fiber.cursorOn lane with
      | none => exact Nat.le_refl _
      | some c => exact read c stands
    unfold Feed.count at taken
    omega
  · rw [rest] at head
    cases head

namespace Suspended

variable (h : w.Suspended)
include h

/-- At most one run is under way. -/
theorem alone {f g : Fiber} (among : f ∈ w.hands) (run : f.isRun = true) (among' : g ∈ w.hands)
    (run' : g.isRun = true) : g = f := by
  obtain ⟨r, role⟩ := f.isRun_iff.mp run
  obtain ⟨r', role'⟩ := g.isRun_iff.mp run'
  have listed {f : Fiber} {r : Run} (among : f ∈ w.hands) (role : f.role = .run r) :
      f.leading r ∈ w.leads :=
    List.mem_filterMap.mpr ⟨f, mem_hands.mp among, lead?_of_role role⟩
  have one : w.leads.length ≤ 1 := h.play.order.staged.attended.1
  have first := listed among role
  have second := listed among' role'
  obtain ⟨l, leads⟩ := List.length_eq_one_iff.mp (Nat.le_antisymm one (List.length_pos_of_mem first))
  rw [leads, List.mem_singleton] at first second
  have same : f.leading r = g.leading r' := first.trans second.symm
  exact h.manned.eq_of_id among' among (congrArg Lead.id same).symm

/-- The fiber of the run waits before an act. -/
theorem stands : ∃ b ∈ w.blocked, b.fiber.isRun = true ∧ ∃ a after, b.fiber.todo = a :: after ∧
    a.halts b.wait = true ∧ 0 < a.waits := by
  have attended := h.play.order.staged.attended
  obtain ⟨l, listed⟩ := List.exists_mem_of_ne_nil _ (attended.2.mp h.executing)
  obtain ⟨f, among, lead⟩ := List.mem_filterMap.mp listed
  have run : f.isRun = true := by
    rw [← isSome_lead?, lead]
    rfl
  obtain ⟨b, parked, rfl⟩ := parked_of_rest h.rest (mem_hands.mpr among)
  obtain ⟨a, after, todo, halts⟩ := (h.halted b parked).stands
  refine ⟨b, parked, run, a, after, todo, halts, ?_⟩
  cases a with
  | count i due =>
    have counts : .count i due ∈ b.fiber.todo := by simp [todo]
    obtain ⟨s, role⟩ := counts_own h.play.order h.manned (mem_hands.mpr among) counts
    rw [Fiber.isRun, Fiber.run?, role] at run
    cases run
  | finish | stride | confirm | answer | enterScene => simp [Act.waits]
  | _ => cases halts

end Suspended

/-! ### What ends a wait -/

theorem due_of_ends (hands : w'.hands = w.hands) (alone : ∀ g ∈ w.hands, g.isRun = true → g = f)
    (few : f.waits ≤ n + 1) (end? : f.Fed w'.feed ∨ w'.Freed f) : w'.Due n := by
  intro g among run
  obtain rfl := alone g (hands ▸ among) run
  rcases Nat.lt_or_eq_of_le few with less | same
  · exact .inl (Nat.le_of_lt_succ less)
  · exact .inr ⟨same, end?⟩

/-- Whoever is woken alone has the next turn. -/
theorem head_wake {b : Parked} {wakes : Parked → Bool} (rest : w.ready = []) (parked : b ∈ w.blocked)
    (woken : wakes b = true) (alone : ∀ b' ∈ w.blocked, wakes b' = true → b'.fiber = b.fiber) :
    (w.wake wakes).ready.head? = some b.fiber := by
  show (w.ready ++ (w.blocked.filter wakes).map (·.fiber)).head? = _
  rw [rest, List.nil_append, List.head?_map]
  have among : b ∈ w.blocked.filter wakes := List.mem_filter.mpr ⟨parked, woken⟩
  cases first : w.blocked.filter wakes with
  | nil =>
    rw [first] at among
    cases among
  | cons b' others =>
    have head : b' ∈ w.blocked.filter wakes := by simp [first]
    obtain ⟨there, wakes'⟩ := List.mem_filter.mp head
    exact congrArg some (alone b' there wakes')

namespace Suspended

variable (h : w.Suspended) {b : Parked} {a : Act} {after : List Act}
include h

/-- Nobody but the fiber of a run waits for an animation or for an answer. -/
theorem isRun_of_parts (parked : b ∈ w.blocked) (todo : b.fiber.todo = a :: after)
    (parts : a.parts = true) : b.fiber.isRun = true := by
  by_contra background
  have allowed := dutiful_hands h.play.order (mem_hands_of_blocked parked)
    (by simpa using background) a (by simp [todo])
  cases a with
  | finish | answer => cases role : b.fiber.role <;> rw [role] at allowed <;> cases allowed
  | _ => cases parts

theorem freed_finish {an : Animation} (parked : b ∈ w.blocked) (run : b.fiber.isRun = true)
    (todo : b.fiber.todo = .finish an :: after) (wait : b.wait = .permit) :
    (w.grantPermits 1).Freed b.fiber := by
  refine ⟨?_, _, after, todo, rfl, rfl, Nat.one_pos, fun wait stuck => ?_⟩
  · refine head_wake (w := { w with permits := w.permits + 1 }) h.rest parked (by simp [wait])
      fun b' parked' waits => ?_
    obtain ⟨a', after', todo', halts⟩ := (h.halted b' parked').stands
    have parts : a'.parts = true := by
      rw [show b'.wait = .permit by simpa using waits] at halts
      cases a' <;> first | rfl | cases halts
    exact h.alone (mem_hands_of_blocked parked) run (mem_hands_of_blocked parked')
      (h.isRun_of_parts parked' todo' parts)
  · cases wait with
    | permit => exact absurd stuck.2 (Nat.succ_ne_zero _)
    | _ => exact stuck

theorem freed_scene {scene : String} (parked : b ∈ w.blocked)
    (todo : b.fiber.todo = .enterScene scene :: after) (wait : b.wait = .scene) :
    w.grantRelease.Freed b.fiber := by
  refine ⟨?_, _, after, todo, rfl, rfl, Nat.one_pos, fun wait stuck => ?_⟩
  · refine head_wake (w := { w with releases := w.releases + 1 }) h.rest parked (by simp [wait])
      fun b' parked' waits => ?_
    obtain ⟨a', after', todo', halts⟩ := (h.halted b' parked').stands
    have holds {b : Parked} {a : Act} {after : List Act} (parked : b ∈ w.blocked)
        (todo : b.fiber.todo = a :: after) (halts : a.halts .scene = true) :
        b.fiber.calm ∈ w.holders := by
      have among := mem_hands_of_blocked parked
      refine mem_holders.mpr ⟨List.mem_map_of_mem (mem_hands.mp among), ?_⟩
      refine holdsScene_of_covering (f := b.fiber) (h.placed b.fiber among) todo ?_
      cases a with
      | enterScene => rfl
      | _ => cases halts
    have halts : a'.halts .scene = true := by
      rwa [show b'.wait = .scene by simpa using waits] at halts
    have one : w.holders.card ≤ 1 := by
      rw [h.play.screened.card]
      split <;> omega
    have first := holds parked todo rfl
    have second := holds parked' todo' halts
    obtain ⟨f, only⟩ := Multiset.card_eq_one.mp
      (Nat.le_antisymm one (Multiset.card_pos_iff_exists_mem.mpr ⟨_, first⟩))
    rw [only, Multiset.mem_singleton] at first second
    have calm : b'.fiber.calm = b.fiber.calm := second.trans first.symm
    exact h.manned.eq_of_id (mem_hands_of_blocked parked') (mem_hands_of_blocked parked)
      (Fiber.fields_of_calm calm).1
  · have granted : w.grantRelease.waitsForRelease = false := by
      unfold waitsForRelease
      split
      · rename_i gated _
        show (gated && (w.releases + 1 == 0)) = false
        simp
      · rfl
    cases wait with
    | scene => exact absurd (granted.symm.trans stuck) Bool.false_ne_true
    | _ => exact stuck

/-- Before an answer the run waits for the offer of its choice. -/
theorem offered {receiver : Nat} {options : List String} (parked : b ∈ w.blocked)
    (run : b.fiber.isRun = true) (todo : b.fiber.todo = .answer receiver options :: after)
    (asked : w.state.command ≠ some (.choice [])) : ∃ offer, w.slot.pending = some offer ∧
      offer.receiver = receiver ∧ b.wait = .answer receiver ∧ 0 < offer.available := by
  obtain ⟨pick, desk⟩ := h.desk
  obtain ⟨a', after', todo', halts⟩ := (h.halted b parked).stands
  obtain ⟨rfl, rfl⟩ := List.cons.inj (todo.symm.trans todo')
  obtain ⟨r, role⟩ := b.fiber.isRun_iff.mp run
  have unpermitted (permit : w.Animates b.wait) : False := by
    rw [permit.2] at halts
    cases halts
  have lead : b.fiber.leading r ∈ w.leads :=
    List.mem_filterMap.mpr ⟨_, mem_hands.mp (mem_hands_of_blocked parked), lead?_of_role role⟩
  cases desk with
  | bare _ plain =>
    have none := plain _ lead
    rw [show (b.fiber.leading r).todo = _ from todo, List.any_cons] at none
    cases none
  | given _ _ _ doing => exact (unpermitted (doing.waits b parked run)).elim
  | heard _ _ doing => exact (unpermitted (doing.waits b parked run)).elim
  | offered receiver' options' doing pending waiting =>
    have desk : w.Desk none := .offered receiver' options' doing pending waiting
    obtain ⟨-, options'', command, available, -⟩ := desk.choice h.play.order pending
    obtain ⟨l, leads, -, -, suffix⟩ := doing.lead
    rw [leads, List.mem_singleton] at lead
    rw [← lead, show (b.fiber.leading r).todo = _ from todo] at suffix
    rcases Act.suffix_opening suffix with ⟨opens, -⟩ | ⟨same, -⟩
    · cases opens
    cases same
    refine ⟨_, pending, rfl, (doing.waits b parked run).resolve_left unpermitted, ?_⟩
    rw [available]
    refine List.length_pos_iff.mpr fun none => asked ?_
    rw [command, none]

theorem freed_answer {receiver : Nat} {options : List String} (parked : b ∈ w.blocked)
    (run : b.fiber.isRun = true) (todo : b.fiber.todo = .answer receiver options :: after)
    (asked : w.state.command ≠ some (.choice [])) : (w.select 0).1.Freed b.fiber := by
  obtain ⟨offer, pending, rfl, wait, some⟩ := h.offered parked run todo asked
  obtain ⟨pick, desk⟩ := h.desk
  have attends := desk.attends
  rw [select_taking pending attends some]
  refine ⟨?_, _, after, todo, rfl, rfl, Nat.two_pos, fun wait stuck => ?_⟩
  · refine head_wake (w := { w with
        slot := { w.slot.mark offer.receiver (.answered 0) with pending := none }
        state := { w.state with chosen := Option.some 0 } }) h.rest parked (by simp [wait])
      fun b' parked' waits => ?_
    obtain ⟨a', after', todo', halts⟩ := (h.halted b' parked').stands
    have parts : a'.parts = true := by
      rw [show b'.wait = .answer offer.receiver by simpa using waits] at halts
      cases a' <;> first | rfl | cases halts
    exact h.alone (mem_hands_of_blocked parked) run (mem_hands_of_blocked parked')
      (h.isRun_of_parts parked' todo' parts)
  · cases wait with
    | answer other =>
      obtain ⟨-, waiting⟩ := stuck
      have answered : (w.taking offer 0).slot.receipt offer.receiver = .answered 0 :=
        ChoiceSlot.receipt_mark (attends offer pending) _
      rw [answered] at waiting
      cases waiting
    | _ => exact stuck

/-- A frame that is long enough, with the confirm key pressed, ends the wait for a frame. -/
theorem fed_publish {delta : Span} {keys : Keys} (parked : b ∈ w.blocked)
    (run : b.fiber.isRun = true) (todo : b.fiber.todo = a :: after) {lane : Lane}
    (takes : a.lane? = some lane) (frame : b.wait = .frame)
    (ends : a.Ends ⟨w.feed.count + 1, delta, keys⟩) :
    b.fiber.Fed (w.publish delta keys).feed := by
  have among := mem_hands_of_blocked parked
  have placed := h.placed b.fiber among
  have held : (b.fiber.cursorOn lane).isSome = true := by
    cases lane with
    | own => exact placed.own run
    | board =>
      cases a with
      | stride s => exact isSome_boardCursor h.play placed among run todo (Option.some.inj takes)
      | _ => cases takes
  obtain ⟨c, stands⟩ := Option.isSome_iff_exists.mp held
  have here : c.taken = w.feed.count := by
    have behind := placed.behind lane c stands
    have read := (h.halted b parked).read frame lane (by rw [todo]; exact takes) c stands
    exact Nat.le_antisymm behind read
  have place : b.fiber.place (w.feed.publish delta keys) lane = c := by
    rw [Fiber.place, stands]
    rfl
  have pulled := Feed.pull_published h.deep here delta keys
  rw [← place] at pulled
  exact ⟨a, after, lane, _, _, _, todo, takes, pulled, ends⟩

end Suspended

/-- Pulses with which the host ends a wait, and the step that brings them about. -/
inductive Serves : Pulse → HostStep → Prop where
  | frame (delta : Span) (keys : Keys) : Serves (.publish delta keys) (.tick [(delta, keys)])
  | select (index : Nat) : Serves (.host (.select index) rfl) (.select index)
  | permits (n : Nat) : Serves (.host (.finishAnimation n) rfl) (.finishAnimation n)
  | releases : Serves (.host .release rfl) .release

theorem Serves.lingers {p : Pulse} {s : HostStep} (serves : Serves p s) (w : World) :
    Lingers w (w.pulse p) := by
  cases serves with
  | select index =>
    show Lingers w (w.select index).1
    unfold World.select
    split <;> exact ⟨rfl, rfl⟩
  | _ => exact ⟨rfl, rfl⟩

theorem Serves.hands {p : Pulse} {s : HostStep} (serves : Serves p s) (w : World) :
    (w.pulse p).hands = w.hands := by
  cases serves with
  | select index => exact congrArg Backstage.hands (backstage_select w index)
  | _ => exact congrArg Backstage.hands (backstage_wake _ _)

/-- For whatever the run waits for, there is a step of the host that ends the wait. -/
theorem Suspended.serves (h : w.Suspended) (asked : w.state.command ≠ some (.choice []))
    (few : ∀ f ∈ w.hands, f.isRun = true → f.waits ≤ n + 1) :
    ∃ p s, Serves p s ∧ (w.pulse p).Due n := by
  obtain ⟨b, parked, run, a, after, todo, halts, -⟩ := h.stands
  have among := mem_hands_of_blocked parked
  have due {p : Pulse} {s : HostStep} (serves : Serves p s)
      (end? : b.fiber.Fed (w.pulse p).feed ∨ (w.pulse p).Freed b.fiber) :
      ∃ p s, Serves p s ∧ (w.pulse p).Due n := by
    exact ⟨p, s, serves,
      due_of_ends (serves.hands w) (fun g => h.alone among run) (few _ among run) end?⟩
  cases wait : b.wait with
  | permit =>
    cases a with
    | finish an => exact due (.permits 1) (.inr (h.freed_finish parked run todo wait))
    | _ => rw [wait] at halts; cases halts
  | scene =>
    cases a with
    | enterScene scene => exact due .releases (.inr (h.freed_scene parked todo wait))
    | _ => rw [wait] at halts; cases halts
  | answer receiver =>
    cases a with
    | answer receiver options =>
      exact due (.select 0) (.inr (h.freed_answer parked run todo asked))
    | _ => rw [wait] at halts; cases halts
  | time t =>
    cases a with
    | count i due =>
      have counts : .count i due ∈ b.fiber.todo := by simp [todo]
      obtain ⟨s, role⟩ := counts_own h.play.order h.manned among counts
      rw [Fiber.isRun, Fiber.run?, role] at run
      cases run
    | _ => rw [wait] at halts; cases halts
  | frame =>
    cases a with
    | confirm =>
      exact due (.frame .zero ⟨true, true⟩) (.inl (h.fed_publish parked run todo rfl wait rfl))
    | stride s =>
      refine due (.frame (s.span.without s.elapsed) .nothing)
        (.inl (h.fed_publish parked run todo rfl wait fun s' taken => ?_))
      have span : s'.span = s.span := (Sweep.Of.take ⟨rfl, rfl, rfl⟩ taken).span
      have elapsed : s'.elapsed.nanos = s.elapsed.nanos + (s.span.nanos - s.elapsed.nanos) :=
        Sweep.nanos_take taken
      rw [Span.le_def, span]
      omega
    | _ => rw [wait] at halts; cases halts

/-! ### Steps of the host -/

/-- The world after steps of a patient host. -/
def hosted (w : World) (ss : List HostStep) : World := ss.foldl (fun w s => (w.step s true).1) w

theorem hosted_append (w : World) (ss ts : List HostStep) :
    w.hosted (ss ++ ts) = (w.hosted ss).hosted ts := List.foldl_append

theorem patience_pos : 0 < patience := Nat.two_pow_pos 62

-- not by computation, which would start to count the turns
theorem step_settles (w : World) (s : HostStep) : (w.step s true).1 = (w.apply s).1.settle := by
  unfold step
  rcases w.apply s with ⟨w', r⟩
  simp only [if_true]

theorem hosted_cons (w : World) (s : HostStep) (ss : List HostStep) :
    w.hosted (s :: ss) = (w.apply s).1.settle.hosted ss := by
  rw [hosted, List.foldl_cons, step_settles, hosted]

theorem hosted_nil (w : World) : w.hosted [] = w := rfl

theorem hosted_idle (w : World) (k : Nat) :
    w.hosted (List.replicate k (.tick [])) = w.turns (k * patience) := by
  induction k generalizing w with
  | zero =>
    rw [Nat.zero_mul, turns]
    rfl
  | succ k ih =>
    have still : (w.apply (.tick [])).1 = w := rfl
    rw [List.replicate_succ, hosted_cons, still, ih, Nat.succ_mul, Nat.add_comm, turns_add, settle]

theorem Serves.hosted {p : Pulse} {s : HostStep} (serves : Serves p s) (rest : w.ready = []) :
    ∃ m, w.hosted [s] = (w.pulse p).turns m := by
  rw [hosted_cons]
  cases serves with
  | frame delta keys =>
    have ticked : (w.apply (.tick [(delta, keys)])).1 = w.tick delta keys := rfl
    have settled : w.settle = w := settle_of_rest rest
    rw [ticked, tick, settled, settle, settle, ← turns_add, hosted_nil]
    exact ⟨_, rfl⟩
  | _ =>
    refine ⟨patience, ?_⟩
    rw [hosted_nil, settle]
    exact congrArg (World.turns patience) rfl

/-! ### The chronicle only grows -/

theorem events_of_entries {es : List Entry} (grown : w'.entries = w.entries ++ es) :
    ∃ es', w'.events = w.events ++ es' := by
  refine ⟨(es.filterMap Entry.event?).filter fun e => e ≠ .countdownTimedOut, ?_⟩
  rw [events, grown, List.filterMap_append, List.filter_append]
  rfl

theorem events_pulse (play : w.InPlay) (p : Pulse) :
    ∃ es, (w.pulse p).events = w.events ++ es := by
  by_cases turn : p = .turn
  · subst turn
    cases ready : w.ready with
    | nil =>
      rw [pulse, World.turn, ready]
      exact ⟨[], (List.append_nil _).symm⟩
    | cons f rest =>
      obtain ⟨es, grown, -⟩ := entries_turn play.order ready
      exact events_of_entries grown
  · obtain ⟨es, grown, -⟩ := (hosted_pulse w turn).keeps.entries
    exact events_of_entries grown

theorem events_turns (play : w.InPlay) (m : Nat) :
    ∃ es, (w.turns m).events = w.events ++ es := by
  induction m generalizing w with
  | zero => exact ⟨[], (List.append_nil _).symm⟩
  | succ m ih =>
    obtain ⟨es, first⟩ := events_pulse play .turn
    obtain ⟨es', others⟩ := ih (play.pulse .turn)
    rw [turns_succ]
    exact ⟨es ++ es', by rw [← List.append_assoc, ← first]; exact others⟩

/-! ### Turns on end -/

theorem MovesOn.turns (moves : MovesOn w w') (play : w'.InPlay) (m : Nat) :
    MovesOn w (w'.turns m) := by
  obtain ⟨es, grown⟩ := events_turns play m
  exact moves.after grown

theorem Due.turns (due : w.Due n) (play : w.InPlay) (m : Nat) :
    MovesOn w (w.turns m) ∨ Lingers w (w.turns m) ∧ (w.turns m).Due n := by
  induction m generalizing w with
  | zero => exact .inr ⟨.refl w, due⟩
  | succ m ih =>
    have play' := play.pulse .turn
    rw [turns_succ]
    rcases due.turn play with moves | ⟨lingers, due'⟩
    · exact .inl (moves.turns play' m)
    · obtain ⟨es, grown⟩ := events_pulse play .turn
      rcases ih due' play' with moves | ⟨lingers', due''⟩
      · exact .inl (moves.before grown)
      · exact .inr ⟨lingers.trans lingers', due''⟩

theorem turns_of_le {m k : Nat} (long : m ≤ k) (w : World) :
    w.turns k = (w.turns m).turns (k - m) := by
  rw [← turns_add, Nat.add_sub_cancel' long]

theorem le_mul_patience (m : Nat) : m ≤ m * patience := Nat.le_mul_of_pos_right m patience_pos

/-- Left to itself, the run leaves its command, or all fibers wait and it is still in it. -/
theorem Due.drains (due : w.Due n) (play : w.InPlay) (manned : w.backstage.Manned) : ∃ k,
    let x := w.turns (k * patience)
    MovesOn w x ∨ x.ready = [] ∧ Lingers w x ∧ x.Due n := by
  obtain ⟨m, rest | ⟨f, others, ready, run, spared, empty, -⟩⟩ := comes_to_rest w play manned
  · refine ⟨m, ?_⟩
    rw [turns_of_le (le_mul_patience m), turns_of_rest rest]
    exact (due.turns play m).imp_right fun kept => ⟨rest, kept⟩
  · refine ⟨m + 1, .inl ?_⟩
    have play' := play.turns m
    have fetched : MovesOn (w.turns m) (w.turns m).turn := by
      rcases turn_moves play'.order with moves | ⟨-, works⟩
      · exact moves
      · exact absurd empty (works f others ready run spared)
    obtain ⟨es, grown⟩ := events_turns play m
    have next : w.turns (m + 1) = (w.turns m).turn := by
      rw [turns_add, turns_succ, World.turns]
    rw [turns_of_le (le_mul_patience (m + 1)), next]
    exact (fetched.before grown).turns (play'.pulse .turn) _

theorem suspended_pulses (o : Opening) (ps : List Pulse) (rest : (o.world.pulses ps).ready = [])
    (executing : (o.world.pulses ps).state.executing = true) : (o.world.pulses ps).Suspended where
  play := inPlay_pulses o ps
  manned := manned_pulses o ps
  halted := halted_pulses o ps
  placed := placed_pulses o ps
  deep := depth_pulses o ps
  desk := (handing_pulses o ps).elim fun _ handing => ⟨_, handing.desk⟩
  rest := rest
  executing := executing

/-- `w'` comes from `w` by gentle steps of the host, and the run is still in its command. -/
structure Treats (w : World) (ss : List HostStep) (w' : World) : Prop where
  gentle : ss.all HostStep.isGentle = true
  hosted : w.hosted ss = w'
  lingers : Lingers w w'
  grown : ∃ es, w'.events = w.events ++ es

theorem Serves.isGentle {p : Pulse} {s : HostStep} (serves : Serves p s) : s.isGentle = true := by
  cases serves <;> rfl

/-- With nothing to take from the host, the run leaves its command or comes to rest in it. -/
theorem pauses (o : Opening) (ps : List Pulse) (due : (o.world.pulses ps).Due n)
    (running : (o.world.pulses ps).state.executing = true) :
    ∃ ss : List HostStep, ss.all HostStep.isGentle = true ∧
      (MovesOn (o.world.pulses ps) ((o.world.pulses ps).hosted ss) ∨
        ∃ ps', let x := o.world.pulses ps'
          Treats (o.world.pulses ps) ss x ∧ x.Suspended ∧
            ∀ f ∈ x.hands, f.isRun = true → f.waits ≤ n) := by
  have play := inPlay_pulses o ps
  obtain ⟨k, drained⟩ := due.drains play (manned_pulses o ps)
  have gentle : (List.replicate k (HostStep.tick [])).all HostStep.isGentle = true := by
    simp [HostStep.isGentle]
  have along : o.world.pulses (ps ++ List.replicate (k * patience) .turn) =
      (o.world.pulses ps).turns (k * patience) := by
    rw [pulses_append, pulses_turns]
  refine ⟨_, gentle, ?_⟩
  rcases drained with moves | ⟨rest, lingers, due'⟩
  · rw [hosted_idle]
    exact .inl moves
  · refine .inr ⟨ps ++ List.replicate (k * patience) .turn, ⟨gentle, ?_, ?_, ?_⟩, ?_, ?_⟩
    · rw [along, hosted_idle]
    · exact along ▸ lingers
    · exact along ▸ events_turns play _
    · exact suspended_pulses o _ (along ▸ rest) (along ▸ lingers.executing.trans running)
    · rw [along]
      exact due'.few (along ▸ halted_pulses o (ps ++ List.replicate (k * patience) .turn)) rest

/-- By induction on the waits ahead of the run: the host ends one after the other. -/
theorem moves_of_due (o : Opening) (n : Nat) (ps : List Pulse) (due : (o.world.pulses ps).Due n)
    (running : (o.world.pulses ps).state.executing = true)
    (asked : (o.world.pulses ps).state.command ≠ some (.choice [])) :
    ∃ ss : List HostStep, ss.all HostStep.isGentle = true ∧
      MovesOn (o.world.pulses ps) ((o.world.pulses ps).hosted ss) := by
  induction n generalizing ps with
  | zero =>
    obtain ⟨ss, gentle, moves | ⟨ps', treats, suspended, few⟩⟩ := pauses o ps due running
    · exact ⟨ss, gentle, moves⟩
    · obtain ⟨b, parked, run, a, after, todo, -, waits⟩ := suspended.stands
      have none := few _ (mem_hands_of_blocked parked) run
      rw [Fiber.waits_cons todo] at none
      omega
  | succ n ih =>
    obtain ⟨ss, gentle, moves | ⟨ps', treats, suspended, few⟩⟩ := pauses o ps due running
    · exact ⟨ss, gentle, moves⟩
    generalize at_rest : o.world.pulses ps' = x at treats suspended few
    have asked' : x.state.command ≠ some (.choice []) := treats.lingers.command ▸ asked
    obtain ⟨p, s, serves, due'⟩ := suspended.serves asked' few
    obtain ⟨m, stepped⟩ := serves.hosted suspended.rest
    have along : o.world.pulses (ps' ++ p :: List.replicate m .turn) = (x.pulse p).turns m := by
      rw [pulses_append, at_rest, ← pulses_turns]
      rfl
    have play := suspended.play.pulse p
    obtain ⟨es, grown⟩ := treats.grown
    obtain ⟨es', grown'⟩ := events_pulse suspended.play p
    have gentle' : (ss ++ [s]).all HostStep.isGentle = true := by
      rw [List.all_append, gentle]
      simp [serves.isGentle]
    have stepped' : (o.world.pulses ps).hosted (ss ++ [s]) = (x.pulse p).turns m := by
      rw [hosted_append, treats.hosted, stepped]
    rcases due'.turns play m with moves | ⟨lingers, due''⟩
    · refine ⟨ss ++ [s], gentle', ?_⟩
      rw [stepped']
      exact (moves.before grown').before grown
    · have still := (serves.lingers x).trans lingers
      obtain ⟨ts, gentle'', moves⟩ := ih _ (along ▸ due'')
        (along ▸ still.executing.trans suspended.executing) (along ▸ still.command ▸ asked')
      obtain ⟨es'', grown''⟩ := events_turns play m
      refine ⟨ss ++ [s] ++ ts, by rw [List.all_append, gentle', gentle'']; rfl, ?_⟩
      rw [hosted_append, stepped']
      rw [along] at moves
      exact ((moves.before grown'').before grown').before grown

/-- The run is in a command, and its script is not what holds it up: the host can bring it to leave the
command without ending it. A choice that offers nothing is the only exception. -/
theorem runs_can_go_on (o : Opening) (ms : List Move)
    (running : (o.world.after ms).state.executing = true)
    (asked : (o.world.after ms).state.command ≠ some (.choice [])) :
    ∃ ss : List HostStep, ss.all HostStep.isGentle = true ∧
      MovesOn (o.world.after ms) ((o.world.after ms).hosted ss) := by
  obtain ⟨ps, same⟩ := pulses_after o ms
  rw [← same] at running asked ⊢
  refine moves_of_due o (Multiset.map Fiber.waits (o.world.pulses ps).hands).sum ps ?_ running asked
  intro f among _
  exact .inl (Multiset.single_le_sum (fun _ _ => Nat.zero_le _) _ (Multiset.mem_map_of_mem _ among))

theorem runs_can_go_on_wait :
    let o : Opening := ⟨default, default, 8, default, .empty, [[.wait ⟨5⟩]]⟩
    let w := o.world.after [.host (.execute 0), .turn]
    w.state.executing = true ∧ w.state.command ≠ some (.choice []) ∧
      ∃ ss : List HostStep, ss.all HostStep.isGentle = true ∧ MovesOn w (w.hosted ss) := by
  intro o w
  have asked : w.state.command ≠ some (.choice []) := fun same =>
    Command.noConfusion (Option.some.inj same)
  exact ⟨rfl, asked, runs_can_go_on o _ rfl asked⟩

/-! ### A choice that offers nothing -/

/-- Every fiber waits, none of them for a frame, an animation or a scene, and an offer is open that
has no options. -/
structure AtEmptyChoice (w : World) : Prop where
  rest : w.ready = []
  waits : ∀ b ∈ w.blocked, b.wait ≠ .frame ∧ b.wait ≠ .permit ∧ b.wait ≠ .scene
  offer : ∃ offer, w.slot.pending = some offer ∧ offer.available = 0

namespace AtEmptyChoice

variable (h : w.AtEmptyChoice)
include h

theorem settle : w.settle = w := settle_of_rest h.rest

theorem wake {wait : Wait} (kind : wait = .frame ∨ wait = .permit ∨ wait = .scene) :
    w.wake (fun b => b.wait == wait) = w := by
  refine wake_none fun b parked => ?_
  obtain ⟨frame, permit, scene⟩ := h.waits b parked
  rw [beq_eq_false_iff_ne]
  rcases kind with rfl | rfl | rfl
  · exact frame
  · exact permit
  · exact scene

theorem publish (delta : Span) (keys : Keys) :
    (w.publish delta keys).AtEmptyChoice ∧ (w.publish delta keys).events = w.events := by
  let x := { w with feed := w.feed.publish delta keys }
  let y := x.record (.published ⟨x.feed.count, delta, keys⟩)
  have held : y.AtEmptyChoice := ⟨h.rest, h.waits, h.offer⟩
  have same : w.publish delta keys = y := held.wake (.inl rfl)
  rw [same]
  exact ⟨held, events_record x rfl⟩

theorem ticks (frames : List (Span × Keys)) :
    (frames.foldl (fun w f => w.tick f.1 f.2) w).AtEmptyChoice ∧
      (frames.foldl (fun w f => w.tick f.1 f.2) w).events = w.events := by
  induction frames generalizing w with
  | nil => exact ⟨h, rfl⟩
  | cons f frames ih =>
    obtain ⟨held, events⟩ := h.publish f.1 f.2
    have ticked : w.tick f.1 f.2 = w.publish f.1 f.2 := by rw [tick, h.settle, held.settle]
    rw [List.foldl_cons, ticked]
    exact (ih held).imp_right fun same => same.trans events

theorem bursts (frames : List (Span × Keys)) :
    (frames.foldl (fun w f => w.publish f.1 f.2) w).AtEmptyChoice ∧
      (frames.foldl (fun w f => w.publish f.1 f.2) w).events = w.events := by
  induction frames generalizing w with
  | nil => exact ⟨h, rfl⟩
  | cons f frames ih =>
    obtain ⟨held, events⟩ := h.publish f.1 f.2
    rw [List.foldl_cons]
    exact (ih held).imp_right fun same => same.trans events

theorem apply {s : HostStep} (gentle : s.isGentle = true) :
    (w.apply s).1.AtEmptyChoice ∧ (w.apply s).1.events = w.events := by
  cases s with
  | tick frames => exact h.ticks frames
  | burst frames => exact h.bursts frames
  | select index =>
    obtain ⟨offer, pending, none⟩ := h.offer
    have refused : (w.apply (.select index)).1 =
        w.remark (.selectionRejected index (.choiceOutOfRange index offer.available)) :=
      congrArg Prod.fst (select_beyond pending (none ▸ Nat.zero_le index))
    rw [refused]
    exact ⟨⟨h.rest, h.waits, h.offer⟩, events_record w rfl⟩
  | finishAnimation n =>
    let x := { w with permits := w.permits + n }
    have held : x.AtEmptyChoice := ⟨h.rest, h.waits, h.offer⟩
    have same : (w.apply (.finishAnimation n)).1 = x := held.wake (.inr (.inl rfl))
    rw [same]
    exact ⟨held, rfl⟩
  | release =>
    let x := { w with releases := w.releases + 1 }
    have held : x.AtEmptyChoice := ⟨h.rest, h.waits, h.offer⟩
    have same : (w.apply .release).1 = x := held.wake (.inr (.inr rfl))
    rw [same]
    exact ⟨held, rfl⟩
  | _ => cases gentle

theorem hosted {ss : List HostStep} (gentle : ss.all HostStep.isGentle = true) :
    (w.hosted ss).events = w.events := by
  induction ss generalizing w with
  | nil => rfl
  | cons s ss ih =>
    obtain ⟨first, others⟩ : s.isGentle = true ∧ ss.all HostStep.isGentle = true := by
      rw [List.all_cons, Bool.and_eq_true] at gentle
      exact gentle
    obtain ⟨held, events⟩ := h.apply first
    rw [hosted_cons, held.settle]
    exact (ih held others).trans events

/-- Nothing that the host does for the run makes it leave its command. -/
theorem stays {ss : List HostStep} (gentle : ss.all HostStep.isGentle = true) :
    ¬ MovesOn w (w.hosted ss) := by
  rintro ⟨es, grown, departs⟩
  rw [h.hosted gentle] at grown
  obtain rfl := List.self_eq_append_right.mp grown
  cases departs

end AtEmptyChoice

/-- The options of a choice are counted against the most that can be shown, but not against none. -/
theorem empty_choice_holds_up :
    let o : Opening := ⟨default, default, 8, default, .empty, [[.choice []]]⟩
    let w := o.world.after (.host (.execute 0) :: List.replicate 8 .turn)
    w.state.executing = true ∧ w.state.command = some (.choice []) ∧
      ∀ ss : List HostStep, ss.all HostStep.isGentle = true → ¬ MovesOn w (w.hosted ss) := by
  intro o w
  have here : (w.ready.isEmpty && w.blocked.all fun b => b.wait == .answer 0) = true ∧
      w.slot.pending = some ⟨0, 0⟩ ∧ w.state.executing = true := by decide +kernel
  obtain ⟨checked, pending, running⟩ := here
  obtain ⟨rest, waits⟩ := Bool.and_eq_true_iff.mp checked
  have held : w.AtEmptyChoice := by
    refine ⟨List.isEmpty_iff.mp rest, fun b parked => ?_, _, pending, rfl⟩
    rw [beq_iff_eq.mp (List.all_eq_true.mp waits b parked)]
    exact ⟨nofun, nofun, nofun⟩
  exact ⟨running, rfl, fun ss gentle => held.stays gentle⟩

end World

end SceneScript
