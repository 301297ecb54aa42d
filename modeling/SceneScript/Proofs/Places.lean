import SceneScript.Proofs.Mishaps
/-!
Where fibers stand in the feed. None is ahead of it, and the fiber of a run always has a place of its
own. What it does under the board is followed by the release of the board (`Act.Covered`), so until
then it has a place for the change of scene as well (`placed_pulses`, `isSome_boardCursor`).
-/

namespace SceneScript

namespace Act

/-- Acts that the fiber of a run does under the board. Other fibers fade the board on their own. -/
def isCovering (isRun : Bool) : Act → Bool
  | .enterScene _ => true
  | .sweep s | .stride s => isRun && s.lane == .board
  | .clearBoard _ => isRun
  | _ => false

/-- Whatever is done under the board, its release comes after it. -/
inductive Covered (isRun : Bool) : List Act → Prop where
  | nil : Covered isRun []
  | cons {a : Act} {rest : List Act} :
      (a.isCovering isRun = true → rest.any Fiber.isRelease = true) →
      Covered isRun rest → Covered isRun (a :: rest)

variable {isRun : Bool} {a : Act} {acts rest new : List Act}

theorem Covered.tail (h : Covered isRun (a :: rest)) : Covered isRun rest := by
  cases h with
  | cons _ covered => exact covered

theorem Covered.of_head (h : Covered isRun (a :: rest)) (covering : a.isCovering isRun = true) :
    rest.any Fiber.isRelease = true := by
  cases h with
  | cons release _ => exact release covering

theorem Covered.append (first : Covered isRun acts) (second : Covered isRun rest) :
    Covered isRun (acts ++ rest) := by
  induction first with
  | nil => exact second
  | @cons a acts release _ ih =>
    have later (covering : a.isCovering isRun = true) :
        (acts ++ rest).any Fiber.isRelease = true := by
      rw [List.any_append, release covering]
      rfl
    exact .cons later ih

/-- Acts that are done under the board only if its release is still to come. -/
theorem Covered.of_any
    (release : ∀ a ∈ acts, a.isCovering isRun = true → rest.any Fiber.isRelease = true)
    (second : Covered isRun rest) : Covered isRun (acts ++ rest) := by
  induction acts with
  | nil => exact second
  | cons a acts ih =>
    have later (covering : a.isCovering isRun = true) :
        (acts ++ rest).any Fiber.isRelease = true := by
      rw [List.any_append, release a List.mem_cons_self covering, Bool.or_true]
    exact .cons later (ih fun b among => release b (List.mem_cons_of_mem a among))

theorem covered_of_all (bare : ∀ a ∈ acts, a.isCovering isRun = false) : Covered isRun acts := by
  induction acts with
  | nil => exact .nil
  | cons a acts ih =>
    refine .cons (fun covering => ?_) (ih fun b among => bare b (List.mem_cons_of_mem a among))
    rw [bare a List.mem_cons_self] at covering
    cases covering

theorem covered_job (job : SceneJob) : Covered isRun job.acts := by
  have music : Covered isRun (if job.fadeMusic then [.hushMusic job.span] else []) := by
    refine covered_of_all fun a among => ?_
    split at among
    · rw [List.mem_singleton.mp among]
      rfl
    · cases among
  refine music.append ?_
  refine .cons (by simp [isCovering]) (.cons ?_ (.cons ?_ (.cons ?_ (.cons ?_ (.cons ?_ (.cons ?_ .nil))))))
  all_goals simp [Fiber.isRelease, isCovering]

theorem covered_acts (c : Command) (settings : Settings) (page : Page) :
    Covered isRun (c.acts settings page) := by
  refine covered_of_all fun a among => ?_
  cases c with
  | wait span =>
    rw [List.mem_singleton.mp among]
    exact Bool.and_false _
  | flash color span hold =>
    simp only [Command.acts, Command.flashActs, List.mem_cons, List.not_mem_nil, or_false] at among
    rcases among with rfl | rfl | rfl <;> exact Bool.and_false _
  | image _ texture | portrait _ texture =>
    cases texture with
    | none =>
      rw [List.mem_singleton.mp among]
      rfl
    | some t =>
      rcases List.mem_cons.mp among with rfl | among
      · rfl
      · rw [List.mem_singleton.mp among]
        rfl
  | boxState isOpen =>
    cases isOpen <;> simp [Command.acts, Command.animate] at among <;>
      rcases among with rfl | rfl | rfl | rfl | rfl <;> rfl
  | _ =>
    revert a
    simp [Command.acts, Command.animate, Command.awaitConfirm, isCovering]

/-- What takes the place of an act is covered as well as the act was. -/
theorem Covered.puts (h : Covered isRun (a :: rest)) (puts : a.Puts new) :
    Covered isRun (new ++ rest) := by
  have bare (none : ∀ b ∈ new, b.isCovering isRun = false) : Covered isRun (new ++ rest) :=
    (covered_of_all none).append h.tail
  have same (also : ∀ b ∈ new, b.isCovering isRun = true → a.isCovering isRun = true) :
      Covered isRun (new ++ rest) :=
    .of_any (fun b among covering => h.of_head (also b among covering)) h.tail
  cases a with
  | sweep s =>
    rcases puts with rfl | ⟨-, rfl⟩
    · exact h.tail
    · refine same fun b among covering => ?_
      rw [List.mem_singleton.mp among] at covering
      exact covering
  | stride s =>
    rcases puts with rfl | ⟨s', of, rfl⟩
    · exact h
    · refine same fun b among covering => ?_
      rw [List.mem_singleton.mp among] at covering
      simpa [isCovering, of.lane] using covering
  | enterScene scene =>
    rcases puts with rfl | rfl
    · exact h.tail
    · exact h
  | load job =>
    rcases puts with rfl | rfl
    · exact h.tail
    · exact (covered_job job).append h.tail
  | clearBoard span =>
    obtain ⟨_, _, _, _, rfl⟩ := puts
    refine same fun b among covering => ?_
    rw [List.mem_singleton.mp among] at covering
    exact (Bool.and_eq_true_iff.mp covering).1
  | finish | confirm | branch => rcases puts with rfl | rfl <;> exact bare (by simp [isCovering])
  | reveal =>
    rcases puts with rfl | ⟨-, _, _, rfl⟩
    · exact h.tail
    · exact bare (by simp [isCovering, Sweep.pause, Sweep.start])
  | answer | count =>
    rcases puts with rfl | ⟨_, rfl⟩ <;> exact bare (by simp [isCovering])
  | offer | switch =>
    obtain ⟨_, rfl⟩ := puts
    exact bare (by simp [opening, Command.animate, isCovering])
  | chosen =>
    obtain rfl := puts
    exact bare (by simp [closing, Command.animate, isCovering])
  | _ =>
    obtain rfl : new = _ := puts
    exact h.tail

end Act

/-! ### A fiber and the feed -/

/-- Where a fiber can stand in the feed. -/
structure Fiber.Placed (f : Fiber) (feed : Feed) : Prop where
  own : f.isRun = true → f.cursor.isSome = true
  behind : ∀ lane c, f.cursorOn lane = some c → c.taken ≤ feed.count
  covered : Act.Covered f.isRun f.todo

namespace Fiber

variable {f g : Fiber} {feed feed' : Feed}

theorem Placed.of_calm (h : f.Placed feed) (calm : g.calm = f.calm) : g.Placed feed := by
  have same : g.calm.Placed feed := by
    rw [calm]
    exact ⟨h.own, h.behind, h.covered⟩
  exact ⟨same.own, same.behind, same.covered⟩

theorem Placed.grows (h : f.Placed feed) (grows : feed.Grows feed') : f.Placed feed' :=
  { h with behind := fun lane c placed => Nat.le_trans (h.behind lane c placed) grows.count_le }

theorem Fresh.placed (fresh : f.Fresh feed) : f.Placed feed where
  own run := (fresh.run run).1
  behind := fresh.behind
  covered := by
    cases run : f.isRun with
    | true =>
      rw [(fresh.run run).2]
      exact .nil
    | false =>
      refine Act.covered_of_all fun a among => ?_
      cases a with
      | enterScene scene => exact absurd among (fresh.scenes scene)
      | _ => rfl

/-- Whoever does not take a frame keeps its place, takes the newest one or gives it up. -/
theorem behind_of_moved (placed : f.Placed feed)
    (moved : ∀ lane, g.cursorOn lane = f.cursorOn lane ∨
      g.cursorOn lane = some feed.subscribe ∨ g.cursorOn lane = none) :
    ∀ lane c, g.cursorOn lane = some c → c.taken ≤ feed.count := by
  intro lane c stands
  rcases moved lane with same | here | gone
  · exact placed.behind lane c (same ▸ stands)
  · exact newest feed c (here ▸ stands)
  · rw [gone] at stands
    cases stands

end Fiber

def Backstage.Placed (b : Backstage) : Prop := ∀ f ∈ b.hands, f.Placed b.feed

theorem Backstage.Placed.joins {b b' : Backstage} (h : b.Placed) (joins : b.Joins b') :
    b'.Placed := by
  intro g among
  rcases joins.hands g among with ⟨f, among', calm⟩ | fresh
  · exact ((h f among').of_calm calm).grows joins.grows
  · exact fresh.placed

theorem Backstage.Placed.join {b : Backstage} {f : Fiber} (h : b.Placed) (placed : f.Placed b.feed) :
    (b.join f).Placed := by
  intro g among
  rcases Multiset.mem_cons.mp among with rfl | among
  · exact placed
  · exact h g among

namespace World

open Backstage

variable {w : World} {f f' : Fiber} {a : Act} {rest : List Fiber} {after : List Act}

/-! ### Turns -/

section

variable (placed : f.Placed w.feed) (todo : f.todo = a :: after)
  (onward : a.Onward { f with todo := after } f')
include placed todo onward

theorem covered_onward : Act.Covered f'.isRun f'.todo := by
  have same : f'.isRun = f.isRun := onward.isRun
  have covered : Act.Covered f.isRun (a :: after) := todo ▸ placed.covered
  rw [same]
  rcases onward.goes with ⟨-, new, todo', puts⟩ | ⟨-, todo'⟩
  · exact todo' ▸ covered.puts puts
  · exact todo' ▸ covered.tail

theorem placed_goes (cursor : f'.cursor = a.place w.feed f.cursor)
    (board : f'.boardCursor = a.boardPlace w.feed f.boardCursor) : f'.Placed w.feed where
  own run := by
    have own := placed.own (onward.isRun ▸ run)
    rw [cursor]
    cases a with
    | resync => rfl
    | _ => exact own
  behind := Fiber.behind_of_moved placed (cursorOn_goes cursor board)
  covered := covered_onward placed todo onward

theorem placed_takes {lane : Lane} {fr : Frame} {c : Cursor} {missed : Nat}
    (pulled : w.feed.pull (f.place w.feed lane) = .frame fr c missed)
    (cursor : f'.cursor = if lane = .own then some c else f.cursor)
    (board : f'.boardCursor = if lane = .board then some c else f.boardCursor) :
    f'.Placed w.feed where
  own run := by
    have own := placed.own (onward.isRun ▸ run)
    rw [cursor]
    split
    · rfl
    · exact own
  behind other c' stands := by
    obtain ⟨found, past⟩ := Feed.of_pull_eq_frame pulled
    obtain ⟨within, -⟩ := Array.getElem?_eq_some_iff.mp found
    have here : c.taken ≤ w.feed.count := by
      unfold Feed.count
      omega
    cases other with
    | own =>
      have stands : f'.cursor = some c' := stands
      rw [cursor] at stands
      split at stands
      · exact Option.some.inj stands ▸ here
      · exact placed.behind .own c' stands
    | board =>
      have stands : f'.boardCursor = some c' := stands
      rw [board] at stands
      split at stands
      · exact Option.some.inj stands ▸ here
      · exact placed.behind .board c' stands
  covered := covered_onward placed todo onward

end

theorem placed_turn (placed : w.backstage.Placed) (order : w.InOrder) :
    w.turn.backstage.Placed := by
  cases ready : w.ready with
  | nil =>
    rw [World.turn, ready]
    exact placed
  | cons f rest =>
    have hands : w.hands = f ::ₘ (w.taken f rest).hands :=
      congrArg Backstage.hands (backstage_taken ready)
    have others : (w.taken f rest).backstage.Placed := fun g among =>
      placed g (show g ∈ w.hands from hands ▸ Multiset.mem_cons_of_mem among)
    have own : f.Placed (w.taken f rest).feed :=
      placed f (show f ∈ w.hands from hands ▸ Multiset.mem_cons_self _ _)
    have back {b : Backstage} {f' : Fiber} (joins : Joins (w.taken f rest).backstage b)
        (placed' : f'.Placed (w.taken f rest).feed) (same : w.turn.backstage = b.join f') :
        w.turn.backstage.Placed := by
      rw [same]
      exact (others.joins joins).join (placed'.grows joins.grows)
    cases turn_turns order ready with
    | ends _ same => exact same ▸ others.joins (joins_yield _ f)
    | @fetches r c f' _ _ role _ _ _ _ _ todo _ cursor same board =>
      refine back (.refl _) ⟨fun _ => ?_, Fiber.behind_of_moved own fun lane => .inl ?_, ?_⟩ same
      · rw [cursor]
        exact own.own (f.isRun_iff.mpr ⟨r, role⟩)
      · cases lane with
        | own => exact cursor
        | board => exact board
      · rw [todo]
        exact Act.covered_acts c _ _
    | works _ _ todo _ works =>
      cases works with
      | goes f' onward cursor same board =>
        exact back (joins_work _ _) (placed_goes own todo onward cursor board) same
      | takes f' lane pulled onward cursor same board =>
        exact back (joins_write _ _) (placed_takes own todo onward pulled cursor board) same
      | bursts _ _ _ same => exact same ▸ others.joins ((joins_write _ _).trans (joins_yield _ _))
      | falls _ same => exact same ▸ others.joins (joins_yield _ _)
    | @unwinds a after e f' _ _ todo _ _ _ role todo' _ cursor same board =>
      have run : f'.isRun = f.isRun := by
        rw [Fiber.isRun, Fiber.run?, role]
        rfl
      refine back (joins_amend _ a) ⟨fun running => ?_, ?_, ?_⟩ same
      · exact cursor ▸ own.own (run ▸ running)
      · refine Fiber.behind_of_moved own fun lane => ?_
        cases lane with
        | own => exact .inl cursor
        | board => exact board.imp_right .inr
      · rw [run, todo']
        exact (todo ▸ own.covered).tail

theorem placed_pulses (o : Opening) (ps : List Pulse) : (o.world.pulses ps).backstage.Placed :=
  (inPlay_opening o).induction (P := fun _ w => w.backstage.Placed) (fun f among => nomatch among)
    (fun ps p play placed => by
      by_cases turn : p = .turn
      · subst turn
        exact placed_turn placed play.order
      · exact placed.joins (joins_pulse play turn)) ps

/-! ### Under the board -/

theorem holdsScene_of_covering (placed : f.Placed w.feed) (todo : f.todo = a :: after)
    (covering : a.isCovering f.isRun = true) : f.holdsScene = true := by
  have covered : Act.Covered f.isRun (a :: after) := todo ▸ placed.covered
  rw [Fiber.holdsScene, todo, List.any_cons, covered.of_head covering, Bool.or_true]

/-- The fiber of a run that waits for a frame under the board has a place there. -/
theorem isSome_boardCursor {s : Sweep} (play : w.InPlay) (placed : f.Placed w.feed)
    (among : f ∈ w.hands) (run : f.isRun = true) (todo : f.todo = .stride s :: after)
    (lane : s.lane = .board) : f.boardCursor.isSome = true := by
  have holds : f.holdsScene = true :=
    holdsScene_of_covering placed todo (by simp [Act.isCovering, run, lane])
  obtain ⟨job, later, ⟨pend, acts, leg⟩, -⟩ :=
    play.screened.loads f.calm (List.mem_map_of_mem (mem_hands.mp among)) holds
  have acts : .stride s :: after = pend ++ later := todo.symm.trans acts
  show f.calm.boardCursor.isSome = true
  generalize f.calm.boardCursor.isSome = isPlaced at leg
  cases pend with
  | nil => exact absurd rfl leg.ne_nil
  | cons b pend =>
    obtain ⟨rfl, -⟩ := List.cons.inj acts
    generalize first : Act.stride s :: pend = pend' at leg
    generalize f.calm.fault = fault at leg
    generalize w.board f.calm.id = shown at leg
    cases leg with
    | hushes | watches => cases first
    | _ => rfl

end World

end SceneScript
