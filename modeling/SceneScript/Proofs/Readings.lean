import SceneScript.Proofs.Passage
import SceneScript.Proofs.Phrases
import SceneScript.Proofs.Written
/-!
Texts that are read. From the turn in which a run comes to a text, it shows one count after the other
at the pace of the frames, then the full count, and then waits until the reader confirms
(`texts_are_revealed`).
-/

namespace SceneScript

/-- The fiber of the run when it has come to the command. -/
def Fiber.enters (f : Fiber) (r : Run) (c : Command) (settings : Settings) : Fiber :=
  { f with
    role := .run { r with pointer := r.pointer + 1, page := c.pageAfter settings r.page }
    todo := c.acts settings r.page }

namespace World

variable {w : World} {f : Fiber} {r : Run} {c : Command} {rest : List Fiber}

/-- In the turn to come the run takes up this command. -/
structure TakesUp (w : World) (f : Fiber) (r : Run) (c : Command) : Prop where
  ready : w.ready.head? = some f
  role : f.role = .run r
  spared : f.doomed = false
  todo : f.todo = []
  fault : f.fault = none
  found : r.program.commands[r.pointer]? = some c

theorem TakesUp.turn (h : w.TakesUp f r c) : ∃ rest, w.ready = f :: rest ∧
    w.turn.ready = f.enters r c w.settings :: rest ∧ w.turn.blocked = w.blocked ∧
    w.turn.entries = w.entries ++ [⟨some f.id, .remark (.dispatching r.pointer c.opcode)⟩,
      ⟨some f.id, .event (.stepped r.pointer c.opcode)⟩] := by
  obtain ⟨rest, ready⟩ := List.head?_eq_some_iff.mp h.ready
  have going : (w.taken f rest).isCancelled f = false := by rw [isCancelled, h.role]
  have fetched : (w.taken f rest).advance f = (w.taken f rest).fetch f := by
    rw [advance, if_neg (by simp [h.spared]), if_neg (by simp [going]), h.todo, h.fault]
  have turned : w.turn = { (w.taken f rest).fetch f with actor := none } := by
    rw [turn_cons ready, fetched]
  refine ⟨rest, ready, ?_⟩
  rw [turned, fetch, h.role]
  dsimp only
  rw [h.found]
  exact ⟨rfl, rfl, by simp [World.entries, resume, emit, World.remark, record, taken]⟩

theorem TakesUp.among (h : w.TakesUp f r c) : f.enters r c w.settings ∈ w.turn.hands := by
  obtain ⟨rest, -, ready, -⟩ := h.turn
  exact mem_hands_of_ready ready

theorem TakesUp.steps (h : w.TakesUp f r c) :
    w.turn.steps f.id = w.steps f.id ++ [(r.pointer, c.opcode)] := by
  obtain ⟨rest, -, -, -, entries⟩ := h.turn
  rw [World.steps, entries, tale_append]
  simp [tale, World.steps, Deed.stepped?]

/-- It has its place in the feed then, and after the turn the acts of the command are left to do. -/
theorem TakesUp.placed {o : Opening} {before : List Pulse}
    (h : (o.world.pulses before).TakesUp f r c) : ∃ place, f.cursor = some place ∧
      f.enters r c o.settings ∈ (o.world.pulses (before ++ [.turn])).hands := by
  have turned : o.world.pulses (before ++ [.turn]) = (o.world.pulses before).turn := pulses_concat ..
  have settings : (o.world.pulses before).settings = o.settings := (inPlay_opening o).settings before
  obtain ⟨rest, ready, -⟩ := h.turn
  have placed := placed_pulses o before f (mem_hands_of_ready ready)
  obtain ⟨place, stands⟩ :=
    Option.isSome_iff_exists.mp (placed.own (f.isRun_iff.mpr ⟨r, h.role⟩))
  refine ⟨place, stands, ?_⟩
  rw [turned, ← settings]
  exact h.among

/-- From its place on the fiber reads a text out: the calls, then one count after the other, and at last
the wait for a confirmation. -/
structure Reading (w : World) (settings : Settings) (g : Fiber) (place : Cursor) (v : Reveal)
    (intro : List StageCall) (after : List Pulse) : Prop where
  goes : w.Performed g .own place (fun ms _ => v.Reads settings intro ms) [] after
  /-- If the frames are enough for that, then once everybody waits it is done with it. -/
  done : ∀ ms, v.Reads settings intro ms → framesOf ms <+: (w.pulses after).feed.since place →
    (w.pulses after).ready = [] → w.Unstopped after g.id → w.KeepsUp .own after g.id →
    (w.pulses after).feed.total.nanos < Span.limit →
    ∃ pre h, pre <+: after ∧ w.Becomes g .own place pre h ∧ h.todo = [] ∧ w.marks g.id pre = ms

/-- A run reads a text out from the turn in which it comes to it. -/
theorem reading_pulses (o : Opening) (before after : List Pulse) {v : Reveal}
    {intro : List StageCall} (starts : (o.world.pulses before).TakesUp f r c)
    (acts : c.acts o.settings r.page = v.reading intro) : ∃ place, f.cursor = some place ∧
      (o.world.pulses (before ++ [.turn])).Reading o.settings (f.enters r c o.settings) place v intro
        after := by
  obtain ⟨place, stands, among⟩ := starts.placed
  have read : ReadOn .own (v.reading intro) := by
    intro a among lane takes
    rcases List.mem_append.mp among with here | later
    · obtain ⟨call, -, rfl⟩ := List.mem_map.mp here
      cases takes
    · simp only [Command.awaitConfirm, List.cons_append, List.nil_append, List.mem_cons,
        List.not_mem_nil, or_false] at later
      rcases later with rfl | rfl | rfl | rfl | rfl | rfl <;> cases takes <;> rfl
  have fault : (f.enters r c o.settings).fault = none := starts.fault
  have todo : (f.enters r c o.settings).todo = v.reading intro ++ [] :=
    acts.trans (List.append_nil _).symm
  have cursor : (f.enters r c o.settings).cursorOn .own = some place := stands
  have goes : (o.world.pulses (before ++ [.turn])).Performed (f.enters r c o.settings) .own place
      (fun ms _ => v.Reads o.settings intro ms) [] after := by
    refine performed_pulses o (before ++ [.turn]) after among fault todo (v.isSolo_reading intro) read
      cursor fun ms k sounds => ?_
    rw [(inPlay_opening o).settings] at sounds
    exact sounds.reading
  refine ⟨place, stands, goes, fun ms reads first rest unstopped keeps fits => ?_⟩
  exact goes.through rest unstopped keeps fits (fun _ _ _ _ one other => one.eq other) reads first
    (k := .nothing)

/-- From the turn in which a run comes to a text, it shows nothing of the sentence, then the sentence,
then one count after the other, each for as long as the frames make the delay, up to the wait in which
a skip cuts it short, and then all of it. Only then it raises the indicator, and it lowers it at the
first frame after that which confirms. -/
theorem texts_are_revealed (o : Opening) (before after : List Pulse) {speaker body : String}
    {skippable : Bool} {side : Place}
    (starts : (o.world.pulses before).TakesUp f r (.text speaker body skippable side)) :
    let w := o.world.pulses (before ++ [.turn])
    let intro : List StageCall := [Command.nameBox o.settings speaker side, .setSentenceVisible 0,
      .setSentence body]
    w.steps f.id = (o.world.pulses before).steps f.id ++ [(r.pointer, .text)] ∧
      ∃ place, f.cursor = some place ∧
        w.Reading o.settings (f.enters r (.text speaker body skippable side) o.settings) place
          ⟨.sentence skippable, 0, body.length⟩ intro after := by
  intro w intro
  have turned : w = (o.world.pulses before).turn := pulses_concat ..
  refine ⟨turned ▸ starts.steps, reading_pulses o before after starts ?_⟩
  exact Command.acts_text o.settings r.page speaker body skippable side

/-- Of two letters a skip leaves one to itself, and the confirmation that comes with the skip does not
end the text. -/
theorem texts_are_revealed_skipped :
    let o : Opening := ⟨{ (default : Settings) with textCharDelay := 1 }, default, 8, default, .empty,
      [[.text "A" "ab" true .left]]⟩
    let before : List Pulse := [.host (.execute 0) rfl]
    let w := o.world.pulses (before ++ [.turn])
    let a : Frame := ⟨1, ⟨600000⟩, ⟨false, false⟩⟩
    let b : Frame := ⟨2, ⟨600000⟩, ⟨true, true⟩⟩
    let c : Frame := ⟨3, ⟨5⟩, ⟨false, true⟩⟩
    let d : Frame := ⟨4, ⟨5⟩, ⟨true, false⟩⟩
    let after := [.publish a.delta a.keys, .publish b.delta b.keys, .publish c.delta c.keys,
      .publish d.delta d.keys] ++ List.replicate 18 .turn
    ∃ f r, (o.world.pulses before).TakesUp f r (.text "A" "ab" true .left) ∧
      ∃ pre h, pre <+: after ∧
        w.Becomes (f.enters r (.text "A" "ab" true .left) o.settings) .own ⟨0⟩ pre h ∧ h.todo = [] ∧
        w.marks f.id pre = [.call (.showNameBox "A" 152), .call (.setSentenceVisible 0),
          .call (.setSentence "ab"), .call (.setSentenceVisible 1), .frame a, .frame b,
          .call (.setSentenceVisible 2), .call (.setWaitIndicator true), .frame c, .frame d,
          .call (.setWaitIndicator false)] := by
  intro o before w a b c d after
  obtain ⟨r, role⟩ : ∃ r, ((o.world.pulses before).ready.headD default).role = .run r := ⟨_, rfl⟩
  have starts : (o.world.pulses before).TakesUp ((o.world.pulses before).ready.headD default) r
      (.text "A" "ab" true .left) := by
    refine ⟨rfl, role, rfl, rfl, rfl, ?_⟩
    cases role
    rfl
  let v : Reveal := ⟨.sentence true, 0, 2⟩
  have lasts : Lasts (v.delay o.settings) [a, b] := by decide +kernel
  have ended : v.Over o.settings [[a, b]] := ⟨by simpa using lasts, by decide, nofun,
    .inr ⟨_, rfl, b, by simp, rfl⟩⟩
  obtain ⟨-, place, stands, reading⟩ := texts_are_revealed o before after starts
  obtain rfl : (⟨0⟩ : Cursor) = place := Option.some.inj stands
  have unstopped : w.Unstopped after ((o.world.pulses before).ready.headD default).id :=
    unstopped_of_isCalm (by decide +kernel)
  have keeps : w.KeepsUp .own after ((o.world.pulses before).ready.headD default).id :=
    keepsUp_of_isEarly (by decide +kernel)
  have rest : (w.pulses after).ready = [] := List.isEmpty_iff.mp (by decide +kernel)
  have unconfirmed : ∀ f ∈ [c], f.keys.confirm = false := by simp [c]
  have confirmed : d.keys.confirm = true := rfl
  obtain ⟨pre, h, early, becomes, ended, marks⟩ := reading.done _ (.reads ended unconfirmed confirmed)
    (by decide +kernel) rest unstopped keeps (by decide +kernel)
  exact ⟨_, r, starts, pre, h, early, becomes, ended, marks⟩

end World

end SceneScript
