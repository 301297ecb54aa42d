import Mathlib.Logic.Relation
import SceneScript.Proofs.Course
/-!
Performances: what a host opens with, and every order of its steps and of the turns of fibers. A step
of the host falls into beats: turns, and things the host does at once.
-/

namespace SceneScript

/-- What a host sets up: its callbacks and its programs. What the scheduler makes of it, no host can
tell. -/
structure Opening where
  settings : Settings
  rig : Rig
  backlog : Nat
  hasty : Nat → Bool
  registry : Registry
  scripts : List (List Command)

def Opening.world (o : Opening) : World :=
  { World.new o.settings o.rig o.backlog with
    hasty := o.hasty
    registry := o.registry
    programs := (o.scripts.map Program.ofCommands).toArray }

inductive Move where
  | host (s : HostStep)
  | turn

namespace HostStep

/-- Steps in which no fiber has a turn. -/
def isBrief : HostStep → Bool
  | .tick _ | .burst _ | .sleep _ => false
  | _ => true

def isCue : HostStep → Bool
  | .execute _ | .select _ | .setChosen _ => true
  | _ => false

end HostStep

namespace World

def move (w : World) : Move → World
  | .host s => (w.apply s).1
  | .turn => w.turn

def after (w : World) (ms : List Move) : World := ms.foldl move w

/-- What happens in between the things that the host does at once. -/
inductive Lull : World → World → Prop where
  | turn (w : World) : Lull w w.turn
  | publish (w : World) (delta : Span) (keys : Keys) : Lull w (w.publish delta keys)
  | reach (w : World) (time : Span) : Lull w (w.reach time)

abbrev Lulls : World → World → Prop := Relation.ReflTransGen Lull

inductive Beat : World → World → Prop where
  | lull {w w' : World} : Lull w w' → Beat w w'
  | brief (w : World) {s : HostStep} : s.isBrief = true → Beat w (w.apply s).1

abbrev Beats : World → World → Prop := Relation.ReflTransGen Beat

theorem lulls_turns (n : Nat) (w : World) : Lulls w (w.turns n) := by
  induction n generalizing w with
  | zero => exact .refl
  | succ n ih =>
    unfold turns
    split
    · exact .refl
    · exact .head (.turn w) (ih w.turn)

theorem lulls_settle (w : World) : Lulls w w.settle := lulls_turns patience w

theorem lulls_tick (w : World) (delta : Span) (keys : Keys) : Lulls w (w.tick delta keys) :=
  ((lulls_settle w).tail (.publish _ delta keys)).trans (lulls_settle _)

theorem lulls_fireTimers (goal : Span) (included : Bool) (n : Nat) (w : World) :
    Lulls w (fireTimers goal included n w) := by
  induction n generalizing w with
  | zero => exact .refl
  | succ n ih =>
    unfold fireTimers
    split
    · rename_i due _
      split
      · exact .head (.reach w due) ((lulls_settle _).trans (ih _))
      · exact .refl
    · exact .refl

theorem lulls_passTime (w : World) (span : Span) : Lulls w (w.passTime span) :=
  ((lulls_settle w).trans (lulls_fireTimers _ _ _ _)).tail (.reach _ _)

theorem lulls_foldl {α : Type} {f : World → α → World} (h : ∀ w a, Lulls w (f w a)) (l : List α)
    (w : World) : Lulls w (l.foldl f w) := by
  induction l generalizing w with
  | nil => exact .refl
  | cons a l ih => exact (h w a).trans (ih (f w a))

theorem lulls_apply (w : World) {s : HostStep} (long : s.isBrief = false) :
    Lulls w (w.apply s).1 := by
  cases s with
  | tick frames =>
    have ticked (w : World) (f : Span × Keys) : Lulls w (w.tick f.1 f.2) := lulls_tick w f.1 f.2
    have heq : (w.apply (.tick frames)).1 = frames.foldl (fun w f => w.tick f.1 f.2) w := rfl
    rw [heq]
    exact lulls_foldl ticked frames w
  | burst frames =>
    have published (w : World) (f : Span × Keys) : Lulls w (w.publish f.1 f.2) :=
      .single (.publish w f.1 f.2)
    exact lulls_foldl published frames w
  | sleep span => exact lulls_passTime w span
  | _ => cases long

theorem beats_of_lulls {w w' : World} (h : Lulls w w') : Beats w w' := by
  induction h with
  | refl => exact .refl
  | tail _ lull ih => exact ih.tail (.lull lull)

theorem beats_move (w : World) (m : Move) : Beats w (w.move m) := by
  cases m with
  | turn => exact .single (.lull (.turn w))
  | host s =>
    cases brief : s.isBrief with
    | true => exact .single (.brief w brief)
    | false => exact beats_of_lulls (lulls_apply w brief)

theorem beats_after (w : World) (ms : List Move) : Beats w (w.after ms) := by
  induction ms generalizing w with
  | nil => exact .refl
  | cons m ms ih => exact (beats_move w m).trans (ih (w.move m))

/-! ### What beats keep -/

theorem keeps_publish {run : Prop} (w : World) (delta : Span) (keys : Keys) :
    Keeps run w (w.publish delta keys) := by
  have published : Keeps run w { w with feed := w.feed.publish delta keys } :=
    keeps_untracked ..
  exact (published.trans (keeps_record _ _ fun _ => rfl)).trans (keeps_wake _ _)

theorem keeps_reach {run : Prop} (w : World) (time : Span) : Keeps run w (w.reach time) := by
  have passed : Keeps run w { w with now := time } := keeps_untracked ..
  exact passed.trans (keeps_wake _ _)

theorem keeps_abortFiber {run : Prop} (w : World) (f : Option Fiber) :
    Keeps run w (w.abortFiber f).1 := by
  cases f with
  | none => exact .refl _
  | some f => exact keeps_abort w f.id

theorem keeps_brief {run : Prop} (w : World) {s : HostStep} (brief : s.isBrief = true)
    (plain : s.isCue = false) :
    Keeps run w (w.apply s).1 := by
  cases s with
  | tick | burst | sleep => cases brief
  | execute | select | setChosen => cases plain
  | setVar | failScenes => exact keeps_untracked ..
  | abort => exact keeps_abortFiber _ _
  | abortLoad => exact keeps_abortFiber _ _
  | finishAnimation n =>
    have granted : Keeps run w { w with permits := w.permits + n } := keeps_untracked ..
    exact granted.trans (keeps_wake _ _)
  | cancelSideEffects => exact keeps_cancelSideEffects w
  | play => exact keeps_play _ _ _ _
  | fadeOut => exact keeps_fadeOut _ _ _
  | stopChannel => exact keeps_stopChannel _ _
  | load job => exact keeps_spawnLoad w [.load job] (by simp [Act.isScenic])
  | boardIn color span =>
    exact keeps_spawnLoad w [.watchBoard, .sweep (.start .board (.board color 0 1) span)]
      (by simp [Act.isScenic, Sweep.start])
  | boardOut span => exact keeps_spawnLoad w [.clearBoard span] (by simp [Act.isScenic])
  | release =>
    have granted : Keeps run w { w with releases := w.releases + 1 } := keeps_untracked ..
    exact granted.trans (keeps_wake _ _)
  | dropClock =>
    show Keeps run w w.dropClock
    unfold dropClock
    split
    · exact keeps_untracked ..
    · exact .refl _
  | look => exact .refl _

theorem Lull.turns {w w' : World} (h : Lull w w') (crewed : w.Crewed) (actor : w.actor = none)
    (attended : w.plot.Attended) :
    Plot.Turn w.plot w'.plot ∧ w'.Crewed ∧ w'.actor = none := by
  have quiet {w' : World} (kept : Keeps True w w') :
      Plot.Turn w.plot w'.plot ∧ w'.Crewed ∧ w'.actor = none :=
    ⟨.rests (kept.touches attended.1), crewed.keeps kept, kept.actor.trans actor⟩
  cases h with
  | turn =>
    refine ⟨(turn_cases w crewed attended).1, crewed.turn attended, ?_⟩
    unfold World.turn
    split
    · exact actor
    · rfl
  | publish delta keys => exact quiet (keeps_publish w delta keys)
  | reach time => exact quiet (keeps_reach w time)

theorem brief_turns (w : World) {s : HostStep} (brief : s.isBrief = true)
    (other : ∀ n, s ≠ .execute n) (crewed : w.Crewed) (actor : w.actor = none)
    (attended : w.plot.Attended) :
    Plot.Touches w.plot (w.apply s).1.plot ∧ (w.apply s).1.Crewed ∧ (w.apply s).1.actor = none := by
  by_cases cue : s.isCue = true
  · cases s with
    | execute n => exact absurd rfl (other n)
    | select index =>
      have kept : Keeps False w (w.select index).1 := keeps_select w index
      exact ⟨touches_select w index attended.1, crewed.keeps kept, kept.actor.trans actor⟩
    | setChosen index =>
      have kept : Keeps False w (w.setChosen index) := keeps_setChosen w index
      exact ⟨touches_setChosen w index, crewed.keeps kept, kept.actor.trans actor⟩
    | _ => cases cue
  · have kept : Keeps True w (w.apply s).1 := keeps_brief w brief (by simpa using cue)
    exact ⟨kept.touches attended.1, crewed.keeps kept, kept.actor.trans actor⟩

theorem execute_cases_plot (w : World) (n : Nat) (actor : w.actor = none)
    (attended : w.plot.Attended) :
    (∃ e, (w.apply (.execute n)).2 = .failed e ∧
      Plot.Touches w.plot (w.apply (.execute n)).1.plot) ∨
    (∃ q q', w.state.executing = false ∧ w.programs[n]? = some q ∧ q.preprocess = .ok q' ∧
      q'.commands ≠ [] ∧ (w.apply (.execute n)).2 = .number w.runs ∧
      (w.apply (.execute n)).1.plot = w.plot.starts n q') := by
  have alone (idle : w.state.executing = false) : w.leads = [] := by
    by_contra h
    have busy : w.state.executing = true := attended.2.mpr h
    rw [idle] at busy
    cases busy
  rcases plot_executeNumber w n fun idle => ⟨alone idle, actor⟩ with
    ⟨e, result, touched⟩ | ⟨q, q', idle, found, resolved, nonempty, result, plot⟩
  · refine .inl ⟨e, ?_, touched⟩
    show reply .number (w.executeNumber n).2 = _
    rw [result]
    rfl
  · refine .inr ⟨q, q', idle, found, resolved, nonempty, ?_, plot⟩
    show reply .number (w.executeNumber n).2 = _
    rw [result]
    rfl

/-- A beat is a step of the plot. -/
theorem Beat.step {w w' : World} (h : Beat w w') (crewed : w.Crewed) (actor : w.actor = none)
    (attended : w.plot.Attended) :
    Plot.Step w.plot w'.plot ∧ w'.Crewed ∧ w'.actor = none := by
  cases h with
  | lull lull =>
    obtain ⟨turn, rest⟩ := lull.turns crewed actor attended
    exact ⟨.turn turn, rest⟩
  | @brief s brief =>
    by_cases execute : ∃ n, s = .execute n
    · obtain ⟨n, rfl⟩ := execute
      have kept : Keeps False w (w.apply (.execute n)).1 := keeps_executeNumber w n
      refine ⟨?_, crewed.keeps kept, kept.actor.trans actor⟩
      rcases execute_cases_plot w n actor attended with
        ⟨-, -, touched⟩ | ⟨q, q', idle, found, resolved, nonempty, -, plot⟩
      · exact .turn (.rests touched)
      · rw [plot]
        exact .starts idle found resolved nonempty
    · obtain ⟨touched, rest⟩ := brief_turns w brief (fun n same => execute ⟨n, same⟩) crewed actor
        attended
      exact ⟨.turn (.rests touched), rest⟩

end World

end SceneScript
