import SceneScript.Proofs.Loops
import SceneScript.Proofs.Mixing
/-!
Changes of scene as the host notices them. From the turn in which a load is let past its check, the
host's input is blocked, the music is hushed if that was asked for, the board goes up, the scene is
switched, the board comes down again and the input is let through (`Unveiled`). A load that is not told
to stop does this and nothing else, unless its time overflows (`scenes_change_behind_the_board`).
-/

namespace SceneScript

/-- What can be noticed of a load: calls on the scene host and its answer, frames, and what is asked of
the mixer. -/
inductive Cue where
  | calls (c : SceneCall)
  | answers (a : Except Failure Unit)
  | takes (fr : Frame)
  | asks (q : Request)

def Mark.cue? : Mark → Option Cue
  | .scene c => some (.calls c)
  | .frame fr => some (.takes fr)
  | _ => none

def cuesOf (ms : List Mark) : List Cue := ms.filterMap Mark.cue?

def Cue.call? : Cue → Option SceneCall
  | .calls c => some c
  | _ => none

theorem cuesOf_append (ms ms' : List Mark) : cuesOf (ms ++ ms') = cuesOf ms ++ cuesOf ms' :=
  List.filterMap_append

namespace SceneJob

def cover (job : SceneJob) : Paint := .board job.color 0 1

def uncover (job : SceneJob) : Paint := .board job.color 1 0

def rest (job : SceneJob) : Span := job.span.without job.span.half

theorem half_add_rest (job : SceneJob) : job.span.half + job.rest = job.span :=
  job.span.half_add_without_half

/-- The colour of the board before each of these frames, and the last one. -/
def boards (job : SceneJob) (start stop : Float32) (span : Span) (frames : List Frame) : List Color :=
  ((List.range frames.length).map fun i => job.color.withAlpha
    (Color.blend start stop ((totalDelta (frames.take i)).share span))) ++ [job.color.withAlpha stop]

theorem calls_board (job : SceneJob) (start stop : Float32) (span : Span) (frames : List Frame) :
    (cuesOf ((Paint.board job.color start stop).score span frames)).filterMap Cue.call? =
      (job.boards start stop span frames).map .board := by
  rw [cuesOf, List.filterMap_filterMap, Paint.filterMap_score _ _ _ _ fun _ => rfl, boards,
    List.map_append, List.map_map, List.map_eq_flatMap]
  rfl

def opening (job : SceneJob) : List Cue :=
  .calls (.blocked true) :: if job.fadeMusic then [.asks (.fadeOut .bgm job.span)] else []

/-- Everything up to the change of scene. -/
def covered (job : SceneJob) (up : List Frame) : List Cue :=
  job.opening ++ cuesOf (job.cover.score job.span.half up) ++ [Cue.calls (.switch job.scene)]

end SceneJob

/-- All that is noticed of a load, and the error that it ends with. -/
inductive Unveiled (job : SceneJob) : List Cue → Option Failure → Prop where
  | shows {up down : List Frame} : Lasts job.span.half up → Lasts job.rest down →
      Unveiled job (job.covered up ++ Cue.answers (.ok ()) ::
        (cuesOf (job.uncover.score job.rest down) ++ [Cue.calls (.blocked false)])) none
  | fails {up : List Frame} (e : Failure) : Lasts job.span.half up →
      Unveiled job (job.covered up ++ [Cue.answers (.error e), .calls (.blocked false)]) (some e)

/-- What was noticed of a load so far, what is left of it, the keys pressed by then, and the error on
its way. -/
inductive Reel (settings : Settings) (job : SceneJob) :
    List Cue → List Act → Keys → Option Failure → Prop where
  | hushes {k : Keys} : job.fadeMusic = true →
      Reel settings job [.calls (.blocked true)] (.hushMusic job.span :: job.covering) k none
  | watches {k : Keys} : Reel settings job job.opening job.covering k none
  | covers {ms : List Mark} {left : List Act} {k₀ k : Keys} :
      Passage settings (job.cover.loop .board job.span.half) k₀ ms left k →
      Reel settings job (job.opening ++ cuesOf ms)
        (left ++ Act.switchScene job.scene :: job.entering) k none
  | enters {up : List Frame} {k : Keys} : Lasts job.span.half up →
      Reel settings job (job.covered up) job.entering k none
  | notes {up : List Frame} {k : Keys} : Lasts job.span.half up →
      Reel settings job (job.covered up ++ [Cue.answers (.ok ())])
        (.remark (.sceneSwitched job.scene) :: job.uncovering) k none
  | uncovers {up : List Frame} {ms : List Mark} {left : List Act} {k₀ k : Keys} :
      Lasts job.span.half up → Passage settings (job.uncover.loop .board job.rest) k₀ ms left k →
      Reel settings job (job.covered up ++ Cue.answers (.ok ()) :: cuesOf ms)
        (left ++ [Act.release]) k none
  /-- The scene could not be entered: the rest is skipped. -/
  | fails {up : List Frame} {pend : List Act} {k : Keys} (e : Failure) : Lasts job.span.half up →
      pend ≠ [] → pend <:+ .remark (.sceneSwitched job.scene) :: job.uncovering →
      Reel settings job (job.covered up ++ [Cue.answers (.error e)]) pend k (some e)

section

variable {settings : Settings} {job : SceneJob} {cs : List Cue} {pend after : List Act} {k : Keys}
  {fault : Option Failure}

theorem exists_lasts (span : Span) : ∃ frames, Lasts span frames := by
  obtain ⟨ms, k, sounds⟩ := exists_sounds default (Paint.nothing.isSolo_loop .own span) .nothing
  obtain ⟨frames, lasts, -⟩ := sounds.loop
  exact ⟨frames, lasts⟩

theorem Reel.any_isRelease (h : Reel settings job cs pend k fault) :
    pend.any Fiber.isRelease = true := by
  cases h with
  | fails e _ some suffix =>
    have last : pend.getLast some = .release := by
      rw [suffix.getLast some]
      rfl
    refine List.any_eq_true.mpr ⟨.release, ?_, rfl⟩
    rw [← last]
    exact List.getLast_mem some
  | _ => simp [SceneJob.covering, SceneJob.entering, SceneJob.uncovering, Fiber.isRelease]

theorem Reel.start (settings : Settings) (job : SceneJob) (k : Keys) :
    Reel settings job [.calls (.blocked true)] job.acts k none := by
  have acts : job.acts = (if job.fadeMusic then [.hushMusic job.span] else []) ++ job.covering := rfl
  rw [acts]
  cases music : job.fadeMusic with
  | true => exact .hushes music
  | false =>
    have watches : Reel settings job job.opening job.covering k none := .watches
    rw [SceneJob.opening, music] at watches
    exact watches

/-- Whatever is left of the way down of the board, it can be done. -/
theorem Unveiled.carry {up : List Frame} {ms more : List Mark} {k₀ k' : Keys}
    (fills : Lasts job.span.half up)
    (sounds : Sounds settings (job.uncover.loop .board job.rest) k₀ (ms ++ more) k') :
    Unveiled job (job.covered up ++ Cue.answers (.ok ()) :: cuesOf ms ++
      (cuesOf more ++ [Cue.calls (.blocked false)])) none := by
  obtain ⟨down, fills', marks, -⟩ := sounds.loop
  have whole : Unveiled job _ none := .shows fills fills'
  rw [← marks, cuesOf_append] at whole
  simpa using whole

/-- So can what is left of its way up. -/
theorem Unveiled.carry_up {ms more : List Mark} {k₀ k' : Keys}
    (sounds : Sounds settings (job.cover.loop .board job.span.half) k₀ (ms ++ more) k') :
    ∃ later, Unveiled job (job.opening ++ cuesOf ms ++ (cuesOf more ++ later)) none := by
  obtain ⟨up, fills, marks, -⟩ := sounds.loop
  obtain ⟨down, fills'⟩ := exists_lasts job.rest
  have whole : Unveiled job _ none := .shows fills fills'
  rw [SceneJob.covered, ← marks, cuesOf_append] at whole
  exact ⟨.calls (.switch job.scene) :: .answers (.ok ()) ::
    (cuesOf (job.uncover.score job.rest down) ++ [Cue.calls (.blocked false)]),
    by simpa using whole⟩

theorem Unveiled.carry_start (job : SceneJob) :
    ∃ later, Unveiled job (job.opening ++ later) none := by
  obtain ⟨up, fills⟩ := exists_lasts job.span.half
  obtain ⟨down, fills'⟩ := exists_lasts job.rest
  have whole : Unveiled job _ none := .shows fills fills'
  rw [SceneJob.covered, List.append_assoc, List.append_assoc] at whole
  exact ⟨_, whole⟩

theorem Unveiled.carry_entered {up : List Frame} (fills : Lasts job.span.half up) :
    ∃ later, Unveiled job (job.covered up ++ Cue.answers (.ok ()) :: later) none := by
  obtain ⟨down, fills'⟩ := exists_lasts job.rest
  exact ⟨_, .shows fills fills'⟩

/-- What was noticed so far is the beginning of a whole. -/
theorem Reel.carried_on (h : Reel settings job cs pend k fault) :
    ∃ more e, Unveiled job (cs ++ more) e := by
  cases h with
  | hushes music =>
    obtain ⟨later, whole⟩ := Unveiled.carry_start job
    rw [SceneJob.opening, music, List.cons_append] at whole
    exact ⟨_, none, whole⟩
  | watches =>
    obtain ⟨later, whole⟩ := Unveiled.carry_start job
    exact ⟨later, none, whole⟩
  | covers passage =>
    obtain ⟨more, k', sounds⟩ := passage.carried_on (job.cover.isSolo_loop .board job.span.half)
    obtain ⟨later, whole⟩ := Unveiled.carry_up sounds
    exact ⟨_, none, whole⟩
  | enters fills =>
    obtain ⟨later, whole⟩ := Unveiled.carry_entered fills
    exact ⟨_, none, whole⟩
  | notes fills =>
    obtain ⟨later, whole⟩ := Unveiled.carry_entered fills
    exact ⟨later, none, by simpa using whole⟩
  | uncovers fills passage =>
    obtain ⟨more, k', sounds⟩ := passage.carried_on (job.uncover.isSolo_loop .board job.rest)
    exact ⟨_, none, .carry fills sounds⟩
  | fails e fills =>
    have whole : Unveiled job _ (some e) := .fails e fills
    exact ⟨[.calls (.blocked false)], some e, by simpa using whole⟩

end

theorem Act.request?_of_isSolo {a : Act} (solo : a.isSolo = true) : a.request? = none := by
  cases a <;> first | rfl | cases solo

namespace World

/-- How the scene host answers in the turn to come. -/
def answer? (w : World) : Option (Except Failure Unit) :=
  match w.act? with
  | some (.enterScene scene) =>
    if w.waitsForRelease then none else some (w.spendRelease.enterScene scene).2
  | _ => none

/-- What is noticed of the fiber in a pulse. -/
def cuesIn (w : World) (id : Nat) (p : Pulse) : List Cue :=
  match p with
  | .turn =>
    if w.ready.head?.map (·.id) = some id then
      (w.act?.bind Act.request?).toList.map .asks ++ cuesOf (w.marksIn id .turn) ++
        w.answer?.toList.map .answers
    else []
  | _ => []

def cues (w : World) (id : Nat) : List Pulse → List Cue
  | [] => []
  | p :: ps => w.cuesIn id p ++ (w.pulse p).cues id ps

variable {w : World} {f g : Fiber} {job : SceneJob} {rest : List Fiber} {p : Pulse} {ps : List Pulse}
  {id : Nat} {a : Act} {after pend : List Act} {cs : List Cue}

theorem cues_concat (w : World) (id : Nat) (ps : List Pulse) (p : Pulse) :
    w.cues id (ps ++ [p]) = w.cues id ps ++ (w.pulses ps).cuesIn id p := by
  induction ps generalizing w with
  | nil => exact List.append_nil _
  | cons q ps ih =>
    rw [List.cons_append, cues, cues, ih, List.append_assoc]
    rfl

theorem cuesIn_other (other : ¬ w.OwnTurn p id) : w.cuesIn id p = [] := by
  cases p with
  | turn => exact if_neg fun own => other (ownTurn_turn.mpr own)
  | _ => rfl

theorem cuesIn_turn (ready : w.ready = f :: rest) : w.cuesIn f.id .turn =
    (w.act?.bind Act.request?).toList.map .asks ++ cuesOf (w.marksIn f.id .turn) ++
      w.answer?.toList.map .answers :=
  if_pos (by rw [ready]; rfl)

/-! ### One turn -/

/-- From `w` to `x` nothing is noted down that could be noticed of a load. -/
def Unnoticed (w x : World) : Prop :=
  ∃ es : List Entry, x.entries = w.entries ++ es ∧ cuesOf (es.filterMap (·.deed.mark?)) = []

theorem Unnoticed.of_eq {x : World} (same : x.chronicle = w.chronicle) : Unnoticed w x :=
  ⟨[], by rw [World.entries, same, List.append_nil]; rfl, rfl⟩

theorem Unnoticed.record {x : World} (h : Unnoticed w x) {d : Deed}
    (silent : d.mark?.bind Mark.cue? = none) : Unnoticed w (x.record d) := by
  obtain ⟨es, grown, before⟩ := h
  refine ⟨es ++ [⟨x.actor, d⟩], by rw [entries_record, grown, List.append_assoc], ?_⟩
  rw [List.filterMap_append, cuesOf_append, before]
  cases mark : d.mark? with
  | none => simp [mark, cuesOf]
  | some m =>
    rw [mark] at silent
    have silent : m.cue? = none := silent
    simp [mark, cuesOf, silent]

theorem unnoticed_fadeOut (w : World) (channel : Channel) (span : Span) :
    Unnoticed w (w.fadeOut channel span).1 := by
  have cancelled : Unnoticed w (w.cancelFade channel) := by
    refine .of_eq ?_
    unfold cancelFade
    split <;> rfl
  unfold fadeOut
  split
  · split
    · exact (Unnoticed.of_eq rfl).record rfl
    dsimp only
    split
    · exact cancelled
    · have noted : Unnoticed w ((w.cancelFade channel).remark (.fadeWithoutTasks channel)) :=
        cancelled.record rfl
      have stopped : Unnoticed w (((w.cancelFade channel).remark
          (.fadeWithoutTasks channel)).modifyStrip channel Strip.stop) := noted
      exact (stopped.record rfl).record rfl
  · split
    · exact .of_eq rfl
    · exact (Unnoticed.of_eq rfl).record rfl

theorem answer_taken (w : World) (f : Fiber) (rest : List Fiber) (scene : String) :
    (w.spendRelease.enterScene scene).2 = ((w.taken f rest).spendRelease.enterScene scene).2 := by
  have fails : (w.taken f rest).spendRelease.sceneFails = w.spendRelease.sceneFails :=
    (sceneFails_spendRelease _).trans (sceneFails_spendRelease w).symm
  unfold enterScene
  rw [fails]
  split
  · rfl
  · split <;> rfl

theorem unnoticed_enterScene (w : World) (scene : String) :
    Unnoticed w (w.spendRelease.enterScene scene).1 := by
  have spent : Unnoticed w w.spendRelease := by
    refine .of_eq ?_
    unfold spendRelease
    split <;> rfl
  unfold enterScene
  split
  · exact spent
  · split
    · exact spent
    · exact spent.record rfl

/-- What the turn of a fiber whose load is under way makes of it. -/
inductive Rolls (w : World) (g : Fiber) (job : SceneJob) (after : List Act) (cs : List Cue) :
    Prop where
  | goes (g' : Fiber) : g' ∈ w.turn.hands → g'.id = g.id →
      (∃ pend, g'.todo = pend ++ after ∧
        Reel w.settings job (cs ++ w.cuesIn g.id .turn) pend g'.pressed g'.fault) →
      Rolls w g job after cs
  | lifts (g' : Fiber) : g' ∈ w.turn.hands → g'.id = g.id → g'.todo = after →
      Unveiled job (cs ++ w.cuesIn g.id .turn) g'.fault → Rolls w g job after cs
  | bursts : w.Overflows g → Rolls w g job after cs

theorem Rolls.resume {v : World} {g' : Fiber} {ds : List Cue} (pend : List Act)
    (turned : w.turn = { v.resume g' with actor := none }) (id : g'.id = g.id)
    (todo : g'.todo = pend ++ after) (noticed : w.cuesIn g.id .turn = ds)
    (reel : Reel w.settings job (cs ++ ds) pend g'.pressed g'.fault) : w.Rolls g job after cs := by
  refine .goes g' ?_ id ⟨pend, todo, noticed ▸ reel⟩
  rw [turned]
  exact mem_hands.mpr List.mem_cons_self

section

variable (ready : w.ready = g :: rest) (spared : g.doomed = false) (going : w.isCancelled g = false)
include ready

theorem cuesIn_of_entries {a? : Option Act} (act : w.act? = a?) (still : ∀ s, a? ≠ some (.sweep s))
    {es : List Entry} (grown : w.turn.entries = w.entries ++ es) : w.cuesIn g.id .turn =
      (a?.bind Act.request?).toList.map .asks ++ cuesOf (es.filterMap (·.deed.mark?)) ++
        w.answer?.toList.map .answers := by
  have levels : w.levels = [] := by
    unfold World.levels
    rw [act]
    split
    · exact absurd rfl (still _)
    · rfl
  rw [cuesIn_turn ready, marksIn_turn ready grown, levels, act, List.nil_append]

include spared going

/-- A turn in which nothing is noticed but what is asked of the mixer, and the answer of the host. -/
theorem cuesIn_unnoticed {v : World} (fault : g.fault = none) (todo : g.todo = a :: after)
    (still : ∀ s, a ≠ .sweep s) (same : w.turn.chronicle = v.chronicle) (unnoticed : Unnoticed w v) :
    w.cuesIn g.id .turn = a.request?.toList.map .asks ++ w.answer?.toList.map .answers := by
  obtain ⟨es, grown, quiet⟩ := unnoticed
  have grown : w.turn.entries = w.entries ++ es := by
    rw [← grown, World.entries, same]
    rfl
  have act := act?_going ready spared going fault todo
  rw [cuesIn_of_entries ready act (fun s same => still s (Option.some.inj same)) grown, quiet,
    List.append_nil]
  rfl

/-- A turn of a loop. -/
theorem turn_loop {p : Paint} {span : Span} {left : List Act} {k₀ : Keys} {ms : List Mark}
    (sources : 0 < w.feed.sources) (fault : g.fault = none) (due : left ≠ [])
    (todo : g.todo = left ++ after)
    (passage : Passage w.settings (p.loop .board span) k₀ ms left g.pressed) :
    w.Overflows g ∨ ∃ g' ∈ w.turn.hands, g'.id = g.id ∧ g'.fault = none ∧ ∃ left' ms',
      g'.todo = left' ++ after ∧ w.cuesIn g.id .turn = cuesOf ms' ∧
        Passage w.settings (p.loop .board span) k₀ (ms ++ ms') left' g'.pressed := by
  obtain ⟨a, left, rfl⟩ := List.exists_cons_of_ne_nil due
  have solo : a.isSolo = true := passage.isSolo (p.isSolo_loop .board span) a List.mem_cons_self
  have act := act?_going ready spared going fault todo
  have noticed : w.cuesIn g.id .turn = cuesOf (w.marksIn g.id .turn) := by
    have answers : w.answer? = none := by
      unfold answer?
      rw [act]
      cases a <;> first | rfl | cases solo
    rw [cuesIn_turn ready, act, answers]
    show (a.request?).toList.map _ ++ _ ++ [] = _
    rw [Act.request?_of_isSolo solo, List.append_nil]
    rfl
  cases turn_soloist ready spared going fault todo solo sources with
  | bursts overflows => exact .inl overflows
  | waits among silent =>
    refine .inr ⟨g, among, rfl, fault, a :: left, [], todo, ?_, ?_⟩
    · rw [noticed, silent]
    · rw [List.append_nil]
      exact passage
  | plays g' among id role fault' stroke advances heard =>
    rw [todo] at stroke
    obtain ⟨left', todo', stroke⟩ := Stroke.local (a :: left) stroke (List.cons_ne_nil _ _)
    exact .inr ⟨g', among, id, fault', left', _, todo', noticed, passage.goes stroke⟩

theorem rolls_hushes (music : job.fadeMusic = true) (fault : g.fault = none)
    (todo : g.todo = .hushMusic job.span :: (job.covering ++ after)) :
    w.Rolls g job after [.calls (.blocked true)] := by
  have turned := turn_going ready spared going fault todo
  obtain ⟨v, performed, unnoticed⟩ : ∃ v, (w.taken g rest).perform
      { g with todo := job.covering ++ after } (.hushMusic job.span) =
        v.resume { g with todo := job.covering ++ after } ∧ Unnoticed w v := by
    have faded : Unnoticed w ((w.taken g rest).fadeOut .bgm job.span).1 :=
      unnoticed_fadeOut (w.taken g rest) .bgm job.span
    show ∃ v, performHushMusic _ _ _ = _ ∧ _
    unfold performHushMusic
    split
    · rename_i v ok
      rw [ok] at faded
      exact ⟨v, rfl, faded⟩
    · rename_i v e failed
      rw [failed] at faded
      exact ⟨_, rfl, faded.record rfl⟩
  rw [performed] at turned
  have answers : w.answer? = none := by
    rw [answer?, act?_going ready spared going fault todo]
  have noticed := cuesIn_unnoticed ready spared going fault todo (by simp) (v := v)
    (by rw [turned]; rfl) unnoticed
  rw [answers] at noticed
  refine .resume _ turned rfl rfl noticed ?_
  have opening : [Cue.calls (.blocked true)] ++ [Cue.asks (.fadeOut .bgm job.span)] =
      job.opening := by
    rw [SceneJob.opening, music]
    rfl
  show Reel _ _ ([Cue.calls (.blocked true)] ++ [Cue.asks (.fadeOut .bgm job.span)]) _ _ g.fault
  rw [opening, fault]
  exact .watches

theorem rolls_watches (fault : g.fault = none) (todo : g.todo = job.covering ++ after) :
    w.Rolls g job after job.opening := by
  have turned := turn_going ready spared going fault todo
  have answers : w.answer? = none := by
    rw [answer?, act?_going ready spared going fault todo]
  have noticed := cuesIn_unnoticed ready spared going fault todo (by simp) (v := w)
    (by rw [turned]; rfl) (.of_eq rfl)
  rw [answers] at noticed
  refine .resume _ turned rfl rfl noticed ?_
  show Reel _ _ (job.opening ++ cuesOf []) ([Act.sweep (.start .board job.cover job.span.half)] ++
    .switchScene job.scene :: job.entering) _ g.fault
  rw [fault]
  exact .covers .begins

theorem rolls_switches {up : List Frame} (fills : Lasts job.span.half up) (fault : g.fault = none)
    (todo : g.todo = .switchScene job.scene :: (job.entering ++ after)) :
    w.Rolls g job after (job.opening ++ cuesOf (job.cover.score job.span.half up)) := by
  have turned := turn_going ready spared going fault todo
  have act := act?_going ready spared going fault todo
  have answers : w.answer? = none := by rw [answer?, act]
  have grown : w.turn.entries = w.entries ++ [⟨some g.id, .scene (.switch job.scene)⟩] := by
    rw [turned]
    exact entries_record (w.taken g rest) _
  have noticed := cuesIn_of_entries ready act (by simp) grown
  rw [answers] at noticed
  refine .resume _ turned rfl rfl noticed ?_
  show Reel _ _ (job.covered up) _ _ g.fault
  rw [fault]
  exact .enters fills

theorem rolls_enters {up : List Frame} (fills : Lasts job.span.half up) (fault : g.fault = none)
    (todo : g.todo = .enterScene job.scene :: (.remark (.sceneSwitched job.scene) ::
      (job.uncovering ++ after))) : w.Rolls g job after (job.covered up) := by
  have turned := turn_going ready spared going fault todo
  have act := act?_going ready spared going fault todo
  have answers : w.answer? = if w.waitsForRelease then none
      else some ((w.taken g rest).spendRelease.enterScene job.scene).2 := by
    rw [answer?, act, ← answer_taken w g rest]
  rw [perform, performEnterScene, show (w.taken g rest).waitsForRelease = w.waitsForRelease from rfl]
    at turned
  cases waits : w.waitsForRelease with
  | true =>
    rw [waits, if_pos rfl] at turned answers
    have noticed := cuesIn_unnoticed ready spared going fault todo (by simp) (v := w)
      (by rw [turned]; rfl) (.of_eq rfl)
    rw [answers] at noticed
    let g' : Fiber := { g with todo := job.entering ++ after }
    have among : (⟨.scene, g'⟩ : Parked) ∈ w.turn.blocked := by
      rw [turned]
      exact List.mem_append_right _ (List.mem_singleton.mpr rfl)
    refine .goes g' (mem_hands_of_blocked among) rfl ⟨job.entering, rfl, ?_⟩
    rw [noticed]
    show Reel _ _ (job.covered up ++ []) _ _ g.fault
    rw [fault, List.append_nil]
    exact .enters fills
  | false =>
    rw [waits, if_neg Bool.false_ne_true] at turned answers
    have entered := unnoticed_enterScene (w.taken g rest) job.scene
    cases reached : (w.taken g rest).spendRelease.enterScene job.scene with
    | mk v a =>
      rw [reached] at turned answers entered
      have noticed := cuesIn_unnoticed ready spared going fault todo (by simp) (v := v)
        (by rw [turned]; cases a <;> rfl) entered
      rw [answers] at noticed
      cases a with
      | ok =>
        refine .resume (.remark (.sceneSwitched job.scene) :: job.uncovering) turned rfl rfl
          noticed ?_
        show Reel _ _ (job.covered up ++ [Cue.answers (.ok ())]) _ _ g.fault
        rw [fault]
        exact .notes fills
      | error e =>
        refine .resume (.remark (.sceneSwitched job.scene) :: job.uncovering) turned rfl rfl
          noticed ?_
        exact .fails e fills (by simp) (List.suffix_refl _)

theorem rolls_notes {up : List Frame} (fills : Lasts job.span.half up) (fault : g.fault = none)
    (todo : g.todo = .remark (.sceneSwitched job.scene) :: (job.uncovering ++ after)) :
    w.Rolls g job after (job.covered up ++ [Cue.answers (.ok ())]) := by
  have turned := turn_going ready spared going fault todo
  have answers : w.answer? = none := by
    rw [answer?, act?_going ready spared going fault todo]
  have unnoticed : Unnoticed w ((w.taken g rest).remark (.sceneSwitched job.scene)) :=
    Unnoticed.record (.of_eq rfl) rfl
  have noticed := cuesIn_unnoticed ready spared going fault todo (by simp)
    (by rw [turned]; rfl) unnoticed
  rw [answers] at noticed
  refine .resume _ turned rfl rfl noticed ?_
  show Reel _ _ (job.covered up ++ [Cue.answers (.ok ())] ++ [])
    ([Act.sweep (.start .board job.uncover job.rest)] ++ [Act.release]) _ g.fault
  rw [fault, List.append_nil]
  have begun : Passage w.settings [.sweep (.start .board job.uncover job.rest)] g.pressed [] _ _ :=
    .begins
  exact .uncovers fills begun

/-- The mask is lifted, whether the load failed or not. -/
theorem rolls_releases (todo : g.todo = .release :: after)
    (whole : Unveiled job (cs ++ [Cue.calls (.blocked false)]) g.fault) :
    w.Rolls g job after cs := by
  have turned : w.turn = { (w.taken g rest).performRelease { g with todo := after } with
      actor := none } := by
    cases fault : g.fault with
    | none => rw [turn_going ready spared going fault todo, ← fault]; rfl
    | some e => rw [turn_skipping ready spared going fault todo, ← fault]; rfl
  have act : w.act? = if g.fault.isSome then none else some .release := by
    simp [act?, ready, actOf?, spared, going, todo]
  have grown : w.turn.entries = w.entries ++
      [⟨some g.id, .scene (.blocked false)⟩, ⟨some g.id, .remark (.boardMask false)⟩] := by
    rw [turned]
    simp [performRelease, maskBoard, World.entries, World.resume, World.remark, World.record, taken]
  have noticed := cuesIn_of_entries ready act (by intro s; split <;> simp) grown
  have answers : w.answer? = none := by
    rw [answer?, act]
    cases g.fault <;> rfl
  have silent : ((if g.fault.isSome then none else some Act.release).bind Act.request?) = none := by
    cases g.fault <;> rfl
  rw [answers, silent] at noticed
  refine .lifts { g with todo := after, boardCursor := none } ?_ rfl rfl (noticed ▸ whole)
  rw [turned]
  exact mem_hands.mpr List.mem_cons_self

/-- After a failure everything is skipped but the release. -/
theorem rolls_fails {up : List Frame} {e : Failure} (fills : Lasts job.span.half up)
    (some : pend ≠ []) (suffix : pend <:+ .remark (.sceneSwitched job.scene) :: job.uncovering)
    (fault : g.fault = .some e) (todo : g.todo = pend ++ after) :
    w.Rolls g job after (job.covered up ++ [Cue.answers (.error e)]) := by
  obtain ⟨a, pend, rfl⟩ := List.exists_cons_of_ne_nil some
  have todo : g.todo = a :: (pend ++ after) := todo
  have skips (left : pend ≠ [])
      (same : (w.taken g rest).unwind { g with todo := pend ++ after } e a =
        (w.taken g rest).resume { g with todo := pend ++ after }) :
      w.Rolls g job after (job.covered up ++ [Cue.answers (.error e)]) := by
    have turned := turn_skipping ready spared going fault todo
    rw [same] at turned
    have act : w.act? = none := by simp [act?, ready, actOf?, fault]
    have grown : w.turn.entries = w.entries ++ [] := by
      rw [turned, List.append_nil]
      rfl
    have noticed := cuesIn_of_entries ready act (by simp) grown
    have answers : w.answer? = none := by rw [answer?, act]
    rw [answers] at noticed
    refine .resume pend turned rfl rfl noticed ?_
    show Reel _ _ (job.covered up ++ [Cue.answers (.error e)] ++ []) _ _ g.fault
    rw [fault, List.append_nil]
    exact .fails e fills left ((List.suffix_cons a pend).trans suffix)
  rcases List.suffix_cons_iff.mp suffix with here | suffix
  · obtain ⟨rfl, rfl⟩ := List.cons.inj here
    exact skips (by simp [SceneJob.uncovering]) rfl
  rcases List.suffix_cons_iff.mp suffix with here | suffix
  · obtain ⟨rfl, rfl⟩ := List.cons.inj here
    exact skips (by simp) rfl
  rcases List.suffix_cons_iff.mp suffix with here | suffix
  · obtain ⟨rfl, rfl⟩ := List.cons.inj here
    refine rolls_releases ready spared going todo ?_
    rw [fault, List.append_assoc]
    exact .fails e fills
  · simp at suffix

/-- A turn of a load, by what is left of it. -/
theorem rolls_reel (sources : 0 < w.feed.sources)
    (reel : Reel w.settings job cs pend g.pressed g.fault) (todo : g.todo = pend ++ after) :
    w.Rolls g job after cs := by
  generalize fault : g.fault = e at reel
  generalize pressed : g.pressed = k at reel
  cases reel with
  | hushes music => exact rolls_hushes ready spared going music fault todo
  | watches => exact rolls_watches ready spared going fault todo
  | @covers ms left k₀ _ passage =>
    cases left with
    | nil =>
      obtain ⟨up, fills, rfl, -⟩ := passage.whole.loop
      exact rolls_switches ready spared going fills fault todo
    | cons a left =>
      rw [List.append_assoc] at todo
      rcases turn_loop ready spared going sources fault (List.cons_ne_nil a left) todo
        (pressed ▸ passage) with overflows | ⟨g', among, id, fault', left', ms', todo', noticed, longer⟩
      · exact .bursts overflows
      · refine .goes g' among id ⟨left' ++ Act.switchScene job.scene :: job.entering, ?_, ?_⟩
        · rw [todo', List.append_assoc]
        · rw [noticed, fault', List.append_assoc, ← cuesOf_append]
          exact .covers longer
  | enters fills => exact rolls_enters ready spared going fills fault todo
  | notes fills => exact rolls_notes ready spared going fills fault todo
  | @uncovers up ms left k₀ _ fills passage =>
    cases left with
    | nil =>
      obtain ⟨down, fills', rfl, -⟩ := passage.whole.loop
      refine rolls_releases ready spared going todo ?_
      rw [fault, List.append_assoc]
      exact .shows fills fills'
    | cons a left =>
      rw [List.append_assoc] at todo
      rcases turn_loop ready spared going sources fault (List.cons_ne_nil a left) todo
        (pressed ▸ passage) with overflows | ⟨g', among, id, fault', left', ms', todo', noticed, longer⟩
      · exact .bursts overflows
      · refine .goes g' among id ⟨left' ++ [Act.release], ?_, ?_⟩
        · rw [todo', List.append_assoc]
        · rw [noticed, fault', List.append_assoc, List.cons_append, ← cuesOf_append]
          exact .uncovers fills longer
  | fails e fills some suffix => exact rolls_fails ready spared going fills some suffix fault todo

end

/-! ### Pulse by pulse -/

/-- The load of `f` is under way, with `g` its fiber after these pulses. -/
structure Reels (w : World) (f : Fiber) (job : SceneJob) (ps : List Pulse) (g : Fiber) : Prop where
  among : g ∈ (w.pulses ps).hands
  id : g.id = f.id
  reel : ∃ pend, g.todo = pend ++ f.todo.tail ∧
    Reel w.settings job (w.cues f.id ps) pend g.pressed g.fault

theorem Reels.other (h : w.Reels f job ps g) (play : (w.pulses ps).InPlay)
    (other : ¬ (w.pulses ps).OwnTurn p f.id) : ∃ g', w.Reels f job (ps ++ [p]) g' := by
  obtain ⟨among, id, pend, todo, reel⟩ := h
  obtain ⟨g', among', calm⟩ := mem_hands_pulse play among (id ▸ other)
  have pressed : g'.pressed = g.pressed := Fiber.eq_of_calm calm Fiber.pressed fun _ => rfl
  have fault : g'.fault = g.fault := Fiber.eq_of_calm calm Fiber.fault fun _ => rfl
  have cues : w.cues f.id (ps ++ [p]) = w.cues f.id ps := by
    rw [cues_concat, cuesIn_other other, List.append_nil]
  refine ⟨g', ?_, (congrArg Fiber.id calm).trans id, pend,
    (congrArg Fiber.todo calm).trans todo, ?_⟩
  · rw [pulses_concat]
    exact among'
  · rw [cues, pressed, fault]
    exact reel

theorem Reels.rolls (h : w.Reels f job ps g) (play : w.InPlay)
    (ready : (w.pulses ps).ready = g :: rest) (spared : g.doomed = false) :
    (w.pulses ps).Rolls g job f.todo.tail (w.cues f.id ps) := by
  obtain ⟨among, id, pend, todo, reel⟩ := h
  have here := play.pulses ps
  have holds : g.holdsScene = true := by
    rw [Fiber.holdsScene, todo, List.any_append, reel.any_isRelease]
    rfl
  have going := isCancelled_holder (w.pulses ps) (dutiful_hands here.order among) holds
  rw [← play.settings ps] at reel
  exact rolls_reel ready spared going here.screened.sources_pos reel todo

/-- The load waits for one more frame, and has seen all there are, or for the scene. -/
def Wants (w : World) (g : Fiber) (job : SceneJob) (cs : List Cue) (wait : Wait) : Prop :=
  wait = .frame ∧ (∃ fr more e, Unveiled job (cs ++ Cue.takes fr :: more) e) ∧
      (∀ c, g.boardCursor = some c → w.feed.count ≤ c.taken) ∨
    wait = .scene ∧ ∃ answer more e, Unveiled job (cs ++ Cue.answers answer :: more) e

/-- What has become of a load that is let past its check in the first of these pulses. -/
inductive Unveils (w : World) (f : Fiber) (job : SceneJob) (ps : List Pulse) : Prop where
  | under (g : Fiber) : g ∈ (w.pulses ps).hands → g.id = f.id →
      (∃ more e, Unveiled job (w.cues f.id ps ++ more) e) →
      (∀ b ∈ (w.pulses ps).blocked, b.fiber = g →
        (w.pulses ps).Wants g job (w.cues f.id ps) b.wait) → Unveils w f job ps
  | ended (g : Fiber) {pre : List Pulse} : pre <+: ps → g ∈ (w.pulses pre).hands → g.id = f.id →
      g.todo = f.todo.tail → Unveiled job (w.cues f.id pre) g.fault → Unveils w f job ps
  /-- The fiber was told to stop, or time overflowed. -/
  | cut (g : Fiber) {pre : List Pulse} : pre ++ [Pulse.turn] <+: ps →
      (w.pulses pre).ready.head? = some g → g.id = f.id →
      (∃ more e, Unveiled job (w.cues f.id pre ++ more) e) →
      g.doomed = true ∨ (w.pulses pre).Overflows g → Unveils w f job ps

/-- A load that is parked in a loop wants a frame. -/
theorem frame_of_halts {settings : Settings} {p : Paint} {span : Span} {ms : List Mark}
    {left : List Act} {k₀ k : Keys} {wait : Wait}
    (passage : Passage settings (p.loop .board span) k₀ ms (a :: left) k)
    (halts : a.halts wait = true) : wait = .frame ∧ a.lane? = some .board ∧
      ∃ fr more k', Sounds settings (p.loop .board span) k₀ (ms ++ Mark.frame fr :: more) k' := by
  have solo := passage.isSolo (p.isSolo_loop .board span)
  have own : a.isSolo = true := solo a List.mem_cons_self
  have read := passage.readOn (p.readOn_loop .board span) a List.mem_cons_self
  obtain ⟨suspends, lane, takes, rfl⟩ : a.suspends = true ∧
      ∃ lane, a.lane? = some lane ∧ wait = .frame := by
    cases a <;> cases wait <;> first
      | exact ⟨rfl, _, rfl, rfl⟩
      | exact absurd halts Bool.false_ne_true
      | exact absurd own Bool.false_ne_true
  obtain rfl : lane = .board := read lane (Act.reads?_of_lane? takes)
  obtain ⟨more, k', rest⟩ := exists_sounds settings solo k
  obtain ⟨fr, more, rfl⟩ := rest.frame_of_suspends own suspends
  exact ⟨rfl, takes, fr, more, k', passage.sounds rest⟩

/-- What a load that is parked waits for. -/
theorem Reels.wants {b : Parked} (h : w.Reels f job ps g) (halted : b.Halted (w.pulses ps).feed)
    (same : b.fiber = g) : (w.pulses ps).Wants g job (w.cues f.id ps) b.wait := by
  obtain ⟨-, -, pend, todo, reel⟩ := h
  obtain ⟨⟨a, after, stands, halts⟩, read⟩ := halted
  rw [same] at stands read
  generalize w.cues f.id ps = cs at reel ⊢
  generalize g.fault = fault at reel
  have caught {left : List Act} (head : pend = a :: left) (wait : b.wait = .frame)
      (takes : a.lane? = some .board) (c : Cursor) (place : g.boardCursor = some c) :
      (w.pulses ps).feed.count ≤ c.taken := by
    refine read wait .board ?_ c place
    rw [todo, head]
    exact takes
  have first {b : Act} {left : List Act} (head : pend = b :: left) : b = a := by
    rw [todo, head] at stands
    exact (List.cons.inj stands).1
  cases reel with
  | hushes | watches | notes =>
    obtain rfl := first rfl
    exact absurd halts Bool.false_ne_true
  | @covers ms left k₀ _ passage =>
    cases left with
    | nil =>
      obtain rfl := first rfl
      exact absurd halts Bool.false_ne_true
    | cons a' left =>
      obtain rfl := first rfl
      obtain ⟨wait, takes, fr, more, k', sounds⟩ := frame_of_halts passage halts
      obtain ⟨later, whole⟩ := Unveiled.carry_up sounds
      exact .inl ⟨wait, ⟨fr, _, none, whole⟩, caught rfl wait takes⟩
  | @enters up _ fills =>
    obtain rfl := first rfl
    obtain ⟨later, whole⟩ := Unveiled.carry_entered fills
    refine .inr ⟨?_, _, _, none, whole⟩
    cases wait : b.wait <;> rw [wait] at halts <;> first
      | rfl
      | exact absurd halts Bool.false_ne_true
  | @uncovers up ms left k₀ _ fills passage =>
    cases left with
    | nil =>
      obtain rfl := first rfl
      exact absurd halts Bool.false_ne_true
    | cons a' left =>
      obtain rfl := first rfl
      obtain ⟨wait, takes, fr, more, k', sounds⟩ := frame_of_halts passage halts
      exact .inl ⟨wait, ⟨fr, _, none, .carry fills sounds⟩, caught rfl wait takes⟩
  | @fails up pend _ e fills some suffix =>
    obtain ⟨a', pend, rfl⟩ := List.exists_cons_of_ne_nil some
    obtain rfl := first rfl
    have among := suffix.subset List.mem_cons_self
    simp only [SceneJob.uncovering, List.mem_cons, List.not_mem_nil, or_false] at among
    rcases among with rfl | rfl | rfl <;> exact absurd halts Bool.false_ne_true

theorem Reels.start (play : w.InPlay) (admits : w.Admits f job) : ∃ g, w.Reels f job [.turn] g := by
  obtain ⟨rest, after, ready, todo, turned⟩ := turn_admitted play.order admits
  have going := isCancelled_taken play.order ready todo (fun _ _ => rfl)
  have act := act?_going ready admits.spared going admits.fault todo
  have grown : w.turn.entries = w.entries ++
      [⟨some f.id, .scene (.blocked true)⟩, ⟨some f.id, .remark (.boardMask true)⟩] := by
    rw [turned]
    simp [maskBoard, World.entries, World.resume, World.remark, World.record, taken]
  have noticed := cuesIn_of_entries ready act (by simp) grown
  have answers : w.answer? = none := by rw [answer?, act]
  rw [answers] at noticed
  refine ⟨Fiber.first { f with todo := after } job.acts, ?_, rfl, job.acts, ?_, ?_⟩
  · show _ ∈ w.turn.hands
    rw [turned]
    exact mem_hands.mpr List.mem_cons_self
  · rw [todo]
    rfl
  · rw [cues, noticed]
    show Reel _ _ [.calls (.blocked true)] _ _ f.fault
    rw [admits.fault]
    exact .start _ _ _

/-- How far a load has come, with its fiber as it is. -/
inductive Reeled (w : World) (f : Fiber) (job : SceneJob) (ps : List Pulse) : Prop where
  | under (g : Fiber) : w.Reels f job ps g → Reeled w f job ps
  | ended (g : Fiber) {pre : List Pulse} : pre <+: ps → g ∈ (w.pulses pre).hands → g.id = f.id →
      g.todo = f.todo.tail → Unveiled job (w.cues f.id pre) g.fault → Reeled w f job ps
  | cut (g : Fiber) {pre : List Pulse} : pre ++ [Pulse.turn] <+: ps → w.Reels f job pre g →
      (w.pulses pre).ready.head? = some g → g.doomed = true ∨ (w.pulses pre).Overflows g →
      Reeled w f job ps

theorem reeled_pulses (play : w.InPlay) (admits : w.Admits f job) (after : List Pulse) :
    w.Reeled f job (.turn :: after) := by
  induction after using List.reverseRecOn with
  | nil =>
    obtain ⟨g, reels⟩ := Reels.start play admits
    exact .under g reels
  | append_singleton after p ih =>
    rw [← List.cons_append]
    generalize Pulse.turn :: after = ps at ih
    have longer : ps <+: ps ++ [p] := List.prefix_append ps [p]
    cases ih with
    | ended g early among id todo whole => exact .ended g (early.trans longer) among id todo whole
    | cut g early reels head why => exact .cut g (early.trans longer) reels head why
    | under g reels =>
      have here := play.pulses ps
      by_cases own : (w.pulses ps).OwnTurn p f.id
      · obtain ⟨rfl, h, head, same⟩ := own
        obtain ⟨rest, ready⟩ := List.head?_eq_some_iff.mp head
        obtain rfl : h = g := here.order.eq_of_hands (mem_hands_of_ready ready) reels.among
          (same.trans reels.id.symm)
        have turned : w.pulses (ps ++ [Pulse.turn]) = (w.pulses ps).turn := pulses_concat ..
        have noticed : w.cues f.id (ps ++ [Pulse.turn]) = w.cues f.id ps ++
            (w.pulses ps).cuesIn h.id .turn := by rw [cues_concat, same]
        cases doomed : h.doomed with
        | true => exact .cut h (List.prefix_refl _) reels head (.inl doomed)
        | false =>
          cases reels.rolls play ready doomed with
          | goes g' among id reel =>
            obtain ⟨pend, todo, reel⟩ := reel
            refine .under g' ⟨turned ▸ among, id.trans same, pend, todo, ?_⟩
            rw [noticed, ← play.settings ps]
            exact reel
          | lifts g' among id todo whole =>
            exact .ended g' (List.prefix_refl _) (turned ▸ among) (id.trans same) todo (noticed ▸ whole)
          | bursts overflows => exact .cut h (List.prefix_refl _) reels head (.inr overflows)
      · obtain ⟨g', reels'⟩ := reels.other here own
        exact .under g' reels'

theorem unveils_pulses (o : Opening) (before after : List Pulse)
    (admits : (o.world.pulses before).Admits f job) :
    (o.world.pulses before).Unveils f job (.turn :: after) := by
  have carried {ps : List Pulse} {g : Fiber} (reels : (o.world.pulses before).Reels f job ps g) :
      ∃ more e, Unveiled job ((o.world.pulses before).cues f.id ps ++ more) e := by
    obtain ⟨-, -, pend, -, reel⟩ := reels
    exact reel.carried_on
  cases reeled_pulses (inPlay_pulses o before) admits after with
  | under g reels =>
    refine .under g reels.among reels.id (carried reels) fun b parked same => reels.wants ?_ same
    have all := halted_pulses o (before ++ Pulse.turn :: after)
    rw [pulses_append] at all
    exact all b parked
  | ended g early among id todo whole => exact .ended g early among id todo whole
  | cut g early reels head why => exact .cut g early head reels.id (carried reels) why

/-- From the turn in which a load is let past its check, it blocks the host's input, asks for the fade
of the music if that was wanted, takes the board up in the first half of its time, switches the scene,
and, if the scene could be entered, takes the board down in the other half; at last it lets the input
through. Each half takes the shortest run of frames that fills it. A load that is not told to stop does
this and nothing else, unless its time overflows. -/
theorem scenes_change_behind_the_board (o : Opening) (before after : List Pulse)
    (admits : (o.world.pulses before).Admits f job) :
    job.span.half + job.rest = job.span ∧
      (∀ start stop span frames,
        (cuesOf ((Paint.board job.color start stop).score span frames)).filterMap Cue.call? =
          (job.boards start stop span frames).map .board) ∧
      (o.world.pulses before).Unveils f job (.turn :: after) :=
  ⟨job.half_add_rest, job.calls_board, unveils_pulses o before after admits⟩

/-- Of three nanoseconds one is spent on the way up and two on the way down, with a wait for the scene
in between. -/
theorem scenes_change_behind_the_board_gated :
    let o : Opening := ⟨default, { (default : Rig) with scenes := .board true }, 8, default, .empty, []⟩
    let job : SceneJob := ⟨"town", .black, ⟨3⟩, true⟩
    let w := o.world.pulses [.host (.load job) rfl]
    let after := List.replicate 4 Pulse.turn ++ [Pulse.publish ⟨1⟩ .nothing] ++
      List.replicate 5 Pulse.turn ++ [Pulse.host .release rfl] ++ List.replicate 4 Pulse.turn ++
      [Pulse.publish ⟨2⟩ .nothing] ++ List.replicate 6 Pulse.turn
    (∃ f, w.Admits f job ∧ w.Unveils f job (.turn :: after)) ∧
      (w.pulses (.turn :: after)).ready = [] ∧
      (w.pulses (.turn :: after)).masks = [(some 0, true), (some 0, false)] := by
  intro o job w after
  refine ⟨?_, List.isEmpty_iff.mp (by decide +kernel), by decide +kernel⟩
  have admits : w.Admits (w.ready.headD default) job := ⟨⟨rfl, rfl, rfl⟩, rfl, ⟨true, rfl⟩, rfl⟩
  exact ⟨_, admits, (scenes_change_behind_the_board o _ after admits).2.2⟩

/-- Where the time of the first half overflows, the scene is never switched and the host's input stays
blocked, though nobody told the load to stop. -/
theorem load_lost_to_overflow :
    let job : SceneJob := ⟨"town", .black, ⟨Span.limit - 1000000000⟩, false⟩
    let o : Opening := ⟨default, { (default : Rig) with scenes := .board false }, 8, default, .empty,
      [[.sceneLoad job.scene job.color job.span job.fadeMusic]]⟩
    let w := o.world.pulses [.host (.execute 0) rfl, .turn, .turn]
    let after := List.replicate 4 Pulse.turn ++
      [Pulse.publish ⟨9223372036854775807000000000⟩ .nothing] ++
      [Pulse.publish ⟨Span.limit - 1000000000⟩ .nothing] ++ List.replicate 4 Pulse.turn
    let x := w.pulses (.turn :: after)
    (∃ f, w.Admits f job) ∧ w.isCalm (.turn :: after) = true ∧ x.fibers = [] ∧
      x.masks = [(some 0, true)] := by
  intro job o w after x
  have admits : w.Admits (w.ready.headD default) job := ⟨⟨rfl, rfl, rfl⟩, rfl, ⟨false, rfl⟩, rfl⟩
  exact ⟨⟨_, admits⟩, by decide +kernel, List.isEmpty_iff.mp (by decide +kernel), by decide +kernel⟩

end World

end SceneScript
