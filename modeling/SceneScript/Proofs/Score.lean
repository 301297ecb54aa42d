import SceneScript.Proofs.FadeOut
/-!
Scores. What can be noticed of a fiber at work are the marks that its acts leave: calls, colours,
volumes and the frames it takes. `Sounds` says which marks a list of acts may leave from its first act
to its last, and `Stroke` what one turn makes of the list. Whatever turns have left so far can be
carried on to the end (`Passage.carried_on`), and is the whole once nothing is left to do
(`Passage.whole`).
-/

namespace SceneScript

inductive Mark where
  | call (c : StageCall)
  | scene (c : SceneCall)
  | level (channel : Channel) (volume : Float32)
  | sound (e : SoundEvent)
  | frame (f : Frame)

def Mark.frame? : Mark → Option Frame
  | .frame f => some f
  | _ => none

/-- The frames among the marks. -/
def framesOf (ms : List Mark) : List Frame := ms.filterMap Mark.frame?

theorem framesOf_append (ms ms' : List Mark) : framesOf (ms ++ ms') = framesOf ms ++ framesOf ms' :=
  List.filterMap_append

theorem framesOf_frames (frames : List Frame) : framesOf (frames.map .frame) = frames := by
  rw [framesOf, List.filterMap_map]
  exact List.filterMap_some

/-- Everything pressed in these frames, and before. -/
def Keys.through (k : Keys) (frames : List Frame) : Keys :=
  frames.foldl (fun k f => k.merge f.keys) k

theorem add_totalDelta_cons (elapsed : Span) (fr : Frame) (frames : List Frame) :
    elapsed + fr.delta + totalDelta frames = elapsed + totalDelta (fr :: frames) := by
  refine congrArg Span.mk ?_
  show elapsed.nanos + fr.delta.nanos + (totalDelta frames).nanos =
    elapsed.nanos + (totalDelta (fr :: frames)).nanos
  simp [totalDelta, Nat.add_assoc]

namespace Paint

/-- What a sample at this share of the way leaves. -/
def marks (share : Float32) : Paint → List Mark
  | .nothing => []
  | .tint target start stop => [.call (.setColor target (start.lerp stop share))]
  | .board color start stop => [.scene (.board (color.withAlpha (Color.blend start stop share)))]
  | .volume channel => [.level channel (Strip.fullVolume * (1 - share))]

/-- What the end of the way leaves. -/
def lastMarks : Paint → List Mark
  | .nothing | .volume _ => []
  | .tint target _ stop => [.call (.setColor target stop)]
  | .board color _ stop => [.scene (.board (color.withAlpha stop))]

/-- A sample before every frame, at the time that has passed by then. -/
def strokes (p : Paint) (span : Span) : (elapsed : Span) → List Frame → List Mark
  | _, [] => []
  | elapsed, fr :: frames =>
    p.marks (elapsed.share span) ++ .frame fr :: p.strokes span (elapsed + fr.delta) frames

theorem framesOf_marks (share : Float32) (p : Paint) : framesOf (p.marks share) = [] := by
  cases p <;> rfl

theorem framesOf_lastMarks (p : Paint) : framesOf p.lastMarks = [] := by
  cases p <;> rfl

theorem framesOf_strokes (p : Paint) (span elapsed : Span) (frames : List Frame) :
    framesOf (p.strokes span elapsed frames) = frames := by
  induction frames generalizing elapsed with
  | nil => rfl
  | cons fr frames ih =>
    rw [strokes, framesOf_append, framesOf_marks, List.nil_append]
    exact congrArg (fr :: ·) (ih _)

theorem strokes_append (p : Paint) (span elapsed : Span) (frames frames' : List Frame) :
    p.strokes span elapsed (frames ++ frames') =
      p.strokes span elapsed frames ++ p.strokes span (elapsed + totalDelta frames) frames' := by
  induction frames generalizing elapsed with
  | nil => rfl
  | cons fr frames ih =>
    rw [List.cons_append, strokes, strokes, ih, add_totalDelta_cons, List.append_assoc,
      List.cons_append]

theorem strokes_nothing (span elapsed : Span) (frames : List Frame) :
    Paint.nothing.strokes span elapsed frames = frames.map .frame := by
  induction frames generalizing elapsed with
  | nil => rfl
  | cons fr frames ih => exact congrArg (Mark.frame fr :: ·) (ih _)

end Paint

/-! ### Whole acts -/

def Sweep.after (s : Sweep) (fr : Frame) : Sweep :=
  { s with elapsed := s.elapsed + fr.delta, pressed := s.pressed.merge fr.keys }

/-- What a sweep leaves, and the keys pressed by its end. -/
inductive Sweep.Sounds : Sweep → List Mark → Keys → Prop where
  | lands {s : Sweep} : ¬ s.elapsed < s.span → s.Sounds s.paint.lastMarks s.pressed
  | goes {s : Sweep} {fr : Frame} {ms : List Mark} {k : Keys} : s.elapsed < s.span →
      (s.after fr).Sounds ms k → s.Sounds (s.paint.marks s.share ++ .frame fr :: ms) k

inductive Reveal.Sounds (settings : Settings) : Reveal → Keys → List Mark → Keys → Prop where
  | stops {r : Reveal} {k : Keys} : r.last ≤ r.shown ∨ r.isCutShort k = true →
      Sounds settings r k [] k
  | shows {r : Reveal} {k k' pressed : Keys} {wait ms : List Mark} : r.shown < r.last →
      r.isCutShort k = false → (Sweep.pause (r.delay settings)).Sounds wait pressed →
      Sounds settings { r with shown := r.shown + 1 } (k.merge pressed) ms k' →
      Sounds settings r k (.call (r.call (r.shown + 1)) :: (wait ++ ms)) k'

/-- The frames up to the first confirmation. -/
inductive Confirms : List Mark → Prop where
  | now {fr : Frame} : fr.keys.confirm = true → Confirms [.frame fr]
  | later {fr : Frame} {ms : List Mark} : fr.keys.confirm = false → Confirms ms →
      Confirms (.frame fr :: ms)

/-- What an act leaves from its start to its end, and the keys heard by then. -/
inductive Act.Sounds (settings : Settings) : Act → Keys → List Mark → Keys → Prop where
  | stage (call : StageCall) (k : Keys) : Sounds settings (.stage call) k [.call call] k
  | listen (k : Keys) : Sounds settings .listen k [] .nothing
  | sweep {s : Sweep} {k pressed : Keys} {ms : List Mark} : s.Sounds ms pressed →
      Sounds settings (.sweep s) k ms (k.merge pressed)
  | stride {s : Sweep} {fr : Frame} {k pressed : Keys} {ms : List Mark} :
      (s.after fr).Sounds ms pressed →
      Sounds settings (.stride s) k (.frame fr :: ms) (k.merge pressed)
  | reveal {r : Reveal} {k k' : Keys} {ms : List Mark} : r.Sounds settings k ms k' →
      Sounds settings (.reveal r) k ms k'
  | confirm {k : Keys} {ms : List Mark} : Confirms ms → Sounds settings .confirm k ms k
  | silence (c : Channel) (k : Keys) : Sounds settings (.silence c) k [.sound (.fadedOut c)] k

inductive Sounds (settings : Settings) : List Act → Keys → List Mark → Keys → Prop where
  | nil (k : Keys) : Sounds settings [] k [] k
  | cons {a : Act} {rest : List Act} {k k' k'' : Keys} {ms ms' : List Mark} :
      a.Sounds settings k ms k' → Sounds settings rest k' ms' k'' →
      Sounds settings (a :: rest) k (ms ++ ms') k''

/-! ### One turn -/

/-- Acts that a fiber does by itself: they need nothing but frames. -/
def Act.isSolo : Act → Bool
  | .stage _ | .listen | .sweep _ | .stride _ | .reveal _ | .confirm | .silence _ => true
  | _ => false

/-- What a turn that goes on makes of the acts to do and of the keys heard, and what it leaves. -/
inductive Stroke (settings : Settings) : List Act → Keys → List Mark → List Act → Keys → Prop where
  | shows (call : StageCall) (rest : List Act) (k : Keys) :
      Stroke settings (.stage call :: rest) k [.call call] rest k
  | listens (rest : List Act) (k : Keys) : Stroke settings (.listen :: rest) k [] rest .nothing
  | samples {s : Sweep} (rest : List Act) (k : Keys) : s.elapsed < s.span →
      Stroke settings (.sweep s :: rest) k (s.paint.marks s.share) (.stride s :: rest) k
  | lands {s : Sweep} (rest : List Act) (k : Keys) : ¬ s.elapsed < s.span →
      Stroke settings (.sweep s :: rest) k s.paint.lastMarks rest (k.merge s.pressed)
  | takes (s : Sweep) (fr : Frame) (rest : List Act) (k : Keys) :
      Stroke settings (.stride s :: rest) k [.frame fr] (.sweep (s.after fr) :: rest) k
  | stops {r : Reveal} {k : Keys} (rest : List Act) : r.last ≤ r.shown ∨ r.isCutShort k = true →
      Stroke settings (.reveal r :: rest) k [] rest k
  | reveals {r : Reveal} {k : Keys} (rest : List Act) : r.shown < r.last → r.isCutShort k = false →
      Stroke settings (.reveal r :: rest) k []
        (.stage (r.call (r.shown + 1)) :: .sweep (.pause (r.delay settings)) ::
          .reveal { r with shown := r.shown + 1 } :: rest) k
  | hears (fr : Frame) (rest : List Act) (k : Keys) :
      Stroke settings (.confirm :: rest) k [.frame fr]
        (if fr.keys.confirm then rest else .confirm :: rest) k
  | silences (c : Channel) (rest : List Act) (k : Keys) :
      Stroke settings (.silence c :: rest) k [.sound (.fadedOut c)] rest k

/-- What turns have made of the acts so far, and the marks they left. -/
inductive Passage (settings : Settings) (acts : List Act) (k : Keys) :
    List Mark → List Act → Keys → Prop where
  | begins : Passage settings acts k [] acts k
  | goes {ms ms' : List Mark} {acts' acts'' : List Act} {k' k'' : Keys} :
      Passage settings acts k ms acts' k' → Stroke settings acts' k' ms' acts'' k'' →
      Passage settings acts k (ms ++ ms') acts'' k''

section

variable {settings : Settings} {acts acts' rest : List Act} {a : Act} {k k' k'' : Keys}
  {ms ms' : List Mark} {s : Sweep} {r : Reveal} {fr : Frame}

theorem Sounds.of_nil (h : Sounds settings [] k ms k') : ms = [] ∧ k' = k := by
  cases h
  exact ⟨rfl, rfl⟩

theorem Stroke.ne_nil (h : Stroke settings acts k ms acts' k') : acts ≠ [] := by
  cases h <;> exact List.cons_ne_nil _ _

/-- A turn only touches what stands before `rest`. -/
theorem Stroke.local (acts : List Act) (h : Stroke settings (acts ++ rest) k ms acts' k') (due : acts ≠ []) :
    ∃ left, acts' = left ++ rest ∧ Stroke settings acts k ms left k' := by
  obtain ⟨a, acts, rfl⟩ := List.exists_cons_of_ne_nil due
  generalize all : a :: acts ++ rest = todo at h
  cases h with
  | shows call _ k =>
    obtain ⟨rfl, rfl⟩ := List.cons.inj all
    exact ⟨acts, rfl, .shows call acts k⟩
  | listens _ k =>
    obtain ⟨rfl, rfl⟩ := List.cons.inj all
    exact ⟨acts, rfl, .listens acts k⟩
  | samples _ k going =>
    obtain ⟨rfl, rfl⟩ := List.cons.inj all
    exact ⟨_, rfl, .samples acts k going⟩
  | lands _ k spent =>
    obtain ⟨rfl, rfl⟩ := List.cons.inj all
    exact ⟨acts, rfl, .lands acts k spent⟩
  | takes s fr _ k =>
    obtain ⟨rfl, rfl⟩ := List.cons.inj all
    exact ⟨_, rfl, .takes s fr acts k⟩
  | stops _ ended =>
    obtain ⟨rfl, rfl⟩ := List.cons.inj all
    exact ⟨acts, rfl, .stops acts ended⟩
  | reveals _ more going =>
    obtain ⟨rfl, rfl⟩ := List.cons.inj all
    exact ⟨_, rfl, .reveals acts more going⟩
  | hears fr _ k =>
    obtain ⟨rfl, rfl⟩ := List.cons.inj all
    refine ⟨_, ?_, .hears fr acts k⟩
    split <;> rfl
  | silences c _ k =>
    obtain ⟨rfl, rfl⟩ := List.cons.inj all
    exact ⟨acts, rfl, .silences c acts k⟩

/-- The acts left by a turn are done by themselves like those before it. -/
theorem Stroke.isSolo (h : Stroke settings acts k ms acts' k') (solo : ∀ a ∈ acts, a.isSolo = true) :
    ∀ a ∈ acts', a.isSolo = true := by
  have later : ∀ a ∈ acts.tail, a.isSolo = true := fun a among => solo a (List.mem_of_mem_tail among)
  cases h with
  | shows | listens | lands | stops | silences => exact later
  | samples | takes => exact List.forall_mem_cons.mpr ⟨rfl, later⟩
  | reveals =>
    exact List.forall_mem_cons.mpr ⟨rfl, List.forall_mem_cons.mpr ⟨rfl, List.forall_mem_cons.mpr
      ⟨rfl, later⟩⟩⟩
  | hears =>
    split
    · exact later
    · exact solo

/-- Before what the acts left by a turn leave stands what the turn left. -/
theorem Stroke.sounds (h : Stroke settings acts k ms acts' k') (rest : Sounds settings acts' k' ms' k'') :
    Sounds settings acts k (ms ++ ms') k'' := by
  cases h with
  | shows call _ k => exact .cons (.stage call k) rest
  | listens _ k => exact .cons (.listen k) rest
  | samples _ k going =>
    cases rest with
    | cons own after =>
      cases own with
      | stride sounds =>
        rw [← List.append_assoc]
        exact .cons (.sweep (.goes going sounds)) after
  | lands _ k spent => exact .cons (.sweep (.lands spent)) rest
  | takes s fr _ k =>
    cases rest with
    | cons own after =>
      cases own with
      | sweep sounds =>
        have all := Sounds.cons (.stride (k := k) sounds) after
        exact all
  | stops _ ended => exact .cons (.reveal (.stops ended)) rest
  | reveals _ more going =>
    cases rest with
    | cons shown after =>
      cases shown
      cases after with
      | cons wait after =>
        cases wait with
        | sweep waits =>
          cases after with
          | cons next after =>
            cases next with
            | reveal reveals =>
              rw [List.nil_append, ← List.append_assoc, ← List.append_assoc]
              exact .cons (.reveal (.shows more going waits reveals)) after
  | hears fr _ k =>
    cases confirmed : fr.keys.confirm with
    | true =>
      rw [if_pos confirmed] at rest
      exact .cons (.confirm (.now confirmed)) rest
    | false =>
      rw [if_neg (by simp [confirmed])] at rest
      cases rest with
      | cons own after =>
        cases own with
        | confirm confirms =>
          have all := Sounds.cons (.confirm (k := k) (.later confirmed confirms)) after
          exact all
  | silences c _ k => exact .cons (.silence c k) rest

/-! ### Carrying on -/

theorem Sweep.exists_sounds (s : Sweep) : ∃ ms pressed, s.Sounds ms pressed := by
  by_cases going : s.elapsed < s.span
  · -- One frame as long as the whole span is enough.
    let fr : Frame := ⟨0, s.span, .nothing⟩
    have spent : ¬ (s.after fr).elapsed < (s.after fr).span := by
      show ¬ s.elapsed.nanos + s.span.nanos < s.span.nanos
      omega
    exact ⟨_, _, .goes going (.lands spent)⟩
  · exact ⟨_, _, .lands going⟩

theorem Reveal.exists_sounds (settings : Settings) (r : Reveal) (k : Keys) :
    ∃ ms k', r.Sounds settings k ms k' := by
  obtain ⟨n, left⟩ : ∃ n, r.last - r.shown = n := ⟨_, rfl⟩
  induction n generalizing r k with
  | zero => exact ⟨_, _, .stops (.inl (by omega))⟩
  | succ n ih =>
    cases cut : r.isCutShort k with
    | true => exact ⟨_, _, .stops (.inr cut)⟩
    | false =>
      obtain ⟨wait, pressed, waits⟩ := (Sweep.pause (r.delay settings)).exists_sounds
      obtain ⟨ms, k', next⟩ := ih { r with shown := r.shown + 1 } (k.merge pressed)
        (by show r.last - (r.shown + 1) = n; omega)
      exact ⟨_, k', .shows (by omega) cut waits next⟩

theorem Act.exists_sounds (settings : Settings) (solo : a.isSolo = true) (k : Keys) :
    ∃ ms k', a.Sounds settings k ms k' := by
  cases a with
  | stage call => exact ⟨_, _, .stage call k⟩
  | listen => exact ⟨_, _, .listen k⟩
  | sweep s =>
    obtain ⟨ms, pressed, sounds⟩ := s.exists_sounds
    exact ⟨_, _, .sweep sounds⟩
  | stride s =>
    obtain ⟨ms, pressed, sounds⟩ := (s.after default).exists_sounds
    exact ⟨_, _, .stride sounds⟩
  | reveal r =>
    obtain ⟨ms, k', sounds⟩ := r.exists_sounds settings k
    exact ⟨_, _, .reveal sounds⟩
  | confirm =>
    let fr : Frame := ⟨0, .zero, ⟨true, false⟩⟩
    have confirmed : fr.keys.confirm = true := rfl
    exact ⟨_, _, .confirm (.now confirmed)⟩
  | silence c => exact ⟨_, _, .silence c k⟩
  | _ => cases solo

theorem exists_sounds (settings : Settings) (solo : ∀ a ∈ acts, a.isSolo = true) (k : Keys) :
    ∃ ms k', Sounds settings acts k ms k' := by
  induction acts generalizing k with
  | nil => exact ⟨_, _, .nil k⟩
  | cons a acts ih =>
    obtain ⟨ms, k', own⟩ := Act.exists_sounds settings (solo a List.mem_cons_self) k
    obtain ⟨ms', k'', later⟩ := ih (fun b among => solo b (List.mem_cons_of_mem _ among)) k'
    exact ⟨_, _, .cons own later⟩

/-- Before an act that takes a frame, the next mark is one. -/
theorem Sounds.frame_of_suspends (h : Sounds settings (a :: rest) k ms k') (solo : a.isSolo = true)
    (suspends : a.suspends = true) : ∃ fr ms', ms = .frame fr :: ms' := by
  cases h with
  | cons own after =>
    cases own with
    | stride => exact ⟨_, _, rfl⟩
    | confirm confirms => cases confirms <;> exact ⟨_, _, rfl⟩
    | _ => cases suspends

namespace Passage

theorem isSolo (h : Passage settings acts k ms acts' k') (solo : ∀ a ∈ acts, a.isSolo = true) :
    ∀ a ∈ acts', a.isSolo = true := by
  induction h with
  | begins => exact solo
  | goes _ stroke ih => exact stroke.isSolo ih

theorem sounds (h : Passage settings acts k ms acts' k') (rest : Sounds settings acts' k' ms' k'') :
    Sounds settings acts k (ms ++ ms') k'' := by
  induction h generalizing ms' with
  | begins => exact rest
  | goes _ stroke ih =>
    rw [List.append_assoc]
    exact ih (stroke.sounds rest)

/-- What was left so far is the beginning of a whole. -/
theorem carried_on (h : Passage settings acts k ms acts' k') (solo : ∀ a ∈ acts, a.isSolo = true) :
    ∃ more k'', Sounds settings acts k (ms ++ more) k'' := by
  obtain ⟨more, k'', rest⟩ := exists_sounds settings (h.isSolo solo) k'
  exact ⟨more, k'', h.sounds rest⟩

theorem whole (h : Passage settings acts k ms [] k') : Sounds settings acts k ms k' := by
  have all := h.sounds (.nil k')
  rwa [List.append_nil] at all

end Passage

end

end SceneScript
