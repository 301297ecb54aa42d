import SceneScript.Proofs.Fades
import SceneScript.Proofs.Readers
/-!
The mixer, channel by channel: what is asked of it (`World.asks?`), what a pulse makes of a channel
(`bus_pulse`), and what holds of every channel at every pulse. A fade whose time overflows is gone
without a trace, and leaves its channel as loud as it was at that moment.
-/

namespace SceneScript

/-- What can be asked of the mixer. -/
inductive Request where
  | play (channel : Channel) (clip : Clip) (pitch : Float32)
  | stop (channel : Channel)
  | fadeOut (channel : Channel) (span : Span)

namespace Request

def channel : Request → Channel
  | .play channel .. | .stop channel | .fadeOut channel _ => channel

def clipOn? (c : Channel) : Request → Option Clip
  | .play channel clip _ => if channel = c then some clip else none
  | _ => none

/-- Without a mixer in the rig, clips and fades are noted elsewhere. -/
def reaches (rig : Rig) : Request → Bool
  | .stop _ => true
  | .play .. | .fadeOut .. => rig.mixed

def reach? (rig : Rig) (q : Request) : Option Request := if q.reaches rig then some q else none

end Request

def Act.request? : Act → Option Request
  | .play channel clip pitch => some (.play channel clip pitch)
  | .hush channel span => some (.fadeOut channel span)
  | .hushMusic span => some (.fadeOut .bgm span)
  | _ => none

def HostStep.request? : HostStep → Option Request
  | .play channel clip pitch => some (.play channel clip pitch)
  | .stopChannel channel => some (.stop channel)
  | .fadeOut channel span => some (.fadeOut channel span)
  | _ => none

namespace World

/-- What a pulse asks of the mixer: the host by itself, a fiber by its act. -/
def asks? (w : World) (p : Pulse) : Option Request :=
  let asked := match p with
    | .turn => w.act?.bind Act.request?
    | .host s _ => s.request?
    | _ => none
  asked.bind (·.reach? w.rig)

/-- Everything that was asked of the mixer, in order. -/
def asked (w : World) : List Pulse → List Request
  | [] => []
  | p :: ps => (w.asks? p).toList ++ (w.pulse p).asked ps

theorem asked_concat (w : World) (ps : List Pulse) (p : Pulse) :
    w.asked (ps ++ [p]) = w.asked ps ++ ((w.pulses ps).asks? p).toList := by
  induction ps generalizing w with
  | nil => exact List.append_nil _
  | cons q ps ih =>
    show (w.asks? q).toList ++ (w.pulse q).asked (ps ++ [p]) = _
    rw [ih, ← List.append_assoc]
    rfl

/-- It is the turn of the fiber that fades the channel. -/
def Sweeps (w : World) (c : Channel) : Prop :=
  ∃ f, w.ready.head? = some f ∧ f.role = .fade c

/-- In its turn the fade of a channel finds that its time overflows. -/
def Bursts (w : World) (c : Channel) : Prop :=
  ∃ f s fr cursor missed, w.Comes f (.stride s) ∧ f.role = .fade c ∧
    w.feed.pull (f.place w.feed .own) = .frame fr cursor missed ∧ s.take? fr = none

end World

def clipsOn (c : Channel) (asked : List Request) : List Clip := asked.filterMap (·.clipOn? c)

theorem clipsOn_append (c : Channel) (asked more : List Request) :
    clipsOn c (asked ++ more) = clipsOn c asked ++ clipsOn c more :=
  List.filterMap_append

/-- A channel: its strip, and the fiber that fades it. -/
structure Bus where
  strip : Strip
  fade : Option Nat

def Backstage.bus (b : Backstage) (c : Channel) : Bus :=
  ⟨b.mixer.strips.get c, b.mixer.fades.get c⟩

namespace Bus

/-- What becomes of a channel when `q` is asked. Without being asked for anything it changes only in
the turn of its fade; a new one is the fiber `n`. -/
inductive Step (c : Channel) (q : Option Request) (n : Nat) (sweeps bursts : Prop) (b : Bus) :
    Bus → Prop where
  | rests : (∀ r, q = some r → r.channel = c → c.isLooping = false ∧ ∃ span, r = .fadeOut c span) →
      Step c q n sweeps bursts b b
  | plays (clip : Clip) (pitch : Float32) : q = some (.play c clip pitch) →
      Step c q n sweeps bursts b
        ⟨b.strip.play clip pitch, if c.isLooping then none else b.fade⟩
  | stops : (q = some (.stop c) ∨ ∃ span, q = some (.fadeOut c span)) →
      Step c q n sweeps bursts b ⟨b.strip.stop, none⟩
  | starts (span : Span) : c.isLooping = true → q = some (.fadeOut c span) →
      Step c q n sweeps bursts b { b with fade := some n }
  | dims {id : Nat} (share : Float32) : q = none → sweeps → b.fade = some id →
      Step c q n sweeps bursts b { b with strip := b.strip.dim share }
  | silences {id : Nat} : q = none → sweeps → b.fade = some id →
      Step c q n sweeps bursts b { b with strip := b.strip.stop }
  | ends {id : Nat} : q = none → sweeps → b.fade = some id →
      b.strip.volume = Strip.fullVolume → Step c q n sweeps bursts b { b with fade := none }
  | bursts {id : Nat} : q = none → sweeps → b.fade = some id → bursts →
      Step c q n sweeps bursts b { b with fade := none }

/-- What holds of every channel when these clips were played on it. -/
structure Tuned (c : Channel) (clips : List Clip) (b : Bus) : Prop where
  channel : b.strip.channel = c
  looping : c.isLooping = true → b.strip.oneShots = #[] ∧
    (b.strip.playing = true → ∃ clip, b.strip.clip = some clip ∧ clips.getLast? = some clip)
  layered : c.isLooping = false → b.fade = none ∧ b.strip.clip = none ∧ b.strip.playing = false ∧
    b.strip.volume = Strip.fullVolume ∧ b.strip.oneShots.toList = clips

variable {c : Channel} {q : Option Request} {n : Nat} {sweeps bursts : Prop} {b b' : Bus}
  {asked : List Request}

theorem clipsOn_other (h : ∀ r, q = some r → r.clipOn? c = none) :
    clipsOn c (asked ++ q.toList) = clipsOn c asked := by
  rw [clipsOn_append]
  cases q with
  | none => exact List.append_nil _
  | some r =>
    have silent : clipsOn c [r] = [] := by simp [clipsOn, h r rfl]
    rw [Option.toList_some, silent, List.append_nil]

/-- Requests that play nothing on the channel leave the list of its clips. -/
theorem Step.clips (step : Step c q n sweeps bursts b b') (quiet : ∀ clip pitch,
    q ≠ some (.play c clip pitch)) : clipsOn c (asked ++ q.toList) = clipsOn c asked := by
  refine clipsOn_other fun r same => ?_
  cases r with
  | stop | fadeOut => rfl
  | play d clip pitch =>
    refine if_neg fun here => ?_
    subst here
    exact quiet clip pitch same

theorem Tuned.step (h : b.Tuned c (clipsOn c asked)) (step : Step c q n sweeps bursts b b') :
    b'.Tuned c (clipsOn c (asked ++ q.toList)) := by
  obtain ⟨channel, looping, layered⟩ := h
  -- A channel that layers its clips has no fade.
  have unfaded {id : Nat} (fade : b.fade = some id) (layers : c.isLooping = false) : False := by
    rw [(layered layers).1] at fade
    cases fade
  have clips : (∀ clip pitch, q ≠ some (.play c clip pitch)) →
      clipsOn c (asked ++ q.toList) = clipsOn c asked := step.clips
  cases step with
  | rests idle =>
    rw [clips fun clip pitch same => ?_]
    · exact ⟨channel, looping, layered⟩
    · obtain ⟨-, span, other⟩ := idle _ same rfl
      cases other
  | plays clip pitch same =>
    have added : clipsOn c (asked ++ q.toList) = clipsOn c asked ++ [clip] := by
      rw [clipsOn_append, same]
      simp [clipsOn, Request.clipOn?]
    rw [added]
    cases loops : c.isLooping with
    | true =>
      have strip : b.strip.play clip pitch = { b.strip with
          pitch := pitch, clip := some clip, volume := Strip.fullVolume, playing := true } := by
        rw [Strip.play, if_pos (channel ▸ loops)]
      refine ⟨?_, fun _ => ?_, fun layers => ?_⟩
      · rw [strip]
        exact channel
      · rw [strip]
        exact ⟨(looping loops).1, fun _ => ⟨clip, rfl, List.getLast?_concat⟩⟩
      · rw [loops] at layers
        cases layers
    | false =>
      have strip : b.strip.play clip pitch =
          { b.strip with pitch := pitch, oneShots := b.strip.oneShots.push clip } := by
        rw [Strip.play, if_neg (by simp [channel, loops])]
      obtain ⟨fade, silent, still, full, shots⟩ := layered loops
      refine ⟨?_, fun again => ?_, fun _ => ?_⟩
      · rw [strip]
        exact channel
      · rw [loops] at again
        cases again
      · rw [strip]
        exact ⟨fade, silent, still, full, by simp [shots]⟩
  | stops same =>
    rw [clips fun clip pitch plays => by rcases same with same | ⟨span, same⟩ <;> simp_all]
    refine ⟨channel, fun loops => ⟨(looping loops).1, fun on => by cases on⟩, fun layers => ?_⟩
    obtain ⟨-, silent, -, -, shots⟩ := layered layers
    exact ⟨rfl, silent, rfl, rfl, shots⟩
  | starts span loops same =>
    rw [clips fun clip pitch plays => by simp [same] at plays]
    refine ⟨channel, looping, fun layers => ?_⟩
    rw [loops] at layers
    cases layers
  | dims share same _ fade =>
    rw [clips fun clip pitch plays => by simp [same] at plays]
    exact ⟨channel, looping, fun layers => (unfaded fade layers).elim⟩
  | silences same _ fade =>
    rw [clips fun clip pitch plays => by simp [same] at plays]
    exact ⟨channel, fun loops => ⟨(looping loops).1, fun on => by cases on⟩,
      fun layers => (unfaded fade layers).elim⟩
  | ends same _ fade | bursts same _ fade =>
    rw [clips fun clip pitch plays => by simp [same] at plays]
    exact ⟨channel, looping, fun layers => (unfaded fade layers).elim⟩

/-- The volume is full unless the channel fades, or its fade fell, or nothing happened to it. -/
theorem Step.full (step : Step c q n sweeps bursts b b') (channel : b.strip.channel = c)
    (loops : c.isLooping = true) (quiet : b'.fade = none) :
    b'.strip.volume = Strip.fullVolume ∨ bursts ∧ q = none ∧ b'.strip = b.strip ∨
      b' = b ∧ ∀ r, q = some r → r.channel ≠ c := by
  cases step with
  | rests idle =>
    refine .inr (.inr ⟨rfl, fun r same here => ?_⟩)
    rw [(idle r same here).1] at loops
    cases loops
  | plays clip pitch =>
    left
    rw [Strip.play, if_pos (channel ▸ loops)]
  | stops | silences => exact .inl rfl
  | starts => cases quiet
  | dims share _ _ fade =>
    rw [show b.fade = none from quiet] at fade
    cases fade
  | ends _ _ _ full => exact .inl full
  | bursts same _ _ fell => exact .inr (.inl ⟨fell, same, rfl⟩)

/-- A channel that is not asked for anything and has no fade at its turn is left alone. -/
theorem Step.apart (step : Step c q n sweeps bursts b b') (other : ∀ r, q = some r → r.channel ≠ c)
    (still : sweeps → b.fade = none) : b' = b := by
  cases step with
  | rests => rfl
  | plays clip pitch same => exact absurd rfl (other _ same)
  | stops same =>
    rcases same with same | ⟨span, same⟩
    · exact absurd rfl (other _ same)
    · exact absurd rfl (other _ same)
  | starts span _ same => exact absurd rfl (other _ same)
  | dims _ _ turn fade | silences _ turn fade | ends _ turn fade | bursts _ turn fade =>
    rw [still turn] at fade
    cases fade

/-- The slot of a channel is only ever given to the new fiber `n`. -/
theorem Step.lost (step : Step c q n sweeps bursts b b') {id : Nat} (old : id ≠ n)
    (lost : b.fade ≠ some id) : b'.fade ≠ some id := by
  cases step with
  | rests | dims | silences => exact lost
  | plays clip pitch =>
    show (if c.isLooping then none else b.fade) ≠ some id
    split
    · exact nofun
    · exact lost
  | stops | ends | bursts => exact nofun
  | starts => exact fun same => old (Option.some.inj same).symm

/-- Whatever is asked of a looping channel cuts its fade off. -/
theorem Step.cut (step : Step c q n sweeps bursts b b') {id : Nat} (old : id ≠ n)
    (loops : c.isLooping = true) (asks : ∃ r, q = some r ∧ r.channel = c) : b'.fade ≠ some id := by
  obtain ⟨r, asks, here⟩ := asks
  cases step with
  | rests idle =>
    have layers := (idle r asks here).1
    rw [loops] at layers
    cases layers
  | plays clip pitch =>
    show (if c.isLooping then none else b.fade) ≠ some id
    rw [if_pos loops]
    exact nofun
  | stops => exact nofun
  | starts => exact fun same => old (Option.some.inj same).symm
  | dims _ quiet | silences quiet | ends quiet | bursts quiet =>
    rw [quiet] at asks
    cases asks

/-- The channel plays at full volume, and does not fade. -/
structure Plays (b : Bus) (clip : Option Clip) : Prop where
  fade : b.fade = none
  playing : b.strip.playing = true
  volume : b.strip.volume = Strip.fullVolume
  clip : b.strip.clip = clip

theorem Step.played {clip : Clip} {pitch : Float32}
    (step : Step c (some (.play c clip pitch)) n sweeps bursts b b') (channel : b.strip.channel = c)
    (loops : c.isLooping = true) : b'.Plays (some clip) := by
  cases step with
  | rests idle =>
    obtain ⟨layers, -⟩ := idle _ rfl rfl
    rw [loops] at layers
    cases layers
  | plays clip' pitch' same =>
    cases same
    rw [Strip.play, if_pos (channel ▸ loops), if_pos loops]
    exact ⟨rfl, rfl, rfl, rfl⟩
  | stops same => simp at same
  | starts _ _ same => cases same
  | dims _ same | silences same | ends same | bursts same => cases same

/-- A channel that plays goes on with the clips it is asked for, until it is to stop or to fade. -/
theorem Step.plays_on {clip : Clip} (step : Step c q n sweeps bursts b b')
    (channel : b.strip.channel = c) (loops : c.isLooping = true)
    (asks : ∀ r, q = some r → r.channel = c → ∃ clip pitch, r = .play c clip pitch)
    (plays : b.Plays ((clip :: clipsOn c asked).getLast?)) :
    b'.Plays ((clip :: clipsOn c (asked ++ q.toList)).getLast?) := by
  by_cases asked' : ∃ r, q = some r ∧ r.channel = c
  · obtain ⟨r, rfl, here⟩ := asked'
    obtain ⟨clip', pitch, rfl⟩ := asks r rfl here
    have last : clipsOn c (asked ++ [.play c clip' pitch]) = clipsOn c asked ++ [clip'] := by
      rw [clipsOn_append]
      simp [clipsOn, Request.clipOn?]
    rw [Option.toList_some, last, ← List.cons_append, List.getLast?_concat]
    exact step.played channel loops
  · have other : ∀ r, q = some r → r.channel ≠ c := fun r some here => asked' ⟨r, some, here⟩
    rw [step.clips fun clip pitch same => other _ same rfl, step.apart other fun _ => plays.fade]
    exact plays

end Bus

namespace Backstage

variable (b : Backstage) (c d : Channel)

theorem bus_modifyStrip (t : Strip → Strip) : (b.modifyStrip d t).bus c =
    if c = d then { b.bus c with strip := t (b.bus c).strip } else b.bus c := by
  split
  · rename_i same
    subst same
    have strip : (b.mixer.strips.modify c t).get c = t (b.mixer.strips.get c) :=
      Bank.get_set_self _ _ _
    exact congrArg (Bus.mk · _) strip
  · rename_i other
    have strip : (b.mixer.strips.modify d t).get c = b.mixer.strips.get c :=
      Bank.get_set_ne _ _ other
    exact congrArg (Bus.mk · _) strip

theorem bus_setFade (task : Option Nat) : (b.setFade d task).bus c =
    if c = d then { b.bus c with fade := task } else b.bus c := by
  rw [bus, show (b.setFade d task).mixer.fades.get c = _ from get_setFade b.mixer d c task]
  split <;> rfl

theorem bus_cancel : (b.cancel d).bus c =
    if c = d then { b.bus c with fade := none } else b.bus c := by
  rw [bus, strips_cancel, fades_cancel]
  split <;> rfl

end Backstage

namespace World

variable {w : World} {f : Fiber} {c d : Channel} {n : Nat} {sweeps bursts : Prop}

/-! ### What is asked -/

theorem bus_step_of_none {b b' : Bus} (same : b' = b) : Bus.Step c none n sweeps bursts b b' := by
  subst same
  exact .rests fun r asked => nomatch asked

theorem bus_step_other {q : Request} {b b' : Bus} (other : c ≠ q.channel) (same : b' = b) :
    Bus.Step c (some q) n sweeps bursts b b' := by
  subst same
  refine .rests fun r asked here => absurd here.symm ?_
  rwa [← Option.some.inj asked]

theorem reach?_eq {rig : Rig} {q : Request} (reaches : q.reaches rig = true) :
    q.reach? rig = some q := if_pos reaches

theorem reach?_eq_none {rig : Rig} {q : Request} (unheard : q.reaches rig = false) :
    q.reach? rig = none := if_neg (by simp [unheard])

theorem bus_step_play (w : World) (d : Channel) (clip : Clip) (pitch : Float32) (c : Channel) :
    Bus.Step c ((Request.play d clip pitch).reach? w.rig) n sweeps bursts (w.backstage.bus c)
      ((w.play d clip pitch).backstage.bus c) := by
  rw [backstage_play]
  cases mixed : w.rig.mixed with
  | false =>
    rw [reach?_eq_none (q := .play d clip pitch) mixed]
    exact bus_step_of_none rfl
  | true =>
    have played : (((if d.isLooping then w.backstage.cancel d else w.backstage).modifyStrip d
        fun s => s.play clip pitch).write ⟨w.actor, .sound (.played d clip)⟩).bus c =
        if c = d then ⟨(w.backstage.bus c).strip.play clip pitch,
          if c.isLooping then none else (w.backstage.bus c).fade⟩ else w.backstage.bus c := by
      show (Backstage.modifyStrip _ d _).bus c = _
      rw [Backstage.bus_modifyStrip]
      by_cases same : c = d
      · subst same
        rw [if_pos rfl, if_pos rfl]
        cases c.isLooping <;> simp [Backstage.bus_cancel]
      · rw [if_neg same, if_neg same]
        cases d.isLooping <;> simp [Backstage.bus_cancel, same]
    rw [if_pos rfl, played, reach?_eq (q := .play d clip pitch) mixed]
    by_cases same : c = d
    · subst same
      rw [if_pos rfl]
      exact .plays clip pitch rfl
    · rw [if_neg same]
      exact bus_step_other same rfl

theorem bus_step_stop (w : World) (d c : Channel) :
    Bus.Step c ((Request.stop d).reach? w.rig) n sweeps bursts (w.backstage.bus c)
      ((w.stopChannel d).backstage.bus c) := by
  rw [backstage_stopChannel, Backstage.bus_modifyStrip, reach?_eq (q := .stop d) rfl,
    Backstage.bus_cancel]
  by_cases same : c = d
  · subst same
    rw [if_pos rfl, if_pos rfl]
    exact .stops (.inl rfl)
  · rw [if_neg same, if_neg same]
    exact bus_step_other same rfl

theorem bus_step_fadeOut (w : World) (d : Channel) (span : Span) (c : Channel) :
    Bus.Step c ((Request.fadeOut d span).reach? w.rig) w.nextFiber sweeps bursts (w.backstage.bus c)
      ((w.fadeOut d span).1.backstage.bus c) := by
  rw [backstage_fadeOut]
  cases mixed : w.rig.mixed with
  | false =>
    rw [reach?_eq_none (q := .fadeOut d span) mixed]
    exact bus_step_of_none rfl
  | true =>
    rw [reach?_eq (q := .fadeOut d span) mixed, Bool.true_and]
    by_cases same : c = d
    · subst same
      split
      · rename_i loops
        split
        · have started : ((w.backstage.cancel c).setFade c (some w.nextFiber)).bus c =
              { w.backstage.bus c with fade := some w.nextFiber } := by
            rw [Backstage.bus_setFade, if_pos rfl, Backstage.bus_cancel, if_pos rfl]
          exact started ▸ .starts span loops rfl
        · have cut : ((w.backstage.cancel c).modifyStrip c Strip.stop).bus c =
              ⟨(w.backstage.bus c).strip.stop, none⟩ := by
            rw [Backstage.bus_modifyStrip, if_pos rfl, Backstage.bus_cancel, if_pos rfl]
          exact cut ▸ .stops (.inr ⟨span, rfl⟩)
      · rename_i layers
        refine .rests fun r asked _ => ⟨by simpa using layers, span, ?_⟩
        exact (Option.some.inj asked).symm
    · refine bus_step_other same ?_
      split
      · split
        · show ((w.backstage.cancel d).setFade d _).bus c = _
          rw [Backstage.bus_setFade, if_neg same, Backstage.bus_cancel, if_neg same]
        · show ((w.backstage.cancel d).modifyStrip d _).bus c = _
          rw [Backstage.bus_modifyStrip, if_neg same, Backstage.bus_cancel, if_neg same]
      · rfl

/-! ### Turns -/

/-- The work of an act that no fade and no countdown does. -/
theorem bus_step_work (w : World) {a : Act}
    (free : a.isHired = false ∨ ∃ timer due, a = .count timer due) (c : Channel) :
    Bus.Step c (a.request?.bind (·.reach? w.rig)) w.nextFiber sweeps bursts (w.backstage.bus c)
      ((w.work a).backstage.bus c) := by
  cases a with
  | sweep s =>
    rw [backstage_work_sweep w (by simpa using free)]
    exact bus_step_of_none rfl
  | play d clip pitch => exact bus_step_play w d clip pitch c
  | hush d span => exact bus_step_fadeOut w d span c
  | hushMusic span => exact bus_step_fadeOut w .bgm span c
  | silence => simp [Act.isHired] at free
  | tween => exact bus_step_of_none (by rw [work, backstage_spawn]; rfl)
  | timer t => exact bus_step_of_none (by rw [work, backstage_startCountdown]; rfl)
  | stopTimer => exact bus_step_of_none (by rw [work, backstage_stopCountdown]; rfl)
  | count timer due => exact bus_step_of_none (by rw [work, backstage_countDown]; rfl)
  | _ => exact bus_step_of_none rfl

theorem asks?_turn {a : Act} (act : w.act? = some a) :
    w.asks? .turn = a.request?.bind (·.reach? w.rig) := by
  show (w.act?.bind Act.request?).bind _ = _
  rw [act]
  rfl

theorem asks?_turn_none (act : w.act? = none) : w.asks? .turn = none := by
  show (w.act?.bind Act.request?).bind _ = _
  rw [act]
  rfl

/-- A fade never asks for anything. -/
theorem asks?_own {rest : List Fiber} (h : w.backstage.Manned) (ready : w.ready = f :: rest)
    (role : f.role = .fade c) : w.asks? .turn = none := by
  cases act : w.act? with
  | none => exact asks?_turn_none act
  | some a =>
    rw [asks?_turn act]
    rw [act?_cons ready, actOf?] at act
    split at act
    · cases act
    rename_i going
    have among : f ∈ w.hands := mem_hands_of_ready ready
    have acts := (h.fades f among c role (by simp_all)).acts
    generalize f.todo = todo at acts act
    cases acts with
    | spent => cases act
    | _ =>
      obtain rfl := Option.some.inj act
      rfl

/-- A turn of another fiber does what it asks, and no more. -/
theorem bus_turn_other (order : w.InOrder) (h : w.backstage.Manned) {rest : List Fiber}
    (ready : w.ready = f :: rest) (other : f.role.isFade = false) (c : Channel) :
    Bus.Step c (w.asks? .turn) w.nextFiber sweeps bursts (w.backstage.bus c)
      (w.turn.backstage.bus c) := by
  have among : f ∈ w.hands := mem_hands_of_ready ready
  have free {a : Act} : a ∈ f.todo → _ :=
    free_of_not_fade (dutiful_hands order among) (h.hired f among) other (a := a)
  have quiet (act : w.act? = none) {b : Backstage} (same : b.bus c = w.backstage.bus c) :
      Bus.Step c (w.asks? .turn) w.nextFiber sweeps bursts (w.backstage.bus c) (b.bus c) := by
    rw [asks?_turn_none act]
    exact bus_step_of_none same
  cases turn_turns order ready with
  | ends act same =>
    refine quiet act ?_
    rw [same, yield_of_not_fade _ other]
    rfl
  | fetches f' act spared role todo fault id spared' run acts fault' cursor same =>
    exact quiet act (by rw [same]; rfl)
  | @works a after act spared todo fault works =>
    rw [asks?_turn act]
    cases works with
    | goes f' onward cursor same =>
      rw [same]
      exact bus_step_work (w.taken f rest) (free (by simp [todo])) c
    | takes f' lane pulled onward cursor same =>
      rw [same]
      cases a with
      | stride | confirm => exact bus_step_of_none rfl
      | _ => cases lane
    | bursts stride pulled overflow same =>
      rw [same, yield_of_not_fade (f := { f with todo := after }) _ other, stride]
      exact bus_step_of_none rfl
    | falls told same =>
      rw [same, yield_of_not_fade (f := { f with todo := after }) _ other]
      cases a with
      | play | hush | hushMusic => cases told
      | _ => exact bus_step_of_none rfl
  | @unwinds a after e f' act spared todo fault id spared' role todo' fault' cursor same =>
    exact quiet act (by rw [same, amend_of_free _ (free (by simp [todo]))]; rfl)

/-- A turn of a fade does nothing to other channels. -/
theorem bus_turn_fade (sources : 0 < w.feed.sources) (h : w.backstage.Manned)
    {rest : List Fiber} (ready : w.ready = f :: rest) (role : f.role = .fade d)
    (spared : f.doomed = false) (c : Channel) :
    Bus.Step c (w.asks? .turn) w.nextFiber (w.Sweeps c) (w.Bursts c) (w.backstage.bus c)
      (w.turn.backstage.bus c) := by
  have among : f ∈ w.hands := mem_hands_of_ready ready
  have own := h.fades f among d role spared
  rw [asks?_own h ready role]
  have turned := turn_fade sources h ready role spared
  by_cases same : c = d
  · subst same
    have sweeps : w.Sweeps c := ⟨f, by rw [ready]; rfl, role⟩
    have slot : (w.backstage.bus c).fade = some f.id := own.slot
    cases turned with
    | goes step _ _ same =>
      rw [same]
      cases step with
      | @dims s =>
        have dimmed : ((w.taken f rest).backstage.modifyStrip c (·.dim s.share)).bus c =
            { w.backstage.bus c with strip := (w.backstage.bus c).strip.dim s.share } := by
          rw [Backstage.bus_modifyStrip, if_pos rfl]
          rfl
        exact dimmed ▸ .dims s.share rfl sweeps slot
      | due | takes => exact bus_step_of_none rfl
      | silences =>
        have silenced : ((w.taken f rest).backstage.modifyStrip c Strip.stop).bus c =
            { w.backstage.bus c with strip := (w.backstage.bus c).strip.stop } := by
          rw [Backstage.bus_modifyStrip, if_pos rfl]
          rfl
        exact silenced ▸ .silences rfl sweeps slot
    | waits _ _ _ _ same =>
      rw [same]
      exact bus_step_of_none rfl
    | @bursts s fr cu missed todo pulled overflow _ same =>
      have freed : w.turn.backstage.bus c = { w.backstage.bus c with fade := none } := by
        rw [same, Backstage.bus_setFade, if_pos rfl]
        rfl
      refine freed ▸ .bursts rfl sweeps slot
        ⟨f, s, fr, cu, missed, ⟨?_, spared, ?_⟩, role, pulled, overflow⟩
      · rw [ready]
        rfl
      · rw [todo]
        rfl
    | ends todo _ same =>
      have freed : w.turn.backstage.bus c = { w.backstage.bus c with fade := none } := by
        rw [same, Backstage.bus_setFade, if_pos rfl]
        rfl
      exact freed ▸ .ends rfl sweeps slot (own.spent todo).1
  · refine bus_step_of_none ?_
    cases turned with
    | goes step _ _ same' =>
      rw [same']
      cases step with
      | dims | silences =>
        show (Backstage.modifyStrip _ d _).bus c = _
        rw [Backstage.bus_modifyStrip, if_neg same]
        rfl
      | due | takes => rfl
    | waits _ _ _ _ same' => rw [same']; rfl
    | bursts _ _ _ _ same' | ends _ _ same' =>
      rw [same', Backstage.bus_setFade, if_neg same]
      rfl

theorem bus_turn (play : w.InPlay) (h : w.backstage.Manned) (c : Channel) :
    Bus.Step c (w.asks? .turn) w.nextFiber (w.Sweeps c) (w.Bursts c) (w.backstage.bus c)
      (w.turn.backstage.bus c) := by
  cases ready : w.ready with
  | nil =>
    have idle : w.asks? .turn = none := asks?_turn_none (by rw [act?, ready]; rfl)
    rw [idle, turn, ready]
    exact bus_step_of_none rfl
  | cons f rest =>
    cases doomed : f.doomed with
    | true =>
      have idle : w.asks? .turn = none := asks?_turn_none (by simp [act?_cons ready, actOf?, doomed])
      rw [idle, (manned_turn_doomed play.order h ready doomed).1]
      exact bus_step_of_none rfl
    | false =>
      cases role : f.role with
      | fade d => exact bus_turn_fade play.screened.sources_pos h ready role doomed c
      | _ => exact bus_turn_other play.order h ready (by rw [role]; rfl) c

theorem bus_hosts {p : Pulse} (untaken : p ≠ .turn)
    (plain : ∀ s brief, p = .host s brief → s.request? = none) (c : Channel) :
    (w.pulse p).backstage.bus c = w.backstage.bus c := by
  generalize heq : (w.pulse p).backstage = b
  cases heq ▸ pulse_hosts w untaken with
  | stays | loads | aborts => rfl
  | executes => rw [backstage_renewScope]; rfl
  | cancels => rw [backstage_cancelSideEffects]; rfl
  | plays | fades | stops => cases plain _ _ rfl

/-- What a pulse makes of a channel. -/
theorem bus_pulse (play : w.InPlay) (h : w.backstage.Manned) (p : Pulse) (c : Channel) :
    Bus.Step c (w.asks? p) w.nextFiber (p = .turn ∧ w.Sweeps c) (p = .turn ∧ w.Bursts c)
      (w.backstage.bus c) ((w.pulse p).backstage.bus c) := by
  cases p with
  | turn =>
    show Bus.Step c _ _ _ _ _ (w.turn.backstage.bus c)
    simpa using bus_turn play h c
  | publish | pass => exact bus_step_of_none (bus_hosts (by simp) (by simp) c)
  | host s brief =>
    cases s with
    | play d clip pitch => exact bus_step_play w d clip pitch c
    | fadeOut d span => exact bus_step_fadeOut w d span c
    | stopChannel d => exact bus_step_stop w d c
    | _ =>
      refine bus_step_of_none (bus_hosts (by simp) (fun s brief same => ?_) c)
      cases same
      rfl

/-- While its fade has no turn, a channel that is not asked for anything is left alone. -/
theorem bus_pulse_other (play : w.InPlay) (h : w.backstage.Manned) {p : Pulse} {id : Nat}
    (slot : w.mixer.fades.get c = some id) (other : ¬ w.OwnTurn p id)
    (unasked : ∀ q, w.asks? p = some q → q.channel ≠ c) :
    (w.pulse p).backstage.bus c = w.backstage.bus c := by
  by_cases sweeps : p = .turn ∧ w.Sweeps c
  · obtain ⟨rfl, f, head, role⟩ := sweeps
    obtain ⟨rest, ready⟩ := List.head?_eq_some_iff.mp head
    cases doomed : f.doomed with
    | true =>
      show w.turn.backstage.bus c = _
      rw [(manned_turn_doomed play.order h ready doomed).1]
      rfl
    | false =>
      have among : f ∈ w.hands := mem_hands_of_ready ready
      have own := (h.fades f among c role doomed).slot
      exact absurd ⟨rfl, f, head, Option.some.inj (own.symm.trans slot)⟩ other
  · exact (bus_pulse play h p c).apart unasked fun own => absurd own sweeps

/-! ### Every pulse -/

/-- The fade of the channel fell when its time overflowed, and nobody asked anything of the channel
since: it is as the fade left it. -/
def Frays (w : World) (ps : List Pulse) (c : Channel) : Prop :=
  ∃ pre post, ps = pre ++ .turn :: post ∧ (w.pulses pre).Bursts c ∧
    (∀ q ∈ (w.pulses pre).turn.asked post, q.channel ≠ c) ∧
      (w.pulses ps).mixer.strips.get c = (w.pulses pre).mixer.strips.get c

theorem pulses_frays {ps pre post : List Pulse} (cut : ps = pre ++ .turn :: post) :
    w.pulses ps = (w.pulses pre).turn.pulses post := by
  rw [cut, pulses_append]
  rfl

theorem tuned_pulses (o : Opening) (ps : List Pulse) (c : Channel) :
    ((o.world.pulses ps).backstage.bus c).Tuned c (clipsOn c (o.world.asked ps)) := by
  refine (inPlay_opening o).induction
    (P := fun ps w => (w.backstage.bus c).Tuned c (clipsOn c (o.world.asked ps))) ?_
    (fun ps p play tuned => ?_) ps
  · refine ⟨?_, fun _ => ⟨?_, fun on => ?_⟩, fun _ => ?_⟩
    all_goals cases c
    all_goals first | rfl | cases on | exact ⟨rfl, rfl, rfl, rfl, rfl⟩
  · rw [asked_concat]
    exact tuned.step (bus_pulse play (manned_pulses o ps) p c)

theorem full_pulses (o : Opening) (ps : List Pulse) {c : Channel} (loops : c.isLooping = true) :
    ((o.world.pulses ps).backstage.bus c).fade = none →
      ((o.world.pulses ps).backstage.bus c).strip.volume = Strip.fullVolume ∨ o.world.Frays ps c := by
  refine (inPlay_opening o).induction (P := fun ps w => (w.backstage.bus c).fade = none →
    (w.backstage.bus c).strip.volume = Strip.fullVolume ∨ o.world.Frays ps c) (fun _ => .inl ?_)
    (fun ps p play full quiet => ?_) ps
  · cases c <;> rfl
  have step := bus_pulse play (manned_pulses o ps) p c
  rcases step.full (tuned_pulses o ps c).channel loops quiet with
    still | ⟨⟨rfl, fell⟩, unasked, same⟩ | ⟨same, unasked⟩
  · exact .inl still
  · refine .inr ⟨ps, [], rfl, fell, by simp [asked], ?_⟩
    rw [pulses_concat]
    exact same
  · rw [same] at quiet ⊢
    refine (full quiet).imp_right fun ⟨pre, post, cut, fell, idle, as⟩ => ?_
    refine ⟨pre, post ++ [p], by rw [cut]; simp, fell, fun q member => ?_, ?_⟩
    · rw [asked_concat, ← pulses_frays cut] at member
      rcases List.mem_append.mp member with member | member
      · exact idle q member
      · exact unasked q (Option.mem_toList.mp member)
    · rw [pulses_concat, ← as]
      exact congrArg Bus.strip same

/-- A turn that asks something of the mixer does that, and goes on. -/
theorem turn_of_asks (order : w.InOrder) {q : Request} (asks : w.asks? .turn = some q) :
    ∃ f rest a f', w.ready = f :: rest ∧ a.request? = some q ∧ q.reaches w.rig = true ∧
      f'.id = f.id ∧ w.turn.backstage = ((w.taken f rest).work a).backstage.join f' := by
  obtain ⟨r, asked, reached⟩ := Option.bind_eq_some_iff.mp asks
  obtain ⟨a, act, request⟩ := Option.bind_eq_some_iff.mp asked
  have reaches : r.reaches w.rig = true ∧ r = q := by
    unfold Request.reach? at reached
    split at reached
    · exact ⟨‹_›, Option.some.inj reached⟩
    · cases reached
  obtain ⟨reaches, rfl⟩ := reaches
  obtain ⟨f, rest, after, ready, spared, fault, todo, works⟩ := turn_act order act
  refine ⟨f, rest, a, ?_⟩
  cases works with
  | goes f' onward cursor same => exact ⟨f', ready, request, reaches, onward.id, same⟩
  | takes f' lane =>
    cases a with
    | stride | confirm => cases request
    | _ => cases lane
  | bursts stride =>
    rw [stride] at request
    cases request
  | falls told =>
    cases a with
    | play | hush | hushMusic => cases told
    | _ => cases request

/-- A channel changes only when it is asked for something or in the turn of its fade. -/
def Handles (w : World) (p : Pulse) (c : Channel) : Prop :=
  (∃ q, w.asks? p = some q ∧ q.channel = c) ∨ p = .turn ∧ w.Sweeps c

def sounds (w : World) : List SoundEvent :=
  w.log.filterMap fun e => match e.deed with
    | .sound event => some event
    | _ => none

/-- What holds of the mixer when this was asked of it. A fade that frays leaves its channel quiet. -/
structure Mixed (w : World) (asked : List Request) (frays : Channel → Prop) : Prop where
  looping : ∀ c : Channel, c.isLooping = true →
    (w.mixer.strips.get c).oneShots = #[] ∧
      ((w.mixer.strips.get c).playing = true → ∃ clip,
        (w.mixer.strips.get c).clip = some clip ∧ (clipsOn c asked).getLast? = some clip) ∧
      (w.mixer.isFading c = false →
        (w.mixer.strips.get c).volume = Strip.fullVolume ∨ frays c)
  layered : ∀ c : Channel, c.isLooping = false →
    w.mixer.isFading c = false ∧ (w.mixer.strips.get c).clip = none ∧
      (w.mixer.strips.get c).playing = false ∧
      (w.mixer.strips.get c).volume = Strip.fullVolume ∧
      (w.mixer.strips.get c).oneShots.toList = clipsOn c asked
  refused : ∀ p c span, c.isLooping = false → w.asks? p = some (.fadeOut c span) →
    (w.fadeOut c span).2 = .error (.invalidFadeChannel c) ∧
      (w.pulse p).mixer = w.mixer ∧ (w.pulse p).sounds = w.sounds
  apart : ∀ p c, ¬ w.Handles p c →
    (w.pulse p).mixer.strips.get c = w.mixer.strips.get c ∧
      (w.pulse p).mixer.fades.get c = w.mixer.fades.get c
  one : ∀ p c d, w.Handles p c → w.Handles p d → c = d

theorem backstage_work_request (w : World) {a : Act} {c : Channel} {span : Span}
    (request : a.request? = some (.fadeOut c span)) :
    (w.work a).backstage = (w.fadeOut c span).1.backstage := by
  cases a with
  | hush | hushMusic =>
    cases request
    rfl
  | _ => cases request

theorem asks?_host {s : HostStep} {brief : s.isBrief = true} {q : Request}
    (asks : w.asks? (.host s brief) = some q) : s.request? = some q ∧ q.reaches w.rig = true := by
  obtain ⟨r, asked, reached⟩ := Option.bind_eq_some_iff.mp asks
  unfold Request.reach? at reached
  split at reached
  · obtain rfl := Option.some.inj reached
    exact ⟨asked, ‹_›⟩
  · cases reached

theorem backstage_refused (w : World) {c : Channel} (span : Span) (layers : c.isLooping = false) :
    (w.fadeOut c span).1.backstage = w.backstage := by
  rw [backstage_fadeOut, layers, Bool.and_false]
  rfl

theorem refused_pulse (order : w.InOrder) {p : Pulse} {c : Channel} {span : Span}
    (layers : c.isLooping = false) (asks : w.asks? p = some (.fadeOut c span)) :
    (w.fadeOut c span).2 = .error (.invalidFadeChannel c) ∧
      (w.pulse p).mixer = w.mixer ∧ (w.pulse p).log = w.log := by
  refine ⟨?_, ?_⟩
  · unfold fadeOut
    split <;> simp [layers]
  suffices same : (w.pulse p).backstage.mixer = w.mixer ∧ (w.pulse p).backstage.log = w.log from same
  cases p with
  | turn =>
    obtain ⟨f, rest, a, f', ready, request, -, -, same⟩ := turn_of_asks order asks
    rw [show w.pulse .turn = w.turn from rfl, same, backstage_work_request _ request,
      backstage_refused _ span layers]
    exact ⟨rfl, rfl⟩
  | publish | pass => cases asks
  | host s brief =>
    obtain ⟨request, -⟩ := asks?_host asks
    cases s with
    | fadeOut =>
      cases request
      rw [show (w.pulse (.host (.fadeOut c span) brief)).backstage = _ from
        backstage_refused w span layers]
      exact ⟨rfl, rfl⟩
    | _ => cases request

theorem handles_one (h : w.backstage.Manned) {p : Pulse} (first : w.Handles p c)
    (second : w.Handles p d) : c = d := by
  -- The fiber of a fade asks for nothing.
  have silent {q : Request} {e : Channel} (sweeps : w.Sweeps e) (asks : w.asks? .turn = some q) :
      False := by
    obtain ⟨f, head, role⟩ := sweeps
    obtain ⟨rest, ready⟩ := List.head?_eq_some_iff.mp head
    rw [asks?_own h ready role] at asks
    cases asks
  rcases first with ⟨q, asks, rfl⟩ | ⟨rfl, sweeps⟩
  · rcases second with ⟨r, asks', rfl⟩ | ⟨rfl, sweeps⟩
    · rw [asks] at asks'
      rw [Option.some.inj asks']
    · exact (silent sweeps asks).elim
  · rcases second with ⟨r, asks, rfl⟩ | ⟨-, sweeps'⟩
    · exact (silent sweeps asks).elim
    · obtain ⟨f, head, role⟩ := sweeps
      obtain ⟨g, head', role'⟩ := sweeps'
      obtain rfl := Option.some.inj (head.symm.trans head')
      exact Role.fade.inj (role.symm.trans role')

/-- In every order of requests, frames and turns: the looping channels play the clip they were last
asked for and are at full volume unless they fade, the others layer their clips and know no fade,
and nothing that is done with one channel touches another. Only a fade whose time overflowed leaves
its channel quiet, until the channel is asked for something else. -/
theorem mixer_in_tune (o : Opening) (ps : List Pulse) :
    (o.world.pulses ps).Mixed (o.world.asked ps) (o.world.Frays ps) := by
  have play := inPlay_pulses o ps
  have manned := manned_pulses o ps
  refine ⟨fun c loops => ?_, fun c layers => ?_, fun p c span layers asks => ?_,
    fun p c idle => ?_, fun p c d => handles_one manned⟩
  · obtain ⟨shots, playing⟩ := (tuned_pulses o ps c).looping loops
    refine ⟨shots, playing, fun quiet => full_pulses o ps loops ?_⟩
    show (o.world.pulses ps).mixer.fades.get c = none
    simpa [Mixer.isFading] using quiet
  · obtain ⟨fade, rest⟩ := (tuned_pulses o ps c).layered layers
    refine ⟨?_, rest⟩
    show Option.isSome ((o.world.pulses ps).backstage.bus c).fade = false
    rw [fade]
    rfl
  · obtain ⟨error, mixer, log⟩ := refused_pulse play.order layers asks
    exact ⟨error, mixer, by rw [sounds, sounds, log]⟩
  · have same := (bus_pulse play manned p c).apart
      (fun q asks here => idle (.inl ⟨q, asks, here⟩)) fun own => absurd (.inr own) idle
    exact ⟨congrArg Bus.strip same, congrArg Bus.fade same⟩

/-- Two frames of a fade whose deltas do not fit into one sum: no fade runs, and the music is on but
silent. -/
theorem mixer_out_of_tune :
    let o : Opening := ⟨default, { (default : Rig) with mixed := true, tasks := true }, 8, default, default, []⟩
    let w := o.world.pulses ([.host (.play .bgm ⟨"theme"⟩ 1) rfl,
      .host (.fadeOut .bgm ⟨Span.limit - 1⟩) rfl, .turn,
      .publish ⟨Span.limit - Span.perSecond⟩ .nothing, .publish ⟨Span.perSecond⟩ .nothing] ++
        List.replicate 3 .turn)
    w.mixer.isFading .bgm = false ∧ (w.mixer.strips.get .bgm).playing = true ∧
      (w.mixer.strips.get .bgm).volume ≠ Strip.fullVolume := by
  decide +kernel

end World

end SceneScript
