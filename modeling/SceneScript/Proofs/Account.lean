import SceneScript.Proofs.Staged
import SceneScript.Proofs.Track
/-!
What the chronicle tells of a fiber that plays a script, step for step beside the walk over it.
-/

namespace SceneScript

namespace Deed

def stepped? : Deed → Option (Nat × Opcode)
  | .event (.stepped place opcode) => some (place, opcode)
  | _ => none

end Deed

/-- What `g` reads off the deeds of a fiber. -/
def tale {α : Type} (g : Deed → Option α) (id : Nat) (es : List Entry) : List α :=
  es.filterMap fun e => if e.author = some id then g e.deed else none

section

variable {α : Type} {g : Deed → Option α} {id : Nat} {es es' : List Entry}

theorem tale_append : tale g id (es ++ es') = tale g id es ++ tale g id es' :=
  List.filterMap_append

@[simp] theorem tale_own (d : Deed) : tale g id [⟨some id, d⟩] = (g d).toList := by
  cases h : g d <;> simp [tale, h]

theorem tale_eq_nil (h : ∀ e ∈ es, e.author = some id → g e.deed = none) : tale g id es = [] := by
  refine List.filterMap_eq_nil_iff.mpr fun e member => ?_
  split
  · rename_i own
    exact h e member own
  · rfl

theorem tale_append_none (h : ∀ e ∈ es', e.author = some id → g e.deed = none) :
    tale g id (es ++ es') = tale g id es := by
  rw [tale_append, tale_eq_nil h, List.append_nil]

theorem tale_touches {p p' : Plot} (touched : Plot.Touches p p') (silent : ∀ n, g (.note n) = none) :
    tale g id p'.story = tale g id p.story := by
  obtain ⟨notes, story, told⟩ := touched.story
  rw [story]
  refine tale_append_none fun e member _ => ?_
  obtain ⟨n, deed⟩ := told e member
  rw [deed, silent]

theorem tale_tell (p : Plot) (l l' : Lead) (d : Deed) :
    tale g l.id ((p.tell l d).lead l').story = tale g l.id p.story ++ (g d).toList :=
  tale_append.trans (congrArg _ (tale_own d))

theorem tale_ends (p : Plot) (l : Lead) (o : Outcome) (stage : ∀ call, g (.stage call) = none) :
    tale g l.id (p.ends l o).story = tale g l.id p.story ++
      ((g (.event o.event)).toList ++ (g (.outcome l.run.number o)).toList) := by
  refine tale_append.trans (congrArg _ ?_)
  simp only [tale, List.filterMap_cons, if_true, stage, List.filterMap_nil]
  cases g (.event o.event) <;> cases g (.outcome l.run.number o) <;> rfl

theorem tale_starts (p : Plot) (n : Nat) (q : Program) :
    tale g id (p.starts n q).story = tale g id p.story :=
  tale_append_none (by simp)

end

def SteppedTo (commands : List Command) (steps : List (Nat × Opcode)) (visited : List Command) :
    Prop :=
  steps.map (fun s => ((Program.resolvedOf commands).commands[s.1]?, s.2)) =
    visited.map fun c => (some c, c.opcode)

inductive Onward (visited : List Command) (l : Lead) : List Command → Lead → Prop where
  | visits (c : Command) (l' : Lead) : Onward visited l (visited ++ [c]) l'
  | lasts (l' : Lead) : InBlock visited → Onward visited l visited l'
  | nears {l' : Lead} : l'.weight < l.weight → Onward visited l visited l'

/-- The run of `l` is under way and has visited these commands. -/
structure Live (commands : List Command) (p : Plot) (l : Lead) (visited : List Command) : Prop where
  leads : p.leads = [l]
  program : l.run.program = Program.resolvedOf commands
  steps : SteppedTo commands (tale Deed.stepped? l.id p.story) visited
  outcomes : tale Deed.outcome? l.id p.story = []
  track : Track commands visited (tale Deed.reply? l.id p.story) l

structure Over (commands : List Command) (id run : Nat) (p : Plot) (visited : List Command)
    (o : Outcome) : Prop where
  gone : ∀ l ∈ p.leads, l.id ≠ id
  below : id < p.fibers
  steps : SteppedTo commands (tale Deed.stepped? id p.story) visited
  outcomes : tale Deed.outcome? id p.story = [(run, o)]
  agrees : Agrees commands visited (tale Deed.reply? id p.story) o

namespace Live

variable {commands visited : List Command} {p p' : Plot} {l l' : Lead}

theorem touches (h : Live commands p l visited) (touched : Plot.Touches p p') :
    Live commands p' l visited where
  leads := touched.leads.trans h.leads
  program := h.program
  steps := by
    rw [tale_touches touched fun _ => rfl]
    exact h.steps
  outcomes := by
    rw [tale_touches touched fun _ => rfl]
    exact h.outcomes
  track := by
    rw [tale_touches touched fun _ => rfl]
    exact h.track

theorem goes (h : Live commands p l visited) (leads : p'.leads = [l']) (id : l'.id = l.id)
    (program : l'.run.program = l.run.program) (story : p'.story = p.story)
    (track : Track commands visited (tale Deed.reply? l.id p.story) l') :
    Live commands p' l' visited := by
  refine ⟨leads, program.trans h.program, ?_, ?_, ?_⟩
  · rw [id, story]
    exact h.steps
  · rw [id, story]
    exact h.outcomes
  · rw [id, story]
    exact track

theorem tells {d : Deed} (h : Live commands p l visited) (id : l'.id = l.id)
    (program : l'.run.program = l.run.program) (step : d.stepped? = none)
    (outcome : d.outcome? = none)
    (track : Track commands visited (tale Deed.reply? l.id p.story ++ d.reply?.toList) l') :
    Live commands ((p.tell l d).lead l') l' visited := by
  refine ⟨rfl, program.trans h.program, ?_, ?_, ?_⟩
  · rw [id, tale_tell, step]
    simpa using h.steps
  · rw [id, tale_tell, outcome]
    simpa using h.outcomes
  · rw [id, tale_tell]
    exact track

theorem ends {o : Outcome} (h : Live commands p l visited)
    (below : l.id < p.fibers) (agrees : Agrees commands visited (tale Deed.reply? l.id p.story) o) :
    Over commands l.id l.run.number (p.ends l o) visited o := by
  have quiet {α : Type} {g : Deed → Option α} (stage : ∀ call, g (.stage call) = none)
      (event : g (.event o.event) = none) : tale g l.id (p.ends l o).story =
        tale g l.id p.story ++ (g (.outcome l.run.number o)).toList := by
    rw [tale_ends p l o stage, event, Option.toList_none, List.nil_append]
  have step : Deed.stepped? (.event o.event) = none := by cases o <;> rfl
  refine ⟨by simp [Plot.ends, Plot.quiet, Plot.add], below, ?_, ?_, ?_⟩
  · rw [quiet (fun _ => rfl) step]
    simpa [Deed.stepped?] using h.steps
  · rw [quiet (fun _ => rfl) rfl, h.outcomes]
    rfl
  · rw [quiet (fun _ => rfl) rfl]
    simpa [Deed.reply?] using agrees

theorem enters {c : Command} {settings : Settings} {page : Page} (h : Live commands p l visited)
    (todo : l.todo = []) (fault : l.fault = none)
    (found : l.run.program.commands[l.run.pointer]? = some c) :
    Live commands (p.enters l c settings page)
      { l with run := { l.run with pointer := l.run.pointer + 1, page },
               todo := c.acts settings l.run.page } (visited ++ [c]) := by
  have story {α : Type} (g : Deed → Option α) : tale g l.id (p.enters l c settings page).story =
      tale g l.id p.story ++ (g (.event (.stepped l.run.pointer c.opcode))).toList :=
    tale_tell _ l l _
  refine ⟨rfl, h.program, ?_, ?_, ?_⟩
  · rw [h.program] at found
    rw [story, SteppedTo, List.map_append, List.map_append, h.steps]
    simp [Deed.stepped?, found]
  · rw [story, h.outcomes]
    rfl
  · rw [story, show (Deed.event _).reply? = none from rfl, Option.toList_none, List.append_nil]
    rw [h.program] at found
    exact h.track.enters todo fault found settings page

/-! #### Turns of the run -/

structure Goes (commands visited : List Command) (l : Lead) (p' : Plot) (visited' : List Command)
    (l' : Lead) : Prop where
  live : Live commands p' l' visited'
  id : l'.id = l.id
  number : l'.run.number = l.run.number
  onward : Onward visited l visited' l'

section

variable {a : Act} {rest : List Act}

theorem lasts {fault : Option Failure} (h : Live commands p l visited) (new : List Act)
    (todo : l.todo = a :: rest)
    (lasting : a.isRoute = false ∧ a.isInstant = false ∨ l.fault ≠ none)
    (routes : ∀ b ∈ new, b.isRoute = false)
    (leads : p'.leads = [{ l with todo := new ++ rest, fault }]) (story : p'.story = p.story) :
    Goes commands visited l p' visited { l with todo := new ++ rest, fault } where
  live := h.goes leads rfl rfl story (h.track.lasts todo lasting routes fault)
  id := rfl
  number := rfl
  onward := .lasts _ (h.track.inBlock todo lasting)

theorem acts {new : List Act} {fault : Option Failure} (h : Live commands p l visited)
    (todo : l.todo = a :: rest) (aside : a.isAside = true) (leaves : ∀ b ∈ new, a.Leaves b)
    (raised : fault = none ∨ ∃ e, fault = some e ∧ a.raises e = true)
    (leads : p'.leads = [{ l with todo := new ++ rest, fault }]) (story : p'.story = p.story) :
    Goes commands visited l p' visited { l with todo := new ++ rest, fault } := by
  have route := Act.isRoute_of_isAside aside
  have routes : ∀ b ∈ new, b.isRoute = false := by
    intro b hb
    exact Act.isRoute_of_isAside ((leaves b hb).isAside aside)
  by_cases instant : a.isInstant = true
  · obtain rfl := Act.eq_nil_of_isInstant leaves instant
    obtain ⟨place, reached, pointer, routes', calm⟩ := h.track.abreast_of_todo todo (.inl route)
    have fine : fault = none := by
      refine raised.resolve_right ?_
      rintro ⟨e, -, raises⟩
      rw [Act.not_isInstant_of_raises raises] at instant
      cases instant
    have calm' : InBlock visited ∨ fault = none ∧ ∀ b ∈ rest, b.isInstant = true :=
      calm.imp_right fun all => ⟨fine, fun b hb => all.2 b (List.mem_cons_of_mem _ hb)⟩
    exact ⟨h.goes leads rfl rfl story (.abreast reached pointer routes' calm'), rfl, rfl,
      .nears (Lead.weight_lt todo)⟩
  · exact h.lasts new todo (.inl ⟨route, by simpa using instant⟩) routes leads story

theorem shows {call : StageCall} (h : Live commands p l visited)
    (todo : l.todo = .stage call :: rest) :
    Goes commands visited l ((p.tell l (.stage call)).lead { l with todo := rest }) visited
      { l with todo := rest } where
  live := by
    obtain ⟨place, reached, pointer, routes, calm⟩ := h.track.abreast_of_todo todo (.inl rfl)
    have calm' : InBlock visited ∨ l.fault = none ∧ ∀ b ∈ rest, b.isInstant = true :=
      calm.imp_right fun fine => ⟨fine.1, fun b hb => fine.2 b (List.mem_cons_of_mem _ hb)⟩
    refine h.tells rfl rfl rfl rfl (.abreast ?_ pointer routes calm')
    rwa [show (Deed.stage call).reply? = none from rfl, Option.toList_none, List.append_nil]
  id := rfl
  number := rfl
  onward := .nears (Lead.weight_lt todo)

theorem chooses {index : Nat} {options : List String} (h : Live commands p l visited)
    (todo : l.todo = .chosen index options :: rest) :
    Goes commands visited l
      ((p.tell l (.event (.choiceMade index))).lead { l with todo := Act.closing ++ rest }) visited
      { l with todo := Act.closing ++ rest } where
  live := by
    have routes : ∀ b ∈ Act.closing, b.isRoute = false := by
      simp [Act.closing, Command.animate, Act.isRoute]
    refine h.tells rfl rfl rfl rfl ?_
    rw [show (Deed.event _).reply? = none from rfl, Option.toList_none, List.append_nil]
    exact h.track.lasts todo (.inl ⟨rfl, rfl⟩) routes _
  id := rfl
  number := rfl
  onward := .lasts _ (h.track.inBlock todo (.inl ⟨rfl, rfl⟩))

theorem hears {said : Reply} (h : Live commands p l visited) (todo : l.todo = a :: rest)
    (route : a.isRoute = true) (asks : ∀ label, a ≠ .goto label)
    (turns : ∀ c : Command, c.question? = some a → ∀ more, c.turnout (said :: more) = .next more) :
    Goes commands visited l ((p.tell l (.replied said)).lead { l with todo := rest }) visited
      { l with todo := rest } where
  live := by
    obtain ⟨place, before, c, question, reached, found, runs, last, pointer, rfl, fault⟩ :=
      h.track.hears todo route asks
    refine h.tells rfl rfl rfl rfl ?_
    rw [last]
    exact .abreast (reached.next found runs (turns c question)) pointer (by simp)
      (.inr ⟨fault, by simp⟩)
  id := rfl
  number := rfl
  onward := .nears (Lead.weight_lt todo)

theorem turns {said : Reply} {label : String} (h : Live commands p l visited)
    (todo : l.todo = a :: rest) (weight : a.weight = 2) (route : a.isRoute = true)
    (asks : ∀ label, a ≠ .goto label)
    (turns : ∀ c : Command, c.question? = some a →
      ∀ more, c.turnout (said :: more) = .jump label more) :
    Goes commands visited l ((p.tell l (.replied said)).lead { l with todo := .goto label :: rest })
      visited { l with todo := .goto label :: rest } where
  live := by
    obtain ⟨place, before, c, question, reached, found, runs, last, -, rfl, fault⟩ :=
      h.track.hears todo route asks
    refine h.tells rfl rfl rfl rfl ?_
    exact .jumps reached found runs last rfl (turns c question) rfl fault
  id := rfl
  number := rfl
  onward := by
    have jump : (Act.goto label).weight = 1 := rfl
    refine .nears ?_
    simp only [Lead.weight, todo, weight, jump, List.foldr_cons]
    omega

theorem unheard {kind : CallbackKind} {index : Nat} (h : Live commands p l visited)
    (todo : l.todo = a :: rest) (asks : a.asks? = some (kind, index)) :
    Goes commands visited l ((p.tell l (.replied .unknown)).lead
        { l with todo := rest, fault := some (.unknownCallback kind index) }) visited
      { l with todo := rest, fault := some (.unknownCallback kind index) } where
  live := by
    obtain ⟨route, jumps⟩ := Act.isRoute_of_asks asks
    obtain ⟨place, before, c, question, reached, found, runs, last, -, rfl, fault⟩ :=
      h.track.hears todo route jumps
    have stops : c.turnout [.unknown] = .stops (.failed (.unknownCallback kind index)) := by
      cases c <;> cases question <;> cases asks <;> rfl
    refine h.tells rfl rfl rfl rfl ?_
    rw [last]
    exact .failed (reached.stops found runs stops) (by simp [Founded]) rfl rfl
  id := rfl
  number := rfl
  onward := .nears (Lead.weight_lt todo)

theorem jumps {label : String} {target : Nat} (h : Live commands p l visited)
    (todo : l.todo = .goto label :: rest) (found : l.run.program.resolve label = .ok target) :
    Goes commands visited l (p.lead { l with run := { l.run with pointer := target }, todo := rest })
      visited { l with run := { l.run with pointer := target }, todo := rest } where
  live := by
    obtain ⟨fault, rfl, resolved⟩ := h.track.resolve todo
    rw [h.program, Program.resolve_resolvedOf] at found
    cases there : labelPlace? commands label with
    | none =>
      rw [there] at found
      cases found
    | some place =>
      rw [there] at found resolved
      obtain rfl : rank commands place = target := Except.ok.inj found
      exact h.goes rfl rfl rfl rfl (.abreast resolved rfl (by simp) (.inr ⟨fault, by simp⟩))
  id := rfl
  number := rfl
  onward := .nears (Lead.weight_lt todo)

theorem strays {label : String} {e : Failure} (h : Live commands p l visited)
    (todo : l.todo = .goto label :: rest) (lost : l.run.program.resolve label = .error e) :
    Goes commands visited l (p.lead { l with todo := rest, fault := some e }) visited
      { l with todo := rest, fault := some e } where
  live := by
    obtain ⟨-, rfl, resolved⟩ := h.track.resolve todo
    rw [h.program, Program.resolve_resolvedOf] at lost
    cases there : labelPlace? commands label with
    | some place =>
      rw [there] at lost
      cases lost
    | none =>
      rw [there] at lost resolved
      obtain rfl : .unknownLabel label = e := Except.error.inj lost
      exact h.goes rfl rfl rfl rfl (.failed resolved.1 resolved.2 rfl rfl)
  id := rfl
  number := rfl
  onward := .nears (Lead.weight_lt todo)

end

theorem agrees_fails {e : Failure} (h : Live commands p l visited) (fault : l.fault = some e) :
    Agrees commands visited (tale Deed.reply? l.id p.story) (.failed e) := by
  cases h.track with
  | abreast reached _ _ calm =>
    rcases calm with block | ⟨fine, -⟩
    · exact .inr ⟨block, reached.visits⟩
    · rw [fault] at fine
      cases fine
  | asks _ _ _ _ _ _ _ fine | jumps _ _ _ _ _ _ _ fine =>
    rw [fault] at fine
    cases fine
  | failed ends founded _ fault' =>
    obtain rfl := Option.some.inj (fault.symm.trans fault')
    exact .inl ⟨ends, founded⟩

/-- A turn of the fiber ends the run, or takes it on together with the walk. -/
theorem plays (h : Live commands p l visited) (below : l.id < p.fibers) (plays : Plot.Plays l p p') :
    (∃ o, Over commands l.id l.run.number p' visited o) ∨
      ∃ visited' l', Goes commands visited l p' visited' l' := by
  -- Only `fetches` lets the walk visit a command; everything else is part of the last one.
  cases plays with
  | completes todo fault past =>
    obtain ⟨place, reached, -, same, -⟩ := h.track.abreast_of_nil todo fault
    rw [h.program] at past
    exact .inl ⟨_, h.ends below (reached.completes (same ▸ past))⟩
  | fails todo fault => exact .inl ⟨_, h.ends below (h.agrees_fails fault)⟩
  | stops => exact .inl ⟨_, h.ends below h.track.visits⟩
  | breaks text touched =>
    have h' := h.touches touched
    exact .inl ⟨_, h'.ends (Nat.lt_of_lt_of_le below touched.fibers) h'.track.visits⟩
  | fetches settings page todo fault found =>
    exact .inr ⟨_, _, h.enters todo fault found, rfl, rfl, .visits _ _⟩
  | goes todo fault aside leaves raised =>
    exact .inr ⟨_, _, h.acts todo aside leaves raised rfl rfl⟩
  | skips todo fault =>
    have flawed : l.fault ≠ none := by simp [fault]
    exact .inr ⟨_, _, h.lasts [] todo (.inr flawed) (by simp) rfl rfl⟩
  | shows todo => exact .inr ⟨_, _, h.shows todo⟩
  | offers receiver todo =>
    have routes (options : List String) : ∀ b ∈ Act.opening receiver options, b.isRoute = false := by
      simp [Act.opening, Command.animate, Act.isRoute]
    exact .inr ⟨_, _, h.lasts _ todo (.inl ⟨rfl, rfl⟩) (routes _) rfl rfl⟩
  | refuses requested limit todo =>
    exact .inr ⟨_, _, h.lasts [] todo (.inl ⟨rfl, rfl⟩) (by simp) rfl rfl⟩
  | @hears receiver options rest index todo =>
    exact .inr ⟨_, _, h.lasts [.resync, .chosen index options] todo (.inl ⟨rfl, rfl⟩)
      (by simp [Act.isRoute]) rfl rfl⟩
  | misses text todo =>
    exact .inr ⟨_, _, h.lasts [] todo (.inl ⟨rfl, rfl⟩) (by simp) rfl rfl⟩
  | chooses todo => exact .inr ⟨_, _, h.chooses todo⟩
  | holds todo =>
    refine .inr ⟨_, _, h.hears todo rfl (by simp) fun c question more => ?_⟩
    cases c <;> cases question
    rfl
  | turns todo =>
    refine .inr ⟨_, _, h.turns todo rfl rfl (by simp) fun c question more => ?_⟩
    cases c <;> cases question
    rfl
  | switches label todo =>
    refine .inr ⟨_, _, h.turns todo rfl rfl (by simp) fun c question more => ?_⟩
    cases c <;> cases question
    rfl
  | unheard todo fault asks => exact .inr ⟨_, _, h.unheard todo asks⟩
  | jumps todo fault found => exact .inr ⟨_, _, h.jumps todo found⟩
  | strays todo fault lost => exact .inr ⟨_, _, h.strays todo lost⟩
  | calls todo fault touched =>
    refine .inr ⟨_, _, (h.touches touched).hears todo rfl (by simp) fun c question more => ?_⟩
    cases c <;> cases question
    rfl

end Live

/-! ### Whose deeds are whose -/

theorem Revised.refl (programs : Array Program) : Revised programs programs :=
  fun _ q' found => ⟨q', found, .inl rfl⟩

namespace Plot

structure Within (l : Lead) (p p' : Plot) : Prop where
  fibers : p.fibers ≤ p'.fibers
  leads : ∀ l' ∈ p'.leads, l'.id = l.id
  programs : Revised p.programs p'.programs
  story : ∃ es : List Entry, p'.story = p.story ++ es ∧
    ∀ e ∈ es, e.author = some l.id ∨ ∃ n, e.deed = .note n

theorem Within.of_touches {p q p' : Plot} {l : Lead} (touched : Touches p q)
    (within : Within l q p') :
    Within l p p' where
  fibers := Nat.le_trans touched.fibers within.fibers
  leads := within.leads
  programs := touched.programs.trans within.programs
  story := by
    obtain ⟨notes, story, noted⟩ := touched.story
    obtain ⟨es, story', told⟩ := within.story
    refine ⟨notes ++ es, by rw [story', story, List.append_assoc], fun e member => ?_⟩
    rcases List.mem_append.mp member with member | member
    · exact .inr (noted e member)
    · exact told e member

/-- What others tell stays as it is. -/
theorem Within.tale {α : Type} {g : Deed → Option α} {id : Nat} {p p' : Plot} {l : Lead}
    (within : Within l p p') (other : l.id ≠ id) (silent : ∀ n, g (.note n) = none) :
    SceneScript.tale g id p'.story = SceneScript.tale g id p.story := by
  obtain ⟨es, story, own⟩ := within.story
  rw [story]
  refine tale_append_none fun e member author => ?_
  rcases own e member with own | ⟨n, note⟩
  · exact absurd (Option.some.inj (own.symm.trans author)) other
  · rw [note, silent]

theorem within_ends (p : Plot) (l : Lead) (o : Outcome) : Within l p (p.ends l o) where
  fibers := Nat.le_refl _
  leads := by simp [ends, quiet, add]
  programs := .refl _
  story := ⟨_, rfl, by simp⟩

theorem within_tell (p : Plot) {l l' : Lead} (d : Deed) (id : l'.id = l.id) :
    Within l p ((p.tell l d).lead l') where
  fibers := Nat.le_refl _
  leads := by simpa [lead] using id
  programs := .refl _
  story := ⟨_, rfl, by simp⟩

theorem within_lead {p p' : Plot} {l l' : Lead} (leads : p'.leads = [l']) (id : l'.id = l.id)
    (fibers : p.fibers ≤ p'.fibers) (programs : p'.programs = p.programs)
    (story : p'.story = p.story) : Within l p p' where
  fibers := fibers
  leads := by simpa [leads] using id
  programs := programs ▸ .refl _
  story := ⟨[], by simp [story], by simp⟩

theorem Plays.within {l : Lead} {p p' : Plot} (h : Plays l p p') : Within l p p' := by
  cases h with
  | completes | fails | stops => exact within_ends _ _ _
  | breaks text touched => exact .of_touches touched (within_ends _ _ _)
  | fetches settings page =>
    exact { fibers := Nat.le_refl _, leads := by simp [enters, lead], programs := .refl _,
            story := ⟨_, rfl, by simp⟩ }
  | goes _ _ _ _ _ more | skips _ _ _ more => exact within_lead rfl rfl more rfl rfl
  | offers | refuses | hears | misses | jumps | strays =>
    exact within_lead rfl rfl (Nat.le_refl _) rfl rfl
  | shows | chooses | holds | turns | switches | unheard => exact within_tell _ _ rfl
  | calls todo fault touched => exact .of_touches touched (within_tell _ _ rfl)

/-- Fibers are numbered, and only those there were have done something. -/
structure Numbered (p : Plot) : Prop where
  leads : ∀ l ∈ p.leads, l.id < p.fibers
  story : ∀ e ∈ p.story, (∀ n, e.deed ≠ .note n) → ∀ id, e.author = some id → id < p.fibers

variable {p p' : Plot} {l : Lead}

/-- Whoever has yet to join has told nothing. -/
theorem Numbered.tale_young {α : Type} {g : Deed → Option α} (h : p.Numbered)
    (silent : ∀ n, g (.note n) = none) : tale g p.fibers p.story = [] := by
  refine tale_eq_nil fun e member author => ?_
  by_contra told
  have below := h.story e member (fun n note => told (by rw [note, silent])) p.fibers author
  omega

theorem Numbered.touches (h : p.Numbered) (touched : Touches p p') : p'.Numbered where
  leads := by
    rw [touched.leads]
    exact fun l member => Nat.lt_of_lt_of_le (h.leads l member) touched.fibers
  story := by
    obtain ⟨notes, story, noted⟩ := touched.story
    rw [story]
    intro e member told id author
    rcases List.mem_append.mp member with member | member
    · exact Nat.lt_of_lt_of_le (h.story e member told id author) touched.fibers
    · obtain ⟨n, note⟩ := noted e member
      exact absurd note (told n)

theorem Numbered.within (h : p.Numbered) (below : l.id < p.fibers) (within : Within l p p') :
    p'.Numbered where
  leads := fun l' member => within.leads l' member ▸ Nat.lt_of_lt_of_le below within.fibers
  story := by
    obtain ⟨es, story, own⟩ := within.story
    rw [story]
    intro e member told id author
    rcases List.mem_append.mp member with member | member
    · exact Nat.lt_of_lt_of_le (h.story e member told id author) within.fibers
    rcases own e member with own | ⟨n, note⟩
    · obtain rfl : l.id = id := Option.some.inj (own.symm.trans author)
      exact Nat.lt_of_lt_of_le below within.fibers
    · exact absurd note (told n)

theorem Numbered.step (h : p.Numbered) (step : Step p p') : p'.Numbered := by
  cases step with
  | turn turn =>
    cases turn with
    | rests touched => exact h.touches touched
    | @plays l leads plays => exact h.within (h.leads l (by simp [leads])) plays.within
  | starts =>
    refine ⟨by simp [starts], fun e member told id author => ?_⟩
    rcases List.mem_append.mp member with member | member
    · exact Nat.lt_succ_of_lt (h.story e member told id author)
    · have host : e.author = none := by
        simp only [List.mem_cons, List.not_mem_nil, or_false] at member
        rcases member with rfl | rfl | rfl <;> rfl
      rw [host] at author
      cases author

theorem Step.revised (h : Step p p') : Revised p.programs p'.programs := by
  cases h with
  | turn turn =>
    cases turn with
    | rests touched => exact touched.programs
    | plays _ plays => exact plays.within.programs
  | starts _ found done =>
    refine revised_setIfInBounds fun q found' => .inr ?_
    obtain rfl := Option.some.inj (found.symm.trans found')
    exact done

end Plot

/-- The account of a run's fiber: still under way, or over. -/
inductive Account (commands : List Command) (id run : Nat) (p : Plot) : Prop where
  | live (l : Lead) (visited : List Command) : Live commands p l visited → l.id = id →
      l.run.number = run → Account commands id run p
  | ended (visited : List Command) (o : Outcome) : Over commands id run p visited o →
      Account commands id run p

section

variable {commands visited : List Command} {id run : Nat} {p p' : Plot} {o : Outcome}

theorem Over.within {l : Lead} (h : Over commands id run p visited o) (other : l.id ≠ id)
    (within : Plot.Within l p p') : Over commands id run p' visited o := by
  refine ⟨fun l' member => within.leads l' member ▸ other,
    Nat.lt_of_lt_of_le h.below within.fibers, ?_, ?_, ?_⟩
  · rw [within.tale other fun _ => rfl]
    exact h.steps
  · rw [within.tale other fun _ => rfl]
    exact h.outcomes
  · rw [within.tale other fun _ => rfl]
    exact h.agrees

theorem Over.touches (h : Over commands id run p visited o) (touched : Plot.Touches p p') :
    Over commands id run p' visited o := by
  refine ⟨by rw [touched.leads]; exact h.gone, Nat.lt_of_lt_of_le h.below touched.fibers, ?_, ?_, ?_⟩
  · rw [tale_touches touched fun _ => rfl]
    exact h.steps
  · rw [tale_touches touched fun _ => rfl]
    exact h.outcomes
  · rw [tale_touches touched fun _ => rfl]
    exact h.agrees

theorem Over.starts {n : Nat} {q : Program} (h : Over commands id run p visited o) :
    Over commands id run (p.starts n q) visited o := by
  have young : p.fibers ≠ id := Nat.ne_of_gt h.below
  refine ⟨by simpa [Plot.starts] using young, Nat.lt_succ_of_lt h.below, ?_, ?_, ?_⟩
  · rw [tale_starts]
    exact h.steps
  · rw [tale_starts]
    exact h.outcomes
  · rw [tale_starts]
    exact h.agrees

theorem Account.step (h : Account commands id run p) (numbered : p.Numbered)
    (attended : p.Attended) (step : Plot.Step p p') : Account commands id run p' := by
  cases h with
  | live l visited live same number =>
    cases step with
    | turn turn =>
      cases turn with
      | rests touched => exact .live l visited (live.touches touched) same number
      | @plays l' leads plays =>
        obtain rfl : l = l' := (List.cons.inj (live.leads.symm.trans leads)).1
        have below := numbered.leads l (by simp [leads])
        rcases live.plays below plays with ⟨o, ended⟩ | ⟨visited', l', goes⟩
        · rw [same, number] at ended
          exact .ended visited o ended
        · exact .live l' visited' goes.live (goes.id.trans same) (goes.number.trans number)
    | starts idle =>
      -- No other run starts while this one is under way.
      have busy := attended.2.mpr (by simp [live.leads])
      rw [idle] at busy
      cases busy
  | ended visited o ended =>
    cases step with
    | turn turn =>
      cases turn with
      | rests touched => exact .ended visited o (ended.touches touched)
      | @plays l leads plays =>
        exact .ended visited o (ended.within (ended.gone l (by simp [leads])) plays.within)
    | starts => exact .ended visited o ended.starts

theorem account_starts {n : Nat} {q : Program} (numbered : p.Numbered)
    (program : q = Program.resolvedOf commands) :
    Account commands p.fibers p.runs (p.starts n q) := by
  have fresh {α : Type} {g : Deed → Option α} (silent : ∀ n, g (.note n) = none) :
      tale g p.fibers (p.starts n q).story = [] :=
    (tale_starts p n q).trans (numbered.tale_young silent)
  refine .live ⟨p.fibers, ⟨p.runs, q, 0, .empty⟩, [], none⟩ [] ?_ rfl rfl
  refine ⟨rfl, program, ?_, fresh fun _ => rfl, ?_⟩
  · rw [fresh fun _ => rfl]
    rfl
  · rw [fresh fun _ => rfl]
    exact .abreast (reaches_zero commands) (rank_zero commands).symm (by simp) (.inr ⟨rfl, by simp⟩)

end

end SceneScript
