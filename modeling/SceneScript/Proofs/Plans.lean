import SceneScript.Proofs.Readers
/-!
What the fiber of a run has left to do, as far as its place in the feed goes. Whatever holds it up
other than a frame, an animation, a choice or a load, it resyncs before it takes a frame for itself
again (`Parted`).
-/

namespace SceneScript

namespace Act

/-- Acts of a load. They leave alone the place that the fiber holds for itself. -/
def isOffLane : Act → Bool
  | .sweep s | .stride s => s.lane == .board
  | a => a.isScenic

/-- Acts that neither end a wait for something other than a frame nor belong to a load. -/
def isStep : Act → Bool
  | .finish _ | .resync | .load _ | .loaded _ | .silence _ => false
  | _ => true

def isLoaded : Act → Bool
  | .loaded _ => true
  | _ => false

/-- Acts in which the script waits for an animation or for a choice. -/
def parts : Act → Bool
  | .finish _ | .answer .. => true
  | _ => false

variable {a : Act} {new : List Act}

theorem lane?_of_isOffLane (apart : a.isOffLane = true) : a.lane? ≠ some .own := by
  cases a with
  | stride s =>
    have board : s.lane = .board := by simpa [isOffLane] using apart
    simp [lane?, board]
  | confirm => cases apart
  | _ => simp [lane?]

theorem place_of_lane? {lane : Lane} (takes : a.lane? = some lane) (feed : Feed)
    (cursor : Option Cursor) : a.place feed cursor = cursor := by
  cases a with
  | resync => cases takes
  | _ => rfl

theorem isOffLane_acts (job : SceneJob) : ∀ a ∈ job.acts, a.isOffLane = true := by
  intro a member
  simp only [SceneJob.acts, List.mem_append, List.mem_cons, List.not_mem_nil, or_false] at member
  rcases member with music | rfl | rfl | rfl | rfl | rfl | rfl | rfl
  · split at music
    · rw [List.mem_singleton.mp music]
      rfl
    · cases music
  all_goals rfl

theorem isOffLane_of_puts (puts : a.Puts new) (apart : a.isOffLane = true) :
    ∀ b ∈ new, b.isOffLane = true := by
  cases a with
  | sweep s =>
    rcases puts with rfl | ⟨-, rfl⟩
    · simp
    · simpa [isOffLane] using apart
  | stride s =>
    rcases puts with rfl | ⟨s', of, rfl⟩
    · simpa using apart
    · simpa [isOffLane, of.lane] using apart
  | load job =>
    rcases puts with rfl | rfl
    · simp
    · exact isOffLane_acts job
  | enterScene scene =>
    rcases puts with rfl | rfl
    · simp
    · simpa using apart
  | clearBoard =>
    obtain ⟨color, start, stop, span, rfl⟩ := puts
    simp [isOffLane, Sweep.start]
  | remark | hushMusic | watchBoard | switchScene | release =>
    obtain rfl := puts
    simp
  | _ => cases apart

end Act

/-! ### Acts in order -/

/-- Every wait for an animation is followed by a resync, and no load is among the acts. -/
inductive Orderly : List Act → Prop where
  | nil : Orderly []
  | waits (an : Animation) {rest : List Act} : Orderly rest → Orderly (.finish an :: .resync :: rest)
  | does {a : Act} {rest : List Act} : a.isStep = true → Orderly rest → Orderly (a :: rest)

namespace Orderly

variable {a : Act} {acts more new : List Act}

theorem append (h : Orderly acts) (also : Orderly more) : Orderly (acts ++ more) := by
  induction h with
  | nil => exact also
  | waits an _ ih => exact .waits an ih
  | does step _ ih => exact .does step ih

theorem of_all (steps : acts.all Act.isStep = true) : Orderly acts := by
  induction acts with
  | nil => exact .nil
  | cons a acts ih =>
    rw [List.all_cons, Bool.and_eq_true] at steps
    exact .does steps.1 (ih steps.2)

theorem animate (an : Animation) : Orderly (Command.animate an) := .does rfl (.waits an .nil)

theorem opening (receiver : Nat) (options : List String) :
    Orderly (Act.opening receiver options) :=
  .does rfl (.does rfl ((animate _).append (of_all rfl)))

theorem closing : Orderly Act.closing := (animate _).append (of_all rfl)

theorem not_catches (h : Orderly acts) : ∀ a ∈ acts, a.catches = false := by
  induction h with
  | nil => simp
  | waits an _ ih => simpa [Act.catches] using ih
  | @does a rest step _ ih =>
    have quiet : a.catches = false := by cases a <;> simp_all [Act.isStep, Act.catches]
    simpa [quiet] using ih

theorem not_loaded (h : Orderly acts) : acts.any Act.isLoaded = false := by
  induction h with
  | nil => rfl
  | waits an _ ih => exact ih
  | @does a rest step _ ih =>
    rw [List.any_cons, ih, Bool.or_false]
    cases a <;> simp_all [Act.isStep, Act.isLoaded]

theorem head_ne_resync (h : Orderly acts) : acts.head? ≠ some .resync := by
  cases h with
  | nil | waits => simp
  | does step =>
    rintro head
    obtain rfl := Option.some.inj head
    cases step

theorem of_puts (puts : a.Puts new) (step : a.isStep = true) (free : a.parts = false) :
    Orderly new := by
  cases a with
  | finish | resync | load | loaded | silence => cases step
  | answer => cases free
  | sweep => rcases puts with rfl | ⟨-, rfl⟩ <;> exact of_all rfl
  | confirm | branch | enterScene => rcases puts with rfl | rfl <;> exact of_all rfl
  | stride => rcases puts with rfl | ⟨s', -, rfl⟩ <;> exact of_all rfl
  | reveal => rcases puts with rfl | ⟨-, call, span, rfl⟩ <;> exact of_all rfl
  | offer =>
    obtain ⟨receiver, rfl⟩ := puts
    exact opening receiver _
  | chosen =>
    obtain rfl := puts
    exact closing
  | switch =>
    obtain ⟨label, rfl⟩ := puts
    exact of_all rfl
  | count => rcases puts with rfl | ⟨due, rfl⟩ <;> exact of_all rfl
  | clearBoard =>
    obtain ⟨color, start, stop, span, rfl⟩ := puts
    exact of_all rfl
  | _ =>
    obtain rfl := puts
    exact .nil

end Orderly

/-! ### Plans -/

/-- Before it takes a frame for itself the fiber resyncs, or it is gone. -/
inductive Parted : List Act → Option Failure → Prop where
  | waits (an : Animation) {rest : List Act} : Orderly rest →
      Parted (.finish an :: .resync :: rest) none
  | asks (receiver : Nat) (options : List String) {rest : List Act} : Orderly rest →
      Parted (.answer receiver options :: rest) none
  | loads {pend : List Act} (scene : String) (fault : Option Failure) :
      (∀ a ∈ pend, a.isOffLane = true) → Parted (pend ++ [.loaded scene, .resync]) fault
  | back {rest : List Act} : Orderly rest → Parted (.resync :: rest) none
  | lost {todo : List Act} (e : Failure) : (∀ a ∈ todo, a.catches = false) → Parted todo (some e)

/-- What the fiber of a run can have left to do. -/
inductive Plan : List Act → Option Failure → Prop where
  | orderly {todo : List Act} : Orderly todo → Plan todo none
  | parted {todo : List Act} {fault : Option Failure} : Parted todo fault → Plan todo fault

/-- The fiber has an animation, a choice or a load to wait for before it does anything else. -/
def Fiber.isAway (f : Fiber) : Bool := f.todo.any Act.isLoaded || f.todo.head?.any Act.parts

theorem Command.plan_acts (c : Command) (settings : Settings) (page : Page) :
    Plan (c.acts settings page) none := by
  cases c with
  | sceneLoad scene color span fadeMusic =>
    have apart : ∀ a ∈ [Act.remark (.loadingScene scene), .load ⟨scene, color, span, fadeMusic⟩],
        a.isOffLane = true := by simp [Act.isOffLane, Act.isScenic]
    exact .parted (.loads scene none apart)
  | boxState opens =>
    cases opens with
    | true => exact .orderly ((Orderly.animate _).append (.of_all rfl))
    | false => exact .orderly (.does rfl ((Orderly.animate _).append (.of_all rfl)))
  | readModeStart => exact .orderly (.does rfl (.animate _))
  | readModeClear =>
    exact .orderly (.does rfl ((Orderly.animate _).append (.does rfl (.animate _))))
  | readModeEnd => exact .orderly (.does rfl ((Orderly.animate _).append (.of_all rfl)))
  | image layer texture => cases texture <;> exact .orderly (.of_all rfl)
  | portrait place texture => cases texture <;> exact .orderly (.of_all rfl)
  | _ => exact .orderly (.of_all rfl)

theorem Command.head_acts_ne_resync (c : Command) (settings : Settings) (page : Page) :
    (c.acts settings page).head? ≠ some .resync := by
  cases c with
  | image layer texture => cases texture <;> simp [acts, tintActs]
  | portrait place texture => cases texture <;> simp [acts, tintActs]
  | boxState opens => cases opens <;> simp [acts, animate]
  | _ => simp [acts, animate, flashActs]

/-- A fiber that is to wait for something other than a frame is parted from its place. -/
theorem Plan.parted_of_isAway {f : Fiber} (plan : Plan f.todo f.fault) (away : f.isAway = true) :
    Parted f.todo f.fault := by
  unfold Fiber.isAway at away
  generalize f.todo = todo at plan away ⊢
  generalize f.fault = fault at plan ⊢
  cases plan with
  | parted h => exact h
  | orderly h =>
    rw [h.not_loaded, Bool.false_or] at away
    cases h with
    | nil => cases away
    | waits an orderly => exact .waits an orderly
    | @does a rest step orderly =>
      cases a with
      | answer receiver options => exact .asks receiver options orderly
      | finish => cases step
      | _ => cases away

namespace World

variable {w x : World} {f g : Fiber} {act : Option Act}

/-- What a fiber may have become by its turn, `g`, if it did `act` in it. -/
inductive Heir (w : World) (f g : Fiber) : Option Act → Prop where
  | fetches {c : Command} {page : Page} : f.todo = [] → f.fault = none →
      g.todo = c.acts w.settings page → g.fault = none → g.cursor = f.cursor → Heir w f g none
  | does {a : Act} {rest : List Act} : f.todo = a :: rest → f.fault = none →
      a.Onward { f with todo := rest } g →
      (a.lane? ≠ some .own → g.cursor = a.place w.feed f.cursor) → Heir w f g (some a)
  | skips {a : Act} {rest : List Act} {e : Failure} : f.todo = a :: rest → f.fault = some e →
      g.todo = rest → (g.fault = some e ∨ a.catches = true ∧ g.fault = none) →
      g.cursor = f.cursor → Heir w f g none

theorem yield_still (b : Backstage) (f : Fiber) :
    (b.yield f).hands = b.hands ∧ (b.yield f).log = b.log := by
  unfold Backstage.yield
  split
  · split <;> exact ⟨rfl, rfl⟩
  · exact ⟨rfl, rfl⟩

/-- A fiber that does not come back is gone. -/
theorem not_mem_of_yield (order : w.InOrder) {rest : List Fiber} (ready : w.ready = f :: rest)
    {b : Backstage} {f' : Fiber} (heq : x.backstage = b.yield f')
    (hands : b.hands = (w.taken f rest).hands) (among : g ∈ x.hands) : g.id ≠ f.id := by
  have still : x.hands = b.hands := (congrArg Backstage.hands heq).trans (yield_still b f').1
  exact order.fresh_taken ready g (hands ▸ still ▸ among)

theorem turn_heir (order : w.InOrder) {rest : List Fiber} (ready : w.ready = f :: rest)
    (among : g ∈ w.turn.hands) (same : g.id = f.id) : Heir w f g w.act? := by
  have order' : w.turn.InOrder := order.beat (.lull (.turn w))
  have only {b : Backstage} {f' : Fiber} (heq : w.turn.backstage = b.join f') (id : f'.id = f.id) :
      g = f' := eq_of_join order' heq among (same.trans id.symm)
  have gone {b : Backstage} {f' : Fiber} (heq : w.turn.backstage = b.yield f')
      (hands : b.hands = (w.taken f rest).hands) : False :=
    not_mem_of_yield order ready heq hands among same
  cases turn_turns order ready with
  | ends _ heq => exact (gone heq rfl).elim
  | @fetches r c f' act _ _ todo fault id _ _ acts fault' cursor heq =>
    obtain rfl := only heq id
    rw [act]
    exact .fetches todo fault acts fault' cursor
  | works act _ todo fault works =>
    rw [act]
    cases works with
    | goes f' onward cursor heq =>
      obtain rfl := only heq onward.id
      exact .does todo fault onward fun _ => cursor
    | @takes lane fr c missed f' takes _ onward cursor heq =>
      obtain rfl := only heq onward.id
      refine .does todo fault onward fun other => ?_
      rw [cursor, if_neg (by rintro rfl; exact other takes), Act.place_of_lane? takes]
    | bursts _ _ _ heq => exact (gone heq rfl).elim
    | falls _ heq => exact (gone heq rfl).elim
  | @unwinds a after e f' act _ todo fault id _ _ todo' fault' cursor heq =>
    obtain rfl := only heq id
    rw [act]
    exact .skips todo fault todo' fault' cursor

namespace Heir

variable {a : Act} {rest : List Act} {e : Failure}

/-- The act is done, or an error came up. -/
theorem of_cons (heir : Heir w f g act) (todo : f.todo = a :: rest) (fault : f.fault = none) :
    act = some a ∧ ((∃ new, a.Puts new ∧ g.todo = new ++ rest ∧ g.fault = none) ∨
      ∃ e, g.todo = rest ∧ g.fault = some e) := by
  cases heir with
  | fetches none =>
    rw [todo] at none
    cases none
  | does todo' _ onward =>
    obtain ⟨rfl, rfl⟩ := List.cons.inj (todo.symm.trans todo')
    refine ⟨rfl, ?_⟩
    rcases onward.goes with ⟨fault', new, todo', puts⟩ | ⟨⟨e, failed⟩, todo'⟩
    · exact .inl ⟨new, puts, todo', fault'.trans fault⟩
    · exact .inr ⟨e, todo', failed⟩
  | skips _ failed =>
    rw [fault] at failed
    cases failed

/-- The error goes on to the next act, unless this one handles it. -/
theorem of_fault (heir : Heir w f g act) (fault : f.fault = some e) :
    ∃ a rest, f.todo = a :: rest ∧ g.todo = rest ∧
      (g.fault = some e ∨ a.catches = true ∧ g.fault = none) := by
  cases heir with
  | fetches _ none | does _ none =>
    rw [fault] at none
    cases none
  | skips todo failed todo' fault' =>
    obtain rfl := Option.some.inj (fault.symm.trans failed)
    exact ⟨_, _, todo, todo', fault'⟩

end Heir

end World

open World

section

variable {w : World} {f g : Fiber} {act : Option Act} {rest : List Act}

theorem Orderly.lost (h : Orderly rest) (e : Failure) : Parted rest (some e) :=
  .lost e h.not_catches

/-- A load goes on, in whatever way. -/
theorem parted_loads {pend : List Act} {scene : String}
    (apart : ∀ a ∈ pend, a.isOffLane = true) (heir : Heir w f g act)
    (todo : f.todo = pend ++ [.loaded scene, .resync]) : Parted g.todo g.fault := by
  have resync : Orderly [] := .nil
  cases pend with
  | nil =>
    cases fault : f.fault with
    | none =>
      obtain ⟨-, ⟨new, puts, todo', fault'⟩ | ⟨e, todo', fault'⟩⟩ := heir.of_cons todo fault
      · obtain rfl := puts
        rw [todo', fault']
        exact .back resync
      · rw [todo', fault']
        exact .lost e (by simp [Act.catches])
    | some e =>
      obtain ⟨a, rest, todo'', todo', handled⟩ := heir.of_fault fault
      obtain ⟨rfl, rfl⟩ := List.cons.inj (todo.symm.trans todo'')
      rcases handled with fault' | ⟨-, fault'⟩ <;> rw [todo', fault']
      · exact .lost e (by simp [Act.catches])
      · exact .back resync
  | cons a pend =>
    have todo : f.todo = a :: (pend ++ [.loaded scene, .resync]) := todo
    have others : ∀ b ∈ pend, b.isOffLane = true := fun b member =>
      apart b (List.mem_cons_of_mem a member)
    cases fault : f.fault with
    | none =>
      obtain ⟨-, ⟨new, puts, todo', fault'⟩ | ⟨e, todo', fault'⟩⟩ := heir.of_cons todo fault
      · rw [todo', fault', ← List.append_assoc]
        refine .loads scene none fun b member => ?_
        rcases List.mem_append.mp member with member | member
        · exact Act.isOffLane_of_puts puts (apart a List.mem_cons_self) b member
        · exact others b member
      · rw [todo', fault']
        exact .loads scene _ others
    | some e =>
      obtain ⟨b, rest, todo'', todo', -⟩ := heir.of_fault fault
      obtain ⟨rfl, rfl⟩ := List.cons.inj (todo.symm.trans todo'')
      rw [todo']
      exact .loads scene _ others

/-- Until it resyncs, a parted fiber stays parted. -/
theorem Parted.heir (h : Parted f.todo f.fault) (heir : Heir w f g act)
    (still : act ≠ some .resync) : Parted g.todo g.fault := by
  generalize todo : f.todo = acts at h
  generalize fault : f.fault = e? at h
  cases h with
  | waits an orderly =>
    obtain ⟨-, ⟨new, puts, todo', fault'⟩ | ⟨e, todo', fault'⟩⟩ := heir.of_cons todo fault
    · rw [todo', fault']
      rcases puts with rfl | rfl
      · exact .back orderly
      · exact .waits an orderly
    · rw [todo', fault']
      refine .lost e fun a member => ?_
      rcases List.mem_cons.mp member with rfl | member
      · rfl
      · exact orderly.not_catches a member
  | asks receiver options orderly =>
    obtain ⟨-, ⟨new, puts, todo', fault'⟩ | ⟨e, todo', fault'⟩⟩ := heir.of_cons todo fault
    · rw [todo', fault']
      rcases puts with rfl | ⟨index, rfl⟩
      · exact .asks receiver options orderly
      · exact .back (.does rfl orderly)
    · rw [todo', fault']
      exact orderly.lost e
  | loads scene _ apart => exact parted_loads apart heir todo
  | back => exact absurd (heir.of_cons todo fault).1 still
  | lost e unheard =>
    obtain ⟨a, rest, todo'', todo', handled⟩ := heir.of_fault fault
    obtain rfl := todo.symm.trans todo''
    rcases handled with fault' | ⟨catches, -⟩
    · rw [todo', fault']
      exact .lost e fun b member => unheard b (List.mem_cons_of_mem a member)
    · rw [unheard a List.mem_cons_self] at catches
      cases catches

/-- While it has something other than a frame to wait for, the fiber does not resync. -/
theorem Parted.act_ne_resync (h : Parted f.todo f.fault) (away : f.isAway = true)
    (heir : Heir w f g act) : act ≠ some .resync := by
  rintro rfl
  cases heir with
  | does todo fault =>
    unfold Fiber.isAway at away
    rw [todo] at h away
    rw [fault] at h
    generalize acts : Act.resync :: _ = todo' at h
    cases h with
    | waits | asks => cases acts
    | @loads pend scene _ apart =>
      cases pend with
      | nil => cases acts
      | cons a pend =>
        obtain ⟨rfl, -⟩ := List.cons.inj acts
        cases apart _ List.mem_cons_self
    | back orderly =>
      obtain ⟨-, rfl⟩ := List.cons.inj acts
      rw [List.any_cons, orderly.not_loaded] at away
      cases away

/-- The turn of a fiber that has nothing but frames to wait for. It does not find itself before a
resync. -/
theorem Plan.heir_of_home (h : Plan f.todo f.fault) (home : f.isAway = false)
    (heir : Heir w f g act) :
    Plan g.todo g.fault ∧ (g.fault = none → g.todo.head? ≠ some .resync) := by
  have settled {rest : List Act} (orderly : Orderly rest) (todo : g.todo = rest) :
      Plan g.todo g.fault ∧ (g.fault = none → g.todo.head? ≠ some .resync) := by
    rw [todo]
    refine ⟨?_, fun _ => orderly.head_ne_resync⟩
    cases g.fault with
    | none => exact .orderly orderly
    | some e => exact .parted (orderly.lost e)
  unfold Fiber.isAway at home
  generalize todo : f.todo = acts at h home
  generalize fault : f.fault = e? at h
  cases h with
  | orderly h =>
    cases h with
    | nil =>
      cases heir with
      | @fetches c page _ _ acts fault' =>
        rw [acts, fault']
        exact ⟨c.plan_acts _ _, fun _ => c.head_acts_ne_resync _ _⟩
      | does todo' | skips todo' =>
        rw [todo] at todo'
        cases todo'
    | waits => simp [Act.parts] at home
    | @does a rest step orderly =>
      have free : a.parts = false := by
        have both := Bool.or_eq_false_iff.mp home
        exact both.2
      obtain ⟨-, ⟨new, puts, todo', -⟩ | ⟨e, todo', -⟩⟩ := heir.of_cons todo fault
      · exact settled ((Orderly.of_puts puts step free).append orderly) todo'
      · exact settled orderly todo'
  | parted h =>
    cases h with
    | waits | asks => simp [Act.parts] at home
    | loads => simp [Act.isLoaded] at home
    | back orderly =>
      obtain ⟨-, ⟨new, puts, todo', -⟩ | ⟨e, todo', -⟩⟩ := heir.of_cons todo fault
      · obtain rfl := puts
        exact settled orderly todo'
      · exact settled orderly todo'
    | lost e unheard =>
      obtain ⟨a, rest, todo'', todo', handled⟩ := heir.of_fault fault
      obtain rfl := todo.symm.trans todo''
      rcases handled with fault' | ⟨catches, -⟩
      · rw [todo', fault']
        refine ⟨.parted (.lost e fun b member => unheard b (List.mem_cons_of_mem a member)), ?_⟩
        exact fun none => nomatch none
      · rw [unheard a List.mem_cons_self] at catches
        cases catches

theorem Plan.heir (h : Plan f.todo f.fault) (heir : Heir w f g act) : Plan g.todo g.fault := by
  cases away : f.isAway with
  | true =>
    have parted := h.parted_of_isAway away
    exact .parted (parted.heir heir (parted.act_ne_resync away heir))
  | false => exact (h.heir_of_home away heir).1

/-- A fiber resyncs right after it waited for something other than a frame. -/
theorem Plan.away_of_resync (h : Plan f.todo f.fault) (heir : Heir w f g act)
    (head : g.todo.head? = some .resync) (fine : g.fault = none) : f.isAway = true := by
  by_contra home
  exact (h.heir_of_home (by simpa using home) heir).2 fine head

/-- A parted fiber takes no frame for itself. -/
theorem Parted.lane?_ne_own {a : Act} (h : Parted f.todo f.fault) (todo : f.todo = a :: rest)
    (fault : f.fault = none) : a.lane? ≠ some .own := by
  rw [todo, fault] at h
  generalize acts : a :: rest = todo' at h
  cases h with
  | waits | asks | back =>
    obtain ⟨rfl, -⟩ := List.cons.inj acts
    simp [Act.lane?]
  | @loads pend scene _ apart =>
    cases pend with
    | nil =>
      obtain ⟨rfl, -⟩ := List.cons.inj acts
      simp [Act.lane?]
    | cons b pend =>
      obtain ⟨rfl, -⟩ := List.cons.inj acts
      exact Act.lane?_of_isOffLane (apart _ List.mem_cons_self)

end

end SceneScript
