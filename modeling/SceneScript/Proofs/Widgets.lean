import SceneScript.Proofs.Causes
import SceneScript.Proofs.Staging
/-!
The widgets that a run raises for the player: the indicator that a confirmation is awaited, and the
choices. What a run has left to do tells which of them are up (`Handles`), so a run that ends by
itself has put them away. A run that is told to stop has not: what it had still to put away stays up
(`widgets_stay_as_left`).
-/

namespace SceneScript

inductive Widget where
  | indicator
  | choices
deriving DecidableEq

/-- What a call makes of the widget: it is raised, or put away. -/
def Widget.turns? : Widget → StageCall → Option Bool
  | .indicator, .setWaitIndicator visible => some visible
  | .choices, .showChoices _ => some true
  | .choices, .hideChoices => some false
  | _, _ => none

/-! ### Acts and widgets -/

namespace Act

/-- What the act makes of the widget. -/
def turns? (x : Widget) : Act → Option Bool
  | .stage call => x.turns? call
  | _ => none

/-- Neither the act nor what comes of it has to do with a widget. -/
def isBare : Act → Bool
  | .stage call => (Widget.indicator.turns? call).isNone && (Widget.choices.turns? call).isNone
  | .confirm | .offer _ | .answer .. | .chosen .. => false
  | _ => true

/-- The acts of an animation, and the like. -/
def isStill : Act → Bool
  | .stage call => (Act.stage call).isBare
  | .finish _ | .resync => true
  | _ => false

def choices? : Act → Option Bool
  | .stage (.showChoices _) => some false
  | .stage .hideChoices | .answer .. | .chosen .. => some true
  | _ => none

/-- All that is left is to put the indicator away, once there is a confirmation. -/
def lowers : List Act → Bool
  | [.stage (.setWaitIndicator false)] => true
  | .confirm :: todo => lowers todo
  | _ => false

end Act

/-- With these acts left to do, the widget is still to be put away. -/
def Widget.isUpIn : Widget → List Act → Bool
  | .indicator, todo => Act.lowers todo
  | .choices, todo => (todo.findSome? Act.choices?).getD false

namespace Act

theorem turns?_of_isBare {a : Act} (bare : a.isBare = true) (x : Widget) : a.turns? x = none := by
  cases a with
  | stage call =>
    obtain ⟨indicator, choices⟩ := Bool.and_eq_true_iff.mp bare
    cases x with
    | indicator => exact Option.isNone_iff_eq_none.mp indicator
    | choices => exact Option.isNone_iff_eq_none.mp choices
  | _ => rfl

theorem choices?_of_isBare {a : Act} (bare : a.isBare = true) : a.choices? = none := by
  cases a with
  | stage call => cases call <;> first | rfl | cases bare
  | answer | chosen => cases bare
  | _ => rfl

theorem isBare_of_isStill {a : Act} (still : a.isStill = true) : a.isBare = true := by
  cases a with
  | stage | finish | resync => exact still
  | _ => cases still

theorem isMild_of_isStill {a : Act} (still : a.isStill = true) : a.isMild = true := by
  cases a with
  | stage | finish | resync => rfl
  | _ => cases still

theorem Leaves.isBare {a b : Act} (h : a.Leaves b) (bare : a.isBare = true) : b.isBare = true := by
  cases h with
  | stays => exact bare
  | shows r => cases kind : r.kind <;> simp [Act.isBare, Reveal.call, kind, Widget.turns?]
  | loads among =>
    have scenic := isScenic_of_mem_acts among
    cases b <;> first | rfl | cases scenic
  | _ => rfl

theorem Leaves.isStill {a b : Act} (h : a.Leaves b) (still : a.isStill = true) :
    b.isStill = true := by
  cases h with
  | stays => exact still
  | _ => cases still

theorem lowers_cons_of_isBare {a : Act} (bare : a.isBare = true) (rest : List Act) :
    lowers (a :: rest) = false := by
  cases a with
  | stage call =>
    cases call with
    | setWaitIndicator => cases bare
    | _ => rfl
  | confirm => cases bare
  | _ => rfl

theorem lowers_append {pre rest : List Act} (bare : ∀ a ∈ pre, a.isBare = true)
    (others : lowers rest = false) : lowers (pre ++ rest) = false := by
  cases pre with
  | nil => exact others
  | cons a pre => exact lowers_cons_of_isBare (bare a List.mem_cons_self) _

theorem findSome?_choices {pre : List Act} (bare : ∀ a ∈ pre, a.isBare = true) (rest : List Act) :
    (pre ++ rest).findSome? choices? = rest.findSome? choices? := by
  have none : pre.findSome? choices? = none :=
    List.findSome?_eq_none_iff.mpr fun a among => choices?_of_isBare (bare a among)
  rw [List.findSome?_append, none, Option.none_or]

end Act

/-! ### Acts that are left -/

/-- A choice from the next of its acts that is no animation, with the choices up or not. -/
inductive Offering : List Act → Bool → Prop where
  | opens {pre : List Act} (options : List String) (receiver : Nat) :
      (∀ a ∈ pre, a.isStill = true) →
      Offering (.stage (.showChoices options) :: (pre ++ [.answer receiver options])) false
  | waits (options : List String) (receiver : Nat) : Offering [.answer receiver options] true
  | picked (options : List String) (index : Nat) : Offering [.chosen index options] true
  | closes : Offering [.stage .hideChoices, .stage (.setCursorVisible false)] true

/-- The acts that a run may have left to do, and the error on its way, with the indicator and the
choices up or not. -/
inductive Handles : List Act → Option Failure → Bool → Bool → Prop where
  | bare {todo : List Act} {fault : Option Failure} : (∀ a ∈ todo, a.isBare = true) →
      Handles todo fault false false
  | clears {todo : List Act} : todo ≠ [] → (∀ a ∈ todo, a.isBare = true) →
      Handles (.stage (.setWaitIndicator false) :: todo) none false false
  | awaits {pre : List Act} : (∀ a ∈ pre, a.isBare = true) → (∀ a ∈ pre, a.isMild = true) →
      Handles (pre ++ Command.awaitConfirm) none false false
  | confirms {pre : List Act} : (∀ a ∈ pre, a = .confirm) →
      Handles (pre ++ [.stage (.setWaitIndicator false)]) none true false
  | offers (options : List String) : Handles [.offer options] none false false
  | offering {pre todo : List Act} {shown : Bool} : (∀ a ∈ pre, a.isStill = true) →
      Offering todo shown → Handles (pre ++ todo) none false shown

theorem Command.handles_acts (c : Command) (settings : Settings) (page : Page) :
    Handles (c.acts settings page) none false false := by
  cases c with
  | choice options => exact .offers options
  | text speaker body skippable place =>
    have named : (Act.stage (nameBox settings speaker place)).isBare = true := by
      unfold nameBox
      split <;> rfl
    let reveals : List Act := [.stage (.setSentenceVisible 0), .stage (.setSentence body), .listen,
      .reveal ⟨.sentence skippable, 0, body.length⟩, .stage (.setSentenceVisible body.length)]
    have bare : ∀ a ∈ reveals, a.isBare = true := by simp [reveals, Act.isBare, Widget.turns?]
    have mild : ∀ a ∈ reveals, a.isMild = true := by simp [reveals, Act.isMild]
    exact .awaits (List.forall_mem_cons.mpr ⟨named, bare⟩) (List.forall_mem_cons.mpr ⟨rfl, mild⟩)
  | readModeText t =>
    exact .awaits (by simp [Act.isBare, Widget.turns?]) (by simp [Act.isMild])
  | readModeClear | readModeEnd =>
    exact .clears (by simp [animate]) (by simp [animate, Act.isBare, Widget.turns?])
  | boxState opening => cases opening <;> exact .bare (by simp [acts, animate, Act.isBare, Widget.turns?])
  | image layer texture | portrait place texture =>
    cases texture <;> exact .bare (by simp [acts, tintActs, Act.isBare, Widget.turns?])
  | _ => exact .bare (by simp [acts, flashActs, animate, Act.isBare, Widget.turns?])

section

variable {todo new rest : List Act} {fault : Option Failure} {lit shown : Bool} {a : Act}

theorem Offering.goes (h : Offering todo shown) (todo' : a :: rest = todo)
    (told : a.isAside = true ∨ ∃ call, a = .stage call) (leaves : ∀ b ∈ new, a.Leaves b)
    (fine : a.isMild = true → fault = none) :
    Handles (new ++ rest) fault ((a.turns? .indicator).getD false)
      ((a.turns? .choices).getD shown) := by
  have stage : ∃ call, a = .stage call := by
    rcases told with aside | stage
    · cases h <;> obtain ⟨rfl, rfl⟩ := List.cons.inj todo' <;> first | exact ⟨_, rfl⟩ | cases aside
    · exact stage
  obtain ⟨call, rfl⟩ := stage
  obtain rfl := Act.eq_nil_of_isInstant leaves rfl
  rw [fine rfl]
  cases h with
  | opens options receiver still =>
    cases todo'
    have next := Handles.offering still (.waits options receiver)
    exact next
  | closes =>
    cases todo'
    exact .bare (by simp [Act.isBare, Widget.turns?])
  | waits | picked => cases todo'

namespace Handles

theorem isUpIn (h : Handles todo fault lit shown) :
    Widget.indicator.isUpIn todo = lit ∧ Widget.choices.isUpIn todo = shown := by
  have still {pre : List Act} (still : ∀ a ∈ pre, a.isStill = true) : ∀ a ∈ pre, a.isBare = true :=
    fun a among => Act.isBare_of_isStill (still a among)
  show Act.lowers todo = lit ∧ (todo.findSome? Act.choices?).getD false = shown
  cases h with
  | bare bare =>
    have none := Act.findSome?_choices bare []
    have lowers : Act.lowers (todo ++ []) = false := Act.lowers_append bare rfl
    rw [List.append_nil] at none lowers
    exact ⟨lowers, by rw [none]; rfl⟩
  | @clears todo others bare =>
    have none := Act.findSome?_choices bare []
    rw [List.append_nil] at none
    refine ⟨?_, by rw [List.findSome?_cons, none]; rfl⟩
    cases todo with
    | nil => exact absurd rfl others
    | cons => rfl
  | awaits bare => exact ⟨Act.lowers_append bare rfl, by rw [Act.findSome?_choices bare]; rfl⟩
  | @confirms pre confirms =>
    induction pre with
    | nil => exact ⟨rfl, rfl⟩
    | cons a pre ih =>
      obtain rfl := confirms a List.mem_cons_self
      exact ih fun b among => confirms b (List.mem_cons_of_mem _ among)
  | offers => exact ⟨rfl, rfl⟩
  | offering before offering =>
    rw [Act.findSome?_choices (still before)]
    cases offering <;> exact ⟨Act.lowers_append (still before) rfl, rfl⟩

theorem of_nil (h : Handles [] fault lit shown) : lit = false ∧ shown = false := by
  obtain ⟨indicator, choices⟩ := h.isUpIn
  exact ⟨indicator.symm, choices.symm⟩

/-- With an error on its way nothing is up. -/
theorem bare_of_fault {e : Failure} (h : Handles todo (some e) lit shown) :
    (∀ a ∈ todo, a.isBare = true) ∧ lit = false ∧ shown = false := by
  cases h with
  | bare bare => exact ⟨bare, rfl, rfl⟩

/-- An act that is over without a pick of the host. -/
theorem goes (h : Handles (a :: rest) none lit shown)
    (told : a.isAside = true ∨ ∃ call, a = .stage call) (leaves : ∀ b ∈ new, a.Leaves b)
    (fine : a.isMild = true → fault = none) :
    Handles (new ++ rest) fault ((a.turns? .indicator).getD lit)
      ((a.turns? .choices).getD shown) := by
  have spent (bare : a.isBare = true) (others : ∀ b ∈ rest, b.isBare = true) :
      ∀ b ∈ new ++ rest, b.isBare = true := fun b among =>
    (List.mem_append.mp among).elim (fun here => (leaves b here).isBare bare) (others b)
  have same (bare : a.isBare = true) (x : Widget) (up : Bool) : (a.turns? x).getD up = up := by
    rw [Act.turns?_of_isBare bare]
    rfl
  generalize todo' : a :: rest = todo at h
  cases h with
  | bare bare =>
    subst todo'
    have own := bare a List.mem_cons_self
    rw [same own, same own]
    exact .bare (spent own fun b among => bare b (List.mem_cons_of_mem _ among))
  | clears _ bare =>
    obtain ⟨rfl, rfl⟩ := List.cons.inj todo'
    obtain rfl := Act.eq_nil_of_isInstant leaves rfl
    exact .bare bare
  | @awaits pre bare mild =>
    rcases pre with - | ⟨b, pre⟩
    · obtain ⟨rfl, rfl⟩ := List.cons.inj todo'
      obtain rfl := Act.eq_nil_of_isInstant leaves rfl
      rw [fine rfl]
      have confirms : ∀ b ∈ [Act.confirm], b = .confirm := by simp
      exact .confirms confirms
    · obtain ⟨rfl, rfl⟩ := List.cons.inj todo'
      have own := bare a List.mem_cons_self
      rw [same own, same own, fine (mild a List.mem_cons_self)]
      have acts : new ++ pre.append Command.awaitConfirm = (new ++ pre) ++ Command.awaitConfirm :=
        (List.append_assoc ..).symm
      rw [acts]
      refine .awaits (fun b among => ?_) fun b among => ?_
      · exact (List.mem_append.mp among).elim (fun here => (leaves b here).isBare own)
          (fun later => bare b (List.mem_cons_of_mem _ later))
      · exact (List.mem_append.mp among).elim
          (fun here => (leaves b here).isMild (mild a List.mem_cons_self))
          (fun later => mild b (List.mem_cons_of_mem _ later))
  | @confirms pre confirms =>
    rcases pre with - | ⟨b, pre⟩
    · obtain ⟨rfl, rfl⟩ := List.cons.inj todo'
      obtain rfl := Act.eq_nil_of_isInstant leaves rfl
      exact .bare (by simp)
    · obtain ⟨rfl, rfl⟩ := List.cons.inj todo'
      obtain rfl := confirms a List.mem_cons_self
      rw [fine rfl]
      have acts : new ++ pre.append [.stage (.setWaitIndicator false)] =
          (new ++ pre) ++ [.stage (.setWaitIndicator false)] := (List.append_assoc ..).symm
      rw [acts]
      refine .confirms fun b among => ?_
      rcases List.mem_append.mp among with here | later
      · cases leaves b here with
        | stays => rfl
      · exact confirms b (List.mem_cons_of_mem _ later)
  | offers =>
    obtain ⟨rfl, rfl⟩ := List.cons.inj todo'
    rcases told with aside | ⟨call, stage⟩
    · cases aside
    · cases stage
  | @offering pre todo _ before offering =>
    rcases pre with - | ⟨b, pre⟩
    · exact offering.goes todo' told leaves fine
    · obtain ⟨rfl, rfl⟩ := List.cons.inj todo'
      have own := before a List.mem_cons_self
      rw [same (Act.isBare_of_isStill own), same (Act.isBare_of_isStill own),
        fine (Act.isMild_of_isStill own)]
      have acts : new ++ pre.append todo = (new ++ pre) ++ todo := (List.append_assoc ..).symm
      rw [acts]
      refine .offering (fun b among => ?_) offering
      exact (List.mem_append.mp among).elim (fun here => (leaves b here).isStill own)
        (fun later => before b (List.mem_cons_of_mem _ later))

/-- Whoever has something up comes to no act that can break down. -/
theorem calm (h : Handles (a :: rest) none lit shown) (up : lit = true ∨ shown = true) :
    a.asks? = none ∧ ∀ s, a ≠ .stride s := by
  generalize todo' : a :: rest = todo at h
  have still (own : a.isStill = true) : a.asks? = none ∧ ∀ s, a ≠ .stride s := by
    cases a with
    | stage | finish | resync => exact ⟨rfl, by simp⟩
    | _ => cases own
  cases h with
  | bare | clears | awaits | offers => simp at up
  | @confirms pre confirms =>
    rcases pre with - | ⟨b, pre⟩
    · obtain ⟨rfl, rfl⟩ := List.cons.inj todo'
      exact ⟨rfl, by simp⟩
    · obtain ⟨rfl, rfl⟩ := List.cons.inj todo'
      obtain rfl := confirms a List.mem_cons_self
      exact ⟨rfl, by simp⟩
  | @offering pre _ _ before offering =>
    rcases pre with - | ⟨b, pre⟩
    · cases offering <;> obtain ⟨rfl, rfl⟩ := List.cons.inj todo' <;> exact ⟨rfl, by simp⟩
    · obtain ⟨rfl, rfl⟩ := List.cons.inj todo'
      exact still (before a List.mem_cons_self)

/-- Calls of callbacks and jumps come where no widget is concerned. -/
theorem bare_of_asks (h : Handles (a :: rest) none lit shown)
    (winds : a.asks?.isSome = true ∨ ∃ label, a = .goto label) :
    (∀ b ∈ rest, b.isBare = true) ∧ lit = false ∧ shown = false := by
  have loud : a.isMild = false ∧ (∀ call, a ≠ .stage call) ∧ a ≠ .confirm := by
    rcases winds with asks | ⟨label, rfl⟩
    · cases a <;> first | exact ⟨rfl, by simp, by simp⟩ | cases asks
    · exact ⟨rfl, by simp, by simp⟩
  obtain ⟨loud, unstaged, unconfirmed⟩ := loud
  generalize todo' : a :: rest = todo at h
  cases h with
  | bare bare =>
    subst todo'
    exact ⟨fun b among => bare b (List.mem_cons_of_mem _ among), rfl, rfl⟩
  | clears => exact absurd (List.cons.inj todo').1 (unstaged _)
  | @awaits pre _ mild =>
    rcases pre with - | ⟨b, pre⟩
    · exact absurd (List.cons.inj todo').1 (unstaged _)
    · obtain ⟨rfl, rfl⟩ := List.cons.inj todo'
      rw [mild a List.mem_cons_self] at loud
      cases loud
  | @confirms pre confirms =>
    rcases pre with - | ⟨b, pre⟩
    · exact absurd (List.cons.inj todo').1 (unstaged _)
    · obtain ⟨rfl, rfl⟩ := List.cons.inj todo'
      exact absurd (confirms a List.mem_cons_self) unconfirmed
  | offers =>
    obtain ⟨rfl, rfl⟩ := List.cons.inj todo'
    rcases winds with asks | ⟨label, goto⟩
    · cases asks
    · cases goto
  | @offering pre _ _ before offering =>
    rcases pre with - | ⟨b, pre⟩
    · cases offering <;> obtain ⟨rfl, rfl⟩ := List.cons.inj todo' <;>
        rcases winds with asks | ⟨label, goto⟩ <;> first | cases asks | cases goto
    · obtain ⟨rfl, rfl⟩ := List.cons.inj todo'
      rw [Act.isMild_of_isStill (before a List.mem_cons_self)] at loud
      cases loud

/-- The acts of a choice that are no animation stand last. -/
theorem of_pick (h : Handles (a :: rest) none lit shown) (loud : a.isBare = false)
    (unstaged : ∀ call, a ≠ .stage call) (unconfirmed : a ≠ .confirm) :
    rest = [] ∧ lit = false ∧ shown = a.choices?.getD false := by
  generalize todo' : a :: rest = todo at h
  cases h with
  | bare bare =>
    subst todo'
    rw [bare a List.mem_cons_self] at loud
    cases loud
  | clears => exact absurd (List.cons.inj todo').1 (unstaged _)
  | @awaits pre bare =>
    rcases pre with - | ⟨b, pre⟩
    · exact absurd (List.cons.inj todo').1 (unstaged _)
    · obtain ⟨rfl, rfl⟩ := List.cons.inj todo'
      rw [bare a List.mem_cons_self] at loud
      cases loud
  | @confirms pre confirms =>
    rcases pre with - | ⟨b, pre⟩
    · exact absurd (List.cons.inj todo').1 (unstaged _)
    · obtain ⟨rfl, rfl⟩ := List.cons.inj todo'
      exact absurd (confirms a List.mem_cons_self) unconfirmed
  | offers =>
    obtain ⟨rfl, rfl⟩ := List.cons.inj todo'
    exact ⟨rfl, rfl, rfl⟩
  | @offering pre _ _ before offering =>
    rcases pre with - | ⟨b, pre⟩
    · cases offering with
      | opens | closes => exact absurd (List.cons.inj todo').1 (unstaged _)
      | waits | picked =>
        obtain ⟨rfl, rfl⟩ := List.cons.inj todo'
        exact ⟨rfl, rfl, rfl⟩
    · obtain ⟨rfl, rfl⟩ := List.cons.inj todo'
      rw [Act.isBare_of_isStill (before a List.mem_cons_self)] at loud
      cases loud

end Handles

end

/-! ### Turns of a run -/

/-- What the fiber's next act makes of the widget. -/
def Fiber.turns? (f : Fiber) (x : Widget) : Option Bool :=
  match f.todo, f.fault with
  | a :: _, none => a.turns? x
  | _, _ => none

section

variable {w : World} {f : Fiber} {r : Run} {a : Act} {rest : List Act} {lit shown : Bool}

theorem Fiber.turns?_cons (todo : f.todo = a :: rest) (fault : f.fault = none) (x : Widget) :
    f.turns? x = a.turns? x := by
  rw [turns?, todo, fault]

/-- Where a callback is called or a jump is made, nothing is up, and nothing is raised. -/
theorem Handles.down (h : Handles f.todo f.fault lit shown) (todo : f.todo = a :: rest)
    (fault : f.fault = none) (winds : a.asks?.isSome = true ∨ ∃ label, a = .goto label) :
    (∀ b ∈ rest, b.isBare = true) ∧ (f.turns? .indicator).getD lit = false ∧
      (f.turns? .choices).getD shown = false := by
  rw [todo, fault] at h
  obtain ⟨bare, rfl, rfl⟩ := h.bare_of_asks winds
  have none (x : Widget) : a.turns? x = none := by
    rcases winds with asks | ⟨label, rfl⟩
    · cases a <;> first | rfl | cases asks
    · rfl
  rw [Fiber.turns?_cons todo fault, Fiber.turns?_cons todo fault, none, none]
  exact ⟨bare, rfl, rfl⟩

theorem Handles.plays {p' : Plot} (h : Handles f.todo f.fault lit shown)
    (plays : Plot.Plays (f.leading r) w.plot p')
    (carry : ∀ l ∈ p'.leads, l.fault = w.faultAfter f r) :
    ∀ l ∈ p'.leads, Handles l.todo l.fault ((f.turns? .indicator).getD lit)
      ((f.turns? .choices).getD shown) := by
  have one {p : Plot} {l : Lead} : l ∈ (p.lead l).leads := List.mem_singleton.mpr rfl
  have acts {a : Act} {rest : List Act} (todo : (f.leading r).todo = a :: rest)
      (fault : (f.leading r).fault = none) (x : Widget) : f.turns? x = a.turns? x :=
    Fiber.turns?_cons todo fault x
  have own {a : Act} {rest : List Act} (todo : (f.leading r).todo = a :: rest)
      (fault : (f.leading r).fault = none) : Handles (a :: rest) none lit shown := by
    rwa [show f.todo = a :: rest from todo, show f.fault = none from fault] at h
  have ended {p : Plot} {l : Lead} {o : Outcome} : ∀ l' ∈ (p.ends l o).leads,
      Handles l'.todo l'.fault ((f.turns? .indicator).getD lit) ((f.turns? .choices).getD shown) := by
    simp [Plot.ends, Plot.quiet, Plot.add]
  cases plays with
  | completes | fails | stops | breaks => exact ended
  | @fetches c settings page todo fault =>
    intro l among
    obtain rfl := List.mem_singleton.mp among
    have todo : f.todo = [] := todo
    have silent (x : Widget) : f.turns? x = none := by rw [Fiber.turns?, todo]
    rw [todo] at h
    obtain ⟨rfl, rfl⟩ := h.of_nil
    rw [silent, silent, show Lead.fault _ = none from fault]
    exact c.handles_acts settings r.page
  | goes todo fault aside leaves =>
    intro l among
    obtain rfl := List.mem_singleton.mp among
    have raised := (carry _ one).trans (World.faultAfter_fine todo fault)
    rw [acts todo fault, acts todo fault]
    exact (own todo fault).goes (.inl aside) leaves fun mild => raised.trans (w.raised?_of_isMild r mild)
  | @skips a rest e _ _ todo fault =>
    intro l among
    obtain rfl := List.mem_singleton.mp among
    have fault : f.fault = some e := fault
    have todo : f.todo = a :: rest := todo
    have silent (x : Widget) : f.turns? x = none := by rw [Fiber.turns?, todo, fault]
    rw [todo, fault] at h
    obtain ⟨bare, rfl, rfl⟩ := h.bare_of_fault
    rw [silent, silent]
    exact .bare fun b among => bare b (List.mem_cons_of_mem _ among)
  | @shows call rest todo fault =>
    intro l among
    obtain rfl := List.mem_singleton.mp among
    have leaves : ∀ b ∈ ([] : List Act), (Act.stage call).Leaves b := by simp
    rw [acts todo fault, acts todo fault]
    exact (own todo fault).goes (.inr ⟨_, rfl⟩) leaves fun _ => fault
  | @offers options rest receiver todo fault =>
    intro l among
    obtain rfl := List.mem_singleton.mp among
    obtain ⟨rfl, rfl, rfl⟩ := (own todo fault).of_pick rfl (by simp) (by simp)
    rw [acts todo fault, acts todo fault, show Lead.fault _ = none from fault]
    have first : ∀ a ∈ [Act.stage (.setCursorVisible true)], a.isStill = true := by
      simp [Act.isStill, Act.isBare, Widget.turns?]
    have opening : ∀ a ∈ Command.animate .choiceBoxOpen, a.isStill = true := by
      simp [Command.animate, Act.isStill, Act.isBare, Widget.turns?]
    have next := Handles.offering first (.opens options receiver opening)
    exact next
  | @refuses options rest _ _ todo fault =>
    intro l among
    obtain rfl := List.mem_singleton.mp among
    obtain ⟨rfl, rfl, rfl⟩ := (own todo fault).of_pick rfl (by simp) (by simp)
    rw [acts todo fault, acts todo fault]
    exact .bare (by simp)
  | @hears receiver options rest index todo fault =>
    intro l among
    obtain rfl := List.mem_singleton.mp among
    obtain ⟨rfl, rfl, rfl⟩ := (own todo fault).of_pick rfl (by simp) (by simp)
    rw [acts todo fault, acts todo fault, show Lead.fault _ = none from fault]
    have still : ∀ a ∈ [Act.resync], a.isStill = true := by simp [Act.isStill]
    exact .offering still (.picked options index)
  | misses text todo fault => cases (carry _ one).trans (World.faultAfter_fine todo fault)
  | chooses todo fault =>
    intro l among
    obtain rfl := List.mem_singleton.mp among
    obtain ⟨rfl, rfl, rfl⟩ := (own todo fault).of_pick rfl (by simp) (by simp)
    rw [acts todo fault, acts todo fault, show Lead.fault _ = none from fault]
    have closing : ∀ a ∈ Command.animate .choiceBoxClose, a.isStill = true := by
      simp [Command.animate, Act.isStill, Act.isBare, Widget.turns?]
    have next := Handles.offering closing .closes
    exact next
  | holds todo fault | switches _ todo fault | turns todo fault | calls todo fault =>
    intro l among
    obtain rfl := List.mem_singleton.mp among
    obtain ⟨bare, lit, shown⟩ := h.down todo fault (.inl rfl)
    rw [lit, shown]
    refine .bare ?_
    first | exact bare | exact List.forall_mem_cons.mpr ⟨rfl, bare⟩
  | unheard todo fault asks =>
    intro l among
    obtain rfl := List.mem_singleton.mp among
    obtain ⟨bare, lit, shown⟩ := h.down todo fault (.inl (by simp [asks]))
    rw [lit, shown]
    exact .bare bare
  | jumps todo fault | strays todo fault =>
    intro l among
    obtain rfl := List.mem_singleton.mp among
    obtain ⟨bare, lit, shown⟩ := h.down todo fault (.inr ⟨_, rfl⟩)
    rw [lit, shown]
    exact .bare bare

end

namespace World

variable {w : World} {f : Fiber} {r : Run} {rest : List Fiber} {id : Nat} {p : Pulse}

/-- The fiber's last call about the widget raised it. -/
def isUp (w : World) (id : Nat) (x : Widget) : Bool :=
  ((w.calls id).filterMap x.turns?).getLast?.getD false

theorem turns?_scripted (x : Widget) (c : StageCall) (other : c.isScripted = false) :
    x.turns? c = none := by
  cases c <;> first | cases x <;> rfl | cases other

theorem turns?_eq (f : Fiber) (x : Widget) : f.turns? x = f.nextCall?.bind x.turns? := by
  unfold Fiber.turns? Fiber.nextCall?
  split
  · rename_i a rest todo fault
    rw [todo, fault]
    cases a <;> rfl
  · rename_i other
    split
    · rename_i call rest todo fault
      exact absurd fault (other _ _ todo)
    · rfl

theorem isUp_turn (order : w.InOrder) (ready : w.ready = f :: rest) (role : f.role = .run r)
    (x : Widget) : w.turn.isUp f.id x =
      (if f.doomed then none else f.turns? x).getD (w.isUp f.id x) := by
  have going : w.isCancelled f = false := by rw [isCancelled, role]
  rw [isUp, filterMap_calls_turn (turns?_scripted x) order ready, going, Bool.or_false,
    List.getLast?_append, isUp, turns?_eq]
  cases (if f.doomed then none else f.nextCall?.bind x.turns?) <;> simp

theorem isUp_pulse (play : w.InPlay) (other : ¬ w.OwnTurn p id) (x : Widget) :
    (w.pulse p).isUp id x = w.isUp id x := by
  rw [isUp, isUp, calls, tale_pulse play other]
  rfl

/-- A run that ends by itself has nothing up. What a run that is told to stop had up stays up. -/
theorem isUp_of_gone (play : w.InPlay) (ready : w.ready = f :: rest) (role : f.role = .run r)
    (h : SceneScript.Handles f.todo f.fault (w.isUp f.id .indicator) (w.isUp f.id .choices))
    (gone : w.turn.leads = []) : (∀ x, w.turn.isUp f.id x = x.isUpIn f.todo) ∧
      (f.doomed = false → ∀ x, w.turn.isUp f.id x = false) := by
  have left (x : Widget) : w.isUp f.id x = x.isUpIn f.todo := by
    cases x
    · exact h.isUpIn.1.symm
    · exact h.isUpIn.2.symm
  have turned := isUp_turn play.order ready role
  cases doomed : f.doomed with
  | true => exact ⟨fun x => by rw [turned, doomed]; exact left x, nofun⟩
  | false =>
    have down : (∀ x, f.turns? x = none) ∧ ∀ x, w.isUp f.id x = false := by
      have both {lit shown : Bool} (indicator : w.isUp f.id .indicator = lit)
          (choices : w.isUp f.id .choices = shown) (down : lit = false ∧ shown = false) :
          ∀ x, w.isUp f.id x = false := by
        intro x
        cases x
        · exact indicator.trans down.1
        · exact choices.trans down.2
      cases todo : f.todo with
      | nil =>
        rw [todo] at h
        exact ⟨fun x => by rw [Fiber.turns?, todo], both rfl rfl h.of_nil⟩
      | cons a after =>
        have remains (alive : w.turn.leads ≠ []) : False := alive gone
        cases fault : f.fault with
        | some e =>
          obtain ⟨f', rest', ready', -, -, role', -⟩ := turn_skips ready role doomed todo fault
          have background := isRun_eq_false_of_leads gone (f := f') (by simp [fibers, ready'])
          rw [f'.isRun_iff.mpr ⟨r, role'.trans role⟩] at background
          cases background
        | none =>
          rw [todo, fault] at h
          have act : w.act? = some a := by
            simp [act?, ready, actOf?, doomed, isCancelled, role, fault, todo]
          have breaks : a.asks?.isSome = true ∨ ∃ s, a = .stride s := by
            by_contra calm
            obtain ⟨silent, halts⟩ := not_or.mp calm
            refine leads_turn_ne_nil play.order ready role act ?_ (fun s stride => halts ⟨s, stride⟩) gone
            cases a <;> first | rfl | exact absurd rfl silent
          refine ⟨fun x => ?_, both rfl rfl ?_⟩
          · rw [Fiber.turns?, todo, fault]
            rcases breaks with asks | ⟨s, rfl⟩
            · cases a <;> first | rfl | cases asks
            · rfl
          · by_contra up
            obtain ⟨silent, halts⟩ := h.calm (by
              rw [not_and_or, Bool.not_eq_false, Bool.not_eq_false] at up
              exact up)
            rcases breaks with asks | ⟨s, stride⟩
            · rw [silent] at asks
              cases asks
            · exact halts s stride
    obtain ⟨silent, down⟩ := down
    have after (x : Widget) : w.turn.isUp f.id x = false := by
      rw [turned, doomed, silent]
      exact down x
    exact ⟨fun x => (after x).trans ((down x).symm.trans (left x)), fun _ => after⟩

/-! ### Pulse by pulse -/

/-- What was still to be put away in the last turn of the fiber is up, and nothing is unless the fiber
was told to stop. -/
def LeftAt (o : Opening) (id : Nat) (ps pre : List Pulse) (f : Fiber) : Prop :=
  pre ++ [.turn] <+: ps ∧ (o.world.pulses pre).ready.head? = some f ∧ f.id = id ∧
    (∀ x : Widget, (o.world.pulses ps).isUp id x = x.isUpIn f.todo) ∧
    (f.doomed = false → ∀ x, (o.world.pulses ps).isUp id x = false) ∧
    (f.doomed = true → ∃ run, ((o.world.pulses ps).outcomes id).getLast? = some (run, .cancelled))

/-- The run of the fiber `id` has up what it has still to put away. -/
structure Furnished (o : Opening) (id : Nat) (ps : List Pulse) : Prop where
  below : id < (o.world.pulses ps).nextFiber
  crew : ∀ f ∈ (o.world.pulses ps).hands, f.id = id → f.isRun = true
  live : ∀ l ∈ (o.world.pulses ps).leads, l.id = id → SceneScript.Handles l.todo l.fault
    ((o.world.pulses ps).isUp id .indicator) ((o.world.pulses ps).isUp id .choices)
  gone : (∀ f ∈ (o.world.pulses ps).hands, f.id ≠ id) → ∃ pre f, LeftAt o id ps pre f

theorem outcomes_turn_doomed (attended : w.plot.Attended) (ready : w.ready = f :: rest)
    (role : f.role = .run r) (doomed : f.doomed = true) :
    (w.turn.outcomes f.id).getLast? = some (r.number, .cancelled) := by
  have told (w : World) : w.outcomes f.id = tale Deed.outcome? f.id w.plot.story := by
    refine tale_entries _ (fun d idle => ?_) w f.id
    cases d with
    | outcome => cases idle
    | _ => rfl
  rw [told, plot_turn_doomed attended ready role doomed]
  rw [show tale Deed.outcome? f.id _ = _ from tale_ends _ (f.leading r) .cancelled fun _ => rfl]
  exact List.getLast?_concat

section

variable {o : Opening} {ps : List Pulse}

/-- The turn of the run's fiber. -/
theorem Furnished.own (h : Furnished o id ps) (ready : (o.world.pulses ps).ready = f :: rest)
    (same : f.id = id) :
    (∀ l ∈ (o.world.pulses ps).turn.leads, l.id = id → SceneScript.Handles l.todo l.fault
      ((o.world.pulses ps).turn.isUp id .indicator) ((o.world.pulses ps).turn.isUp id .choices)) ∧
    ((∀ f ∈ (o.world.pulses ps).turn.hands, f.id ≠ id) →
      ∃ pre f, LeftAt o id (ps ++ [.turn]) pre f) := by
  have play := inPlay_pulses o ps
  obtain ⟨_, handing⟩ := handing_pulses o ps
  have attended := play.order.staged.attended
  obtain ⟨r, role⟩ := f.isRun_iff.mp (h.crew f (mem_hands_of_ready ready) same)
  have leads : (o.world.pulses ps).leads = [f.leading r] := leads_taken attended ready role
  have handles := h.live (f.leading r) (by rw [leads]; exact List.mem_singleton.mpr rfl) same
  subst same
  have plays := (turned_turn attended ready role).1
  refine ⟨fun l among _ => ?_, fun gone => ⟨ps, f, ?_⟩⟩
  · have spared := spared_of_mem_leads attended ready role among
    have turned (x : Widget) : (o.world.pulses ps).turn.isUp f.id x =
        (f.turns? x).getD ((o.world.pulses ps).isUp f.id x) := by
      rw [isUp_turn play.order ready role, spared, if_neg nofun]
    rw [turned, turned]
    rcases plays with plays | ⟨waits, receiver, options, after, todo⟩
    · exact handles.plays plays (fault_turn play handing.desk ready role) l among
    · rw [show (o.world.pulses ps).turn.leads = _ from congrArg Plot.leads waits,
        show (o.world.pulses ps).plot.leads = _ from leads] at among
      obtain rfl := List.mem_singleton.mp among
      have silent (x : Widget) : f.turns? x = none := by
        rw [Fiber.turns?, todo]
        cases f.fault <;> rfl
      rw [silent, silent]
      exact handles
  · have alone : (o.world.pulses ps).turn.leads = [] := by
      refine List.eq_nil_iff_forall_not_mem.mpr fun l among => ?_
      obtain ⟨g, here, -, lead⟩ := exists_of_mem_leads among
      have id : l.id = f.id := by
        rcases plays with plays | ⟨waits, -⟩
        · exact plays.within.leads l among
        · rw [show (o.world.pulses ps).turn.leads = _ from congrArg Plot.leads waits,
            show (o.world.pulses ps).plot.leads = _ from leads] at among
          exact congrArg Lead.id (List.mem_singleton.mp among)
      exact gone g (mem_hands.mpr here) (by rw [← id, lead])
    have after : o.world.pulses (ps ++ [.turn]) = (o.world.pulses ps).turn := pulses_concat ..
    obtain ⟨left, put⟩ := isUp_of_gone play ready role handles alone
    rw [LeftAt, after]
    refine ⟨List.prefix_refl _, by rw [ready]; rfl, rfl, left, put, fun doomed => ⟨r.number, ?_⟩⟩
    exact outcomes_turn_doomed attended ready role doomed

theorem Furnished.pulse (h : Furnished o id ps) (p : Pulse) : Furnished o id (ps ++ [p]) := by
  have play := inPlay_pulses o ps
  have after : o.world.pulses (ps ++ [p]) = (o.world.pulses ps).pulse p := pulses_concat ..
  have both : (∀ l ∈ ((o.world.pulses ps).pulse p).leads, l.id = id → SceneScript.Handles l.todo l.fault
        (((o.world.pulses ps).pulse p).isUp id .indicator)
        (((o.world.pulses ps).pulse p).isUp id .choices)) ∧
      ((∀ f ∈ ((o.world.pulses ps).pulse p).hands, f.id ≠ id) →
        ∃ pre f, LeftAt o id (ps ++ [p]) pre f) := by
    by_cases own : (o.world.pulses ps).OwnTurn p id
    · obtain ⟨rfl, f, head, same⟩ := own
      obtain ⟨rest, ready⟩ := List.head?_eq_some_iff.mp head
      exact h.own ready same
    have still := isUp_pulse (p := p) play own
    refine ⟨fun l among same => ?_, fun gone => ?_⟩
    · rw [still, still]
      refine h.live l ?_ same
      cases acted o ps p with
      | beside touched =>
        rwa [show (o.world.pulses ps).leads = _ from touched.leads.symm]
      | starts _ _ _ _ _ plot =>
        rw [show ((o.world.pulses ps).pulse p).leads = _ from congrArg Plot.leads plot] at among
        obtain rfl := List.mem_singleton.mp among
        exact absurd same (Nat.ne_of_gt h.below)
      | @plays f rest r turn ready role plays =>
        refine absurd ⟨turn, f, by rw [ready]; rfl, ?_⟩ own
        rw [← same, plays.within.leads l among]
        rfl
    · have gone' : ∀ f ∈ (o.world.pulses ps).hands, f.id ≠ id := by
        intro f among same
        obtain ⟨g, among', calm⟩ := mem_hands_pulse (p := p) play among (same ▸ own)
        have id' : g.id = f.id := congrArg (·.id) calm
        exact gone g among' (id'.trans same)
      obtain ⟨pre, f, early, head, same, left, put, stopped⟩ := h.gone gone'
      refine ⟨pre, f, early.trans (List.prefix_append ps [p]), head, same, ?_, ?_, ?_⟩
      · intro x
        rw [after, still]
        exact left x
      · intro spared x
        rw [after, still]
        exact put spared x
      · intro doomed
        rw [after, outcomes, tale_pulse play own]
        exact stopped doomed
  rw [← after] at both
  refine ⟨?_, fun f among same => ?_, both.1, both.2⟩
  · rw [after]
    exact Nat.lt_of_lt_of_le h.below (nextFiber_pulse play p)
  · rw [after] at among
    obtain ⟨g, among', id', isRun, -⟩ := of_mem_hands_pulse play among (same ▸ h.below)
    rw [← isRun]
    exact h.crew g among' (id'.trans same)

theorem furnished_pulses (o : Opening) (before after : List Pulse) {n run : Nat}
    (accepted : ((o.world.pulses before).apply (.execute n)).2 = .number run) :
    Furnished o (o.world.pulses before).nextFiber (before ++ .host (.execute n) rfl :: after) := by
  induction after using List.reverseRecOn with
  | append_singleton after p ih =>
    have along : before ++ .host (.execute n) rfl :: (after ++ [p]) =
        (before ++ .host (.execute n) rfl :: after) ++ [p] := by simp
    rw [along]
    exact ih.pulse p
  | nil =>
    have play := inPlay_pulses o before
    have there := inPlay_pulses o (before ++ [.host (.execute n) rfl])
    have after : o.world.pulses (before ++ [.host (.execute n) rfl]) =
        (o.world.pulses before).pulse (.host (.execute n) rfl) := pulses_concat ..
    rcases execute_cases_plot (o.world.pulses before) n play.order.actor play.order.staged.attended
      with ⟨e, result, -⟩ | ⟨q, q', -, -, -, -, -, plot⟩
    · rw [result] at accepted
      cases accepted
    have leads : (o.world.pulses (before ++ [.host (.execute n) rfl])).leads =
        [⟨(o.world.pulses before).nextFiber, ⟨(o.world.pulses before).runs, q', 0, .empty⟩, [],
          none⟩] := by
      rw [after]
      exact congrArg Plot.leads plot
    have silent (x : Widget) : (o.world.pulses (before ++ [.host (.execute n) rfl])).isUp
        (o.world.pulses before).nextFiber x = false := by
      rw [after, isUp_pulse play play.order.not_ownTurn_young, isUp, calls,
        tale_young o before (Nat.le_refl _)]
      rfl
    refine ⟨?_, fun f among same => ?_, fun l among _ => ?_, fun gone => ?_⟩
    · rw [after]
      have fibers := congrArg Plot.fibers plot
      exact Nat.lt_of_lt_of_eq (Nat.lt_succ_self _) fibers.symm
    · obtain ⟨l, rfl⟩ : ∃ l : Lead, l = ⟨(o.world.pulses before).nextFiber,
        ⟨(o.world.pulses before).runs, q', 0, .empty⟩, [], none⟩ := ⟨_, rfl⟩
      have lead := there.order.crewed.lead (by rw [leads]; exact List.mem_singleton.mpr rfl)
        (mem_hands.mp among) same
      exact f.isRun_iff.mpr ⟨_, (lead?_eq_some lead).1⟩
    · rw [leads] at among
      obtain rfl := List.mem_singleton.mp among
      rw [silent, silent]
      exact .bare (by simp)
    · obtain ⟨g, here, -, lead⟩ := exists_of_mem_leads (by rw [leads]; exact List.mem_singleton.mpr rfl)
      exact absurd (congrArg Lead.id lead).symm (gone g (mem_hands.mpr here))

end

/-- A run that ends other than by being told to stop has put every widget away. A run that is told to
stop leaves up exactly what it had still to put away. -/
theorem widgets_stay_as_left (o : Opening) (before after : List Pulse) {n run : Nat}
    {commands : List Command} (script : o.scripts[n]? = some commands)
    (accepted : ((o.world.pulses before).apply (.execute n)).2 = .number run) :
    let id := (o.world.pulses before).nextFiber
    let ps := before ++ .host (.execute n) rfl :: after
    let w := o.world.pulses ps
    ∀ out, w.outcomes id = [(run, out)] → (out ≠ .cancelled → ∀ x, w.isUp id x = false) ∧
      ∃ pre f, pre ++ [.turn] <+: ps ∧ (o.world.pulses pre).ready.head? = some f ∧ f.id = id ∧
        ∀ x, w.isUp id x = x.isUpIn f.todo := by
  intro id ps w out ends
  have furnished : Furnished o id ps := furnished_pulses o before after accepted
  have gone : ∀ f ∈ w.hands, f.id ≠ id := by
    intro f among same
    cases judged_pulses o before after script accepted with
    | underway l under lead =>
      have going : w.outcomes l.id = [] := by
        rw [outcomes_told, told_eq, outcomes_of_passing under.told]
      rw [lead, ends] at going
      cases going
    | ended _ ended =>
      obtain ⟨r, role⟩ := f.isRun_iff.mp (furnished.crew f among same)
      exact ended.gone (f.leading r)
        (List.mem_filterMap.mpr ⟨f, mem_hands.mp among, lead?_of_role role⟩) same
  obtain ⟨pre, f, early, head, same, left, put, stopped⟩ := furnished.gone gone
  refine ⟨fun unstopped => put (Bool.eq_false_iff.mpr fun doomed => ?_), pre, f, early, head, same,
    left⟩
  obtain ⟨run', last⟩ := stopped doomed
  rw [ends] at last
  exact unstopped (congrArg Prod.snd (Option.some.inj last))

/-- A text without a word, once it is confirmed. -/
theorem widgets_stay_as_left_confirmed :
    let o : Opening := ⟨default, default, 8, default, .empty, [[.text "ferryman" "" false .left]]⟩
    let after := List.replicate 12 .turn ++ [.publish ⟨1⟩ ⟨true, false⟩] ++ List.replicate 4 .turn
    let w := o.world.pulses (.host (.execute 0) rfl :: after)
    (o.world.apply (.execute 0)).2 = .number 0 ∧ w.outcomes 0 = [(0, .completed)] ∧
      ∀ x, w.isUp 0 x = false := by
  intro o after w
  have ends : w.outcomes 0 = [(0, .completed)] := by decide +kernel
  exact ⟨rfl, ends, (widgets_stay_as_left o [] after rfl rfl _ ends).1 (by simp)⟩

/-- A run that is told to stop while it awaits a confirmation leaves the indicator up, and one that is
told to stop while a choice is open leaves the choices up. -/
theorem stopped_runs_leave_widgets :
    let o : Opening :=
      ⟨default, default, 8, default, .empty,
        [[.text "ferryman" "" false .left], [.choice ["wait", "leave"]]]⟩
    let stopped (n : Nat) : List Pulse :=
      .host (.execute n) rfl :: List.replicate 12 .turn ++ [.host (.abort 0) rfl, .turn]
    ((o.world.pulses (stopped 0)).outcomes 0 = [(0, .cancelled)] ∧
      (o.world.pulses (stopped 0)).isUp 0 .indicator = true) ∧
    (o.world.pulses (stopped 1)).outcomes 0 = [(0, .cancelled)] ∧
      (o.world.pulses (stopped 1)).isUp 0 .choices = true := by
  decide +kernel

end World

end SceneScript
