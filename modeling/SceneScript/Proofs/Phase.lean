import SceneScript.Proofs.Plot
/-!
How far a command under way has come, told by the acts that are left of it. A choice shows the
host's cursor until its box is closed; nothing else does.
-/

namespace SceneScript

namespace Command

/-- Commands that neither call the script's callbacks nor jump nor ask for a choice. -/
def isPlain : Command → Bool
  | choice _ | branch .. | switch _ | goto _ | action _ => false
  | _ => true

/-- Commands that the script may have to wait in. -/
def blocks : Command → Bool
  | wait _ | text .. | choice _ | boxState _ | flash .. | sceneLoad .. | readModeStart
  | readModeText _ | readModeClear | readModeEnd => true
  | _ => false

def isChoice (c : Command) : Bool := c.opcode == .choice

end Command

def Act.isDocile (a : Act) : Bool := a.isAside && !a.catches

structure Plain (c : Command) (todo : List Act) : Prop where
  plain : c.isPlain = true
  aside : ∀ a ∈ todo, a.isAside = true
  instant : c.blocks = false → ∀ a ∈ todo, a.isInstant = true

/-- `Phase c todo shown picks`: with `todo` left of it, `c` shows the cursor or not, and can still
come to a pick or not. -/
inductive Phase : Command → List Act → Bool → Bool → Prop where
  | plain {c : Command} {todo : List Act} : Plain c todo → Phase c todo false false
  | spent (c : Command) : Phase c [] false false
  | asks (predicate : Nat) (otherwise : String) :
      Phase (.branch predicate otherwise) [.branch predicate otherwise] false false
  | fallsBack (predicate : Nat) (otherwise : String) :
      Phase (.branch predicate otherwise) [.goto otherwise] false false
  | selects (selector : Nat) : Phase (.switch selector) [.switch selector] false false
  | selected (selector : Nat) (label : String) :
      Phase (.switch selector) [.goto label] false false
  | jumps (label : String) : Phase (.goto label) [.goto label] false false
  | calls (action : Nat) : Phase (.action action) [.action action] false false
  | offers (options : List String) : Phase (.choice options) [.offer options] false true
  | opens (options : List String) (receiver : Nat) {pre : List Act} :
      (∀ a ∈ pre, a.isDocile = true) →
      Phase (.choice options) (.stage (.setCursorVisible true) :: pre ++ [.answer receiver options])
        false true
  | open (options : List String) (receiver : Nat) {pre : List Act} :
      (∀ a ∈ pre, a.isDocile = true) →
      Phase (.choice options) (pre ++ [.answer receiver options]) true true
  | picked (options : List String) (index : Nat) {pre : List Act} :
      (∀ a ∈ pre, a.isDocile = true) →
      Phase (.choice options) (pre ++ [.chosen index options]) true true
  | closes (options : List String) {pre : List Act} : (∀ a ∈ pre, a.isDocile = true) →
      Phase (.choice options) (pre ++ [.stage (.setCursorVisible false)]) true false

/-- With an error on its way, a plain command may still come to handle it. Any other is lost, and
whether the cursor is shown depends on where the error came up. -/
inductive Course (c : Command) : List Act → Option Failure → Bool → Bool → Prop where
  | fine {todo : List Act} {shown picks : Bool} : Phase c todo shown picks →
      Course c todo none shown picks
  | flawed {todo : List Act} {e : Failure} : Plain c todo → Course c todo (some e) false false
  | lost {todo : List Act} {e : Failure} {shown : Bool} : (c.isChoice = false → shown = false) →
      (∀ a ∈ todo, a.catches = false) → Course c todo (some e) shown false

namespace Act

theorem Leaves.not_catches {a b : Act} (h : a.Leaves b) : b.catches = false := by
  cases h with
  | stays h => cases a <;> simp_all [suspends, catches]
  | takes | paints | shows | pauses | reveals | counts | clears => rfl
  | loads mem =>
    have scenic := isScenic_of_mem_acts mem
    cases b <;> simp_all [isScenic, catches]

theorem Leaves.isDocile {a b : Act} (h : a.Leaves b) (aside : a.isAside = true) :
    b.isDocile = true := by
  simp [Act.isDocile, h.isAside aside, h.not_catches]

theorem isAside_of_isDocile {a : Act} (h : a.isDocile = true) : a.isAside = true := by
  simp_all [isDocile]

theorem not_catches_of_isDocile {a : Act} (h : a.isDocile = true) : a.catches = false := by
  simp_all [isDocile]

end Act

theorem Act.isAside_of_asks {a : Act} {x : CallbackKind × Nat} (h : a.asks? = some x) :
    a.isAside = false := by
  cases a with
  | branch | switch | action => rfl
  | _ => cases h

/-! ### The acts of a command -/

namespace Command

theorem aside_acts {c : Command} (settings : Settings) (page : Page) (plain : c.isPlain = true) :
    (c.acts settings page).all Act.isAside = true := by
  cases c with
  | choice | branch | switch | goto | action => cases plain
  | text speaker body skippable place =>
    have named : (Act.stage (nameBox settings speaker place)).isAside = true := by
      unfold nameBox
      split <;> rfl
    simp only [acts, List.cons_append, List.all_cons, named]
    rfl
  | boxState opening => cases opening <;> rfl
  | image layer texture => cases texture <;> rfl
  | portrait place texture => cases texture <;> rfl
  | _ => rfl

theorem instant_acts {c : Command} (settings : Settings) (page : Page) (plain : c.isPlain = true)
    (brief : c.blocks = false) : (c.acts settings page).all Act.isInstant = true := by
  cases c with
  | choice | branch | switch | goto | action => cases plain
  | image layer texture => cases texture <;> rfl
  | portrait place texture => cases texture <;> rfl
  | log | label | soundPlay | soundStop | timer | timerStop => rfl
  | _ => cases brief

theorem plain_acts {c : Command} (settings : Settings) (page : Page) (plain : c.isPlain = true) :
    Plain c (c.acts settings page) where
  plain := plain
  aside := List.all_eq_true.mp (aside_acts settings page plain)
  instant := fun brief => List.all_eq_true.mp (instant_acts settings page plain brief)

theorem phase_acts (c : Command) (settings : Settings) (page : Page) :
    Phase c (c.acts settings page) false c.isChoice := by
  by_cases plain : c.isPlain = true
  · have brief : c.isChoice = false := by cases c <;> simp_all [isPlain, isChoice, opcode]
    rw [brief]
    exact .plain (plain_acts settings page plain)
  cases c with
  | choice options => exact .offers options
  | branch predicate otherwise => exact .asks predicate otherwise
  | switch selector => exact .selects selector
  | goto label => exact .jumps label
  | action action => exact .calls action
  | _ => exact absurd rfl plain

theorem phase_opening (options : List String) (receiver : Nat) :
    Phase (.choice options) (Act.opening receiver options) false true :=
  .opens options receiver (by simp [animate, Act.isDocile, Act.isAside, Act.catches])

theorem phase_closing (options : List String) : Phase (.choice options) Act.closing true false := by
  have docile : ∀ a ∈ animate .choiceBoxClose ++ [.stage .hideChoices], a.isDocile = true := by
    simp [animate, Act.isDocile, Act.isAside, Act.catches]
  exact .closes options docile

end Command

/-! ### Phases follow the acts -/

namespace Phase

variable {c : Command} {a : Act} {rest : List Act} {shown picks : Bool}

theorem cons_append_cases {pre : List Act} {x : Act} (h : pre ++ [x] = a :: rest) :
    (pre = [] ∧ a = x ∧ rest = []) ∨ ∃ pre', pre = a :: pre' ∧ rest = pre' ++ [x] := by
  cases pre with
  | nil =>
    obtain ⟨rfl, rfl⟩ := List.cons.inj h
    exact .inl ⟨rfl, rfl, rfl⟩
  | cons b pre' =>
    obtain ⟨rfl, rfl⟩ := List.cons.inj h
    exact .inr ⟨pre', rfl, rfl⟩

theorem docile_append {new pre : List Act} (aside : a.isAside = true) (leaves : ∀ b ∈ new, a.Leaves b)
    (docile : ∀ b ∈ a :: pre, b.isDocile = true) : ∀ b ∈ new ++ pre, b.isDocile = true := by
  intro b hb
  rcases List.mem_append.mp hb with hb | hb
  · exact (leaves b hb).isDocile aside
  · exact docile b (List.mem_cons_of_mem _ hb)

theorem goes {new todo : List Act} (h : Phase c todo shown picks) (todo' : todo = a :: rest)
    (aside : a.isAside = true) (leaves : ∀ b ∈ new, a.Leaves b) :
    Phase c (new ++ rest) shown picks := by
  cases h with
  | plain h =>
    subst todo'
    refine .plain ⟨h.plain, fun b hb => ?_, fun brief b hb => ?_⟩
    · rcases List.mem_append.mp hb with hb | hb
      · exact (leaves b hb).isAside aside
      · exact h.aside b (List.mem_cons_of_mem _ hb)
    · have instant := h.instant brief
      rcases List.mem_append.mp hb with hb | hb
      · have := (leaves b hb).not_isInstant
        rw [instant a List.mem_cons_self] at this
        cases this
      · exact instant b (List.mem_cons_of_mem _ hb)
  | spent => cases todo'
  | asks | fallsBack | selects | selected | jumps | calls | offers | opens =>
    obtain ⟨rfl, -⟩ := List.cons.inj todo'
    cases aside
  | «open» options receiver docile =>
    rcases cons_append_cases todo' with ⟨-, rfl, -⟩ | ⟨pre', rfl, rfl⟩
    · cases aside
    · rw [← List.append_assoc]
      exact .open options receiver (docile_append aside leaves docile)
  | picked options index docile =>
    rcases cons_append_cases todo' with ⟨-, rfl, -⟩ | ⟨pre', rfl, rfl⟩
    · cases aside
    · rw [← List.append_assoc]
      exact .picked options index (docile_append aside leaves docile)
  | closes options docile =>
    rcases cons_append_cases todo' with ⟨-, rfl, -⟩ | ⟨pre', rfl, rfl⟩
    · cases aside
    · rw [← List.append_assoc]
      exact .closes options (docile_append aside leaves docile)

/-- A phase whose first act is not beside the script. -/
inductive Loud : Command → Act → List Act → Bool → Bool → Prop where
  | asks (predicate : Nat) (otherwise : String) :
      Loud (.branch predicate otherwise) (.branch predicate otherwise) [] false false
  | fallsBack (predicate : Nat) (otherwise : String) :
      Loud (.branch predicate otherwise) (.goto otherwise) [] false false
  | selects (selector : Nat) : Loud (.switch selector) (.switch selector) [] false false
  | selected (selector : Nat) (label : String) : Loud (.switch selector) (.goto label) [] false false
  | jumps (label : String) : Loud (.goto label) (.goto label) [] false false
  | calls (action : Nat) : Loud (.action action) (.action action) [] false false
  | offers (options : List String) : Loud (.choice options) (.offer options) [] false true
  | opens (options : List String) {rest : List Act} : Phase (.choice options) rest true true →
      Loud (.choice options) (.stage (.setCursorVisible true)) rest false true
  | open (options : List String) (receiver : Nat) :
      Loud (.choice options) (.answer receiver options) [] true true
  | picked (options : List String) (index : Nat) :
      Loud (.choice options) (.chosen index options) [] true true
  | closes (options : List String) :
      Loud (.choice options) (.stage (.setCursorVisible false)) [] true false

theorem loud {todo : List Act} (h : Phase c todo shown picks) (todo' : todo = a :: rest)
    (told : a.isAside = false) : Loud c a rest shown picks := by
  -- Acts beside the script come before the one that is not.
  have first {pre : List Act} {x : Act} (docile : ∀ b ∈ pre, b.isDocile = true)
      (h : pre ++ [x] = a :: rest) : a = x ∧ rest = [] := by
    rcases cons_append_cases h with ⟨-, first⟩ | ⟨pre', rfl, -⟩
    · exact first
    · have aside := Act.isAside_of_isDocile (docile a List.mem_cons_self)
      rw [told] at aside
      cases aside
  cases h with
  | plain h =>
    subst todo'
    have aside := h.aside a List.mem_cons_self
    rw [told] at aside
    cases aside
  | spent => cases todo'
  | opens options receiver docile =>
    obtain ⟨rfl, rfl⟩ := List.cons.inj todo'
    exact .opens options (.open options receiver docile)
  | «open» options receiver docile =>
    obtain ⟨rfl, rfl⟩ := first docile todo'
    exact .open options receiver
  | picked options index docile =>
    obtain ⟨rfl, rfl⟩ := first docile todo'
    exact .picked options index
  | closes options docile =>
    obtain ⟨rfl, rfl⟩ := first docile todo'
    exact .closes options
  | _ =>
    obtain ⟨rfl, rfl⟩ := List.cons.inj todo'
    constructor

theorem course {todo : List Act} {fault : Option Failure} (h : Phase c todo shown picks)
    (fine : fault = none) : Course c todo fault shown picks := by
  rw [fine]
  exact .fine h

theorem nil {todo : List Act} (h : Phase c todo shown picks) (todo' : todo = []) :
    shown = false ∧ picks = false := by
  cases h with
  | plain | spent => exact ⟨rfl, rfl⟩
  | «open» | picked | closes => simp at todo'
  | _ => cases todo'

/-- While a command waits the cursor tells whether it is a choice. -/
theorem suspended {todo : List Act} (h : Phase c todo shown picks) (todo' : todo = a :: rest)
    (suspends : a.suspends = true) : shown = c.isChoice := by
  cases h with
  | plain h =>
    have plain := h.plain
    cases c <;> first | rfl | cases plain
  | spent => cases todo'
  | «open» | picked | closes => rfl
  | _ =>
    obtain ⟨rfl, -⟩ := List.cons.inj todo'
    cases suspends

theorem flaw {todo : List Act} (h : Phase c todo shown picks) (e : Failure) :
    Course c todo (some e) shown false := by
  have lost {pre : List Act} {x : Act} (docile : ∀ b ∈ pre, b.isDocile = true)
      (last : x.catches = false) : ∀ b ∈ pre ++ [x], b.catches = false := by
    intro b hb
    rcases List.mem_append.mp hb with hb | hb
    · exact Act.not_catches_of_isDocile (docile b hb)
    · rwa [List.mem_singleton.mp hb]
  cases h with
  | plain h => exact .flawed h
  | opens options receiver docile =>
    refine .lost (by simp) fun b hb => ?_
    rcases List.mem_cons.mp hb with rfl | hb
    · rfl
    · exact lost docile rfl b hb
  | «open» options receiver docile | picked options index docile | closes options docile =>
    exact .lost (by simp [Command.isChoice, Command.opcode]) (lost docile rfl)
  | _ => exact .lost (by simp) (by simp [Act.catches])

end Phase

namespace Course

variable {c : Command} {a : Act} {rest : List Act} {shown picks : Bool}

theorem phase {todo : List Act} (h : Course c todo none shown picks) : Phase c todo shown picks := by
  cases h
  assumption

theorem skips {fault : Option Failure} {e : Failure} (h : Course c (a :: rest) (some e) shown picks)
    (handled : fault = some e ∨ a.catches = true ∧ fault = none) :
    Course c rest fault shown false := by
  cases h with
  | flawed h =>
    have plain : Plain c rest := ⟨h.plain, fun b hb => h.aside b (List.mem_cons_of_mem _ hb),
      fun brief b hb => h.instant brief b (List.mem_cons_of_mem _ hb)⟩
    rcases handled with rfl | ⟨-, rfl⟩
    · exact .flawed plain
    · exact .fine (.plain plain)
  | lost hidden lost =>
    rcases handled with rfl | ⟨catches, -⟩
    · exact .lost hidden fun b hb => lost b (List.mem_cons_of_mem _ hb)
    · rw [lost a List.mem_cons_self] at catches
      cases catches

end Course

end SceneScript
