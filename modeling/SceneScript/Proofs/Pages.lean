import Mathlib.Data.List.DropRight
import SceneScript.Proofs.Readings
import SceneScript.Proofs.Widgets
/-!
The page of the read mode. A run keeps a page, and the stage shows one: what a run has left to do tells
how far the stage is behind (`Papers`). The page that a run keeps holds the paragraphs since it was
emptied last, and the stage hides none of them before that (`pages_accumulate`). Leaving the read mode
empties the page of the run alone (`stage_keeps_left_page`).
-/

namespace SceneScript

/-! ### The two pages -/

namespace Command

def emptiesPage : Command → Bool
  | readModeClear | readModeEnd => true
  | _ => false

/-- The page on stage is written anew. -/
def writesPage : Command → Bool
  | readModeText _ | readModeClear => true
  | _ => false

def paragraph? (settings : Settings) : Command → Option String
  | readModeText t => some (Page.breakLines settings.readModeLineBreak t)
  | _ => none

def pageText? : Command → Option String
  | readModeText t => some t
  | _ => none

/-- The text on stage when the command is done. -/
def stagedAfter (settings : Settings) (page : Page) (staged : String) : Command → String
  | readModeText t => (page.append (Page.breakLines settings.readModeLineBreak t)).text
  | readModeClear => ""
  | _ => staged

theorem eq_of_pageText? {c? : Option Command} {t : String} (found : c?.bind pageText? = some t) :
    c? = some (readModeText t) := by
  obtain ⟨c, rfl, held⟩ := Option.bind_eq_some_iff.mp found
  cases c with
  | readModeText => exact congrArg (fun t => some (readModeText t)) (Option.some.inj held)
  | _ => cases held

end Command

section

variable {settings : Settings} {cs : List Command} {c : Command}

/-- The page that a run keeps when it has come to these commands. -/
def Page.after (settings : Settings) (cs : List Command) : Page :=
  cs.foldl (fun page c => c.pageAfter settings page) .empty

/-- The paragraphs since the page was emptied last. -/
def paragraphs (settings : Settings) (cs : List Command) : List String :=
  (cs.rtakeWhile fun c => !c.emptiesPage).filterMap (·.paragraph? settings)

/-- The text on stage is that of the page as it was after the last text, or after it was cleared. -/
def stagedText (settings : Settings) (cs : List Command) : String :=
  (Page.after settings (cs.rdropWhile fun c => !c.writesPage)).text

theorem Page.after_concat (settings : Settings) (cs : List Command) (c : Command) :
    Page.after settings (cs ++ [c]) = c.pageAfter settings (Page.after settings cs) :=
  List.foldl_concat ..

theorem paragraphs_concat (settings : Settings) (cs : List Command) (c : Command) :
    paragraphs settings (cs ++ [c]) = if c.emptiesPage then []
      else paragraphs settings cs ++ (c.paragraph? settings).toList := by
  rw [paragraphs, List.rtakeWhile_concat]
  cases c.emptiesPage with
  | true => rfl
  | false =>
    show ((cs.rtakeWhile fun c => !c.emptiesPage) ++ [c]).filterMap _ = _ ++ _
    rw [List.filterMap_append]
    refine congrArg (paragraphs settings cs ++ ·) ?_
    cases held : c.paragraph? settings <;> simp [held]

theorem stagedText_concat (settings : Settings) (cs : List Command) (c : Command) :
    stagedText settings (cs ++ [c]) =
      c.stagedAfter settings (Page.after settings cs) (stagedText settings cs) := by
  rw [stagedText, List.rdropWhile_concat]
  cases c with
  | readModeText | readModeClear =>
    rw [if_neg (by simp [Command.writesPage]), Page.after_concat]
    rfl
  | _ => rfl

/-- The page holds the paragraphs since it was emptied last, and all of them are shown. -/
theorem Page.after_eq (settings : Settings) (cs : List Command) :
    (Page.after settings cs).text = String.join (paragraphs settings cs) ∧
      (Page.after settings cs).shown = (Page.after settings cs).text.length := by
  induction cs using List.reverseRecOn with
  | nil => exact ⟨rfl, rfl⟩
  | append_singleton cs c ih =>
    obtain ⟨text, shown⟩ := ih
    rw [Page.after_concat, paragraphs_concat]
    cases c with
    | readModeText t =>
      let paragraph := Page.breakLines settings.readModeLineBreak t
      have joined : String.join (paragraphs settings cs ++ [paragraph]) =
          (Page.after settings cs).text ++ paragraph := by
        rw [String.join_append, text]
        simp
      refine ⟨joined.symm, ?_⟩
      show (Page.after settings cs).shown + paragraph.length =
        ((Page.after settings cs).text ++ paragraph).length
      rw [String.length_append, shown]
    | readModeClear | readModeEnd => exact ⟨rfl, rfl⟩
    | _ => exact ⟨text.trans (congrArg String.join (List.append_nil _).symm), shown⟩

/-- Until the read mode is left, the stage shows the page that the run keeps. -/
theorem stagedText_eq (stays : ∀ c ∈ cs.rtakeWhile fun c => !c.writesPage, c ≠ .readModeEnd) :
    stagedText settings cs = (Page.after settings cs).text := by
  induction cs using List.reverseRecOn with
  | nil => rfl
  | append_singleton cs c ih =>
    rw [stagedText_concat, Page.after_concat]
    rw [List.rtakeWhile_concat] at stays
    cases c with
    | readModeText | readModeClear => rfl
    | readModeEnd => exact absurd rfl (stays _ (by simp [Command.writesPage]))
    | _ => exact ih fun c among => stays c (List.mem_append_left _ among)

end

/-! ### What stands on stage -/

/-- The page is taken off the stage, whatever it held. -/
def StageCall.clears : StageCall → Bool
  | .playAnimation .readModeSentenceClean | .playAnimation .readModeExit => true
  | _ => false

def StageCall.pageText? : StageCall → Option String
  | .setReadModeText t => some t
  | _ => none

/-- Calls for the page. -/
def StageCall.isPaged : StageCall → Bool
  | .setReadModeText _ | .setReadModeVisible _ => true
  | c => c.clears

/-- The page on stage: its text, how much of it is visible, and whether whatever had become visible
stayed so until the page was taken off. -/
structure Slate where
  text : String
  visible : Nat
  steady : Bool

namespace Slate

def heed (s : Slate) : StageCall → Slate
  | .setReadModeText t => { s with text := t }
  | .setReadModeVisible n => { s with visible := n, steady := s.steady && decide (s.visible ≤ n) }
  | c => if c.clears then { s with visible := 0 } else s

/-- What an act makes of the page at once. -/
def perform (s : Slate) : Act → Slate
  | .stage c => s.heed c
  | _ => s

def blank : Slate := ⟨"", 0, true⟩

/-- What calls make of the page on stage. -/
def of (calls : List StageCall) : Slate := calls.foldl heed blank

def paged? (c : StageCall) : Option StageCall := if c.isPaged then some c else none

theorem heed_of_unpaged (s : Slate) {c : StageCall} (plain : c.isPaged = false) : s.heed c = s := by
  cases c with
  | playAnimation a => cases a <;> first | rfl | cases plain
  | setReadModeText | setReadModeVisible => cases plain
  | _ => rfl

theorem paged?_scripted (c : StageCall) (other : c.isScripted = false) : paged? c = none := by
  cases c with
  | playAnimation a => cases a <;> first | rfl | cases other
  | setReadModeText | setReadModeVisible => cases other
  | _ => rfl

theorem of_paged (calls : List StageCall) : of calls = of (calls.filterMap paged?) := by
  induction calls using List.reverseRecOn with
  | nil => rfl
  | append_singleton calls c ih =>
    have last (calls : List StageCall) : of (calls ++ [c]) = (of calls).heed c := List.foldl_concat ..
    rw [last, List.filterMap_append, ih]
    cases paged : c.isPaged with
    | true => simp [paged?, paged, of]
    | false => simp [paged?, paged, heed_of_unpaged _ paged]

/-- The text on stage is that of the last call for it. -/
theorem text_of (calls : List StageCall) :
    (of calls).text = (calls.filterMap StageCall.pageText?).getLast?.getD "" := by
  induction calls using List.reverseRecOn with
  | nil => rfl
  | append_singleton calls c ih =>
    have last : of (calls ++ [c]) = (of calls).heed c := List.foldl_concat ..
    rw [last, List.filterMap_append, List.getLast?_append]
    cases c with
    | playAnimation a => cases a <;> exact ih
    | setReadModeText t => rfl
    | _ => exact ih

theorem steady_of_heed {s : Slate} {c : StageCall} (h : (s.heed c).steady = true) :
    s.steady = true := by
  cases c with
  | playAnimation a => cases a <;> exact h
  | setReadModeVisible n => exact (Bool.and_eq_true_iff.mp h).1
  | _ => exact h

theorem visible_le (calls : List StageCall) (s : Slate)
    (kept : (calls.foldl heed s).steady = true) (stays : ∀ c ∈ calls, c.clears = false) :
    s.visible ≤ (calls.foldl heed s).visible := by
  induction calls using List.reverseRecOn with
  | nil => exact Nat.le_refl _
  | append_singleton calls c ih =>
    rw [List.foldl_concat] at kept ⊢
    have before := ih (steady_of_heed kept) fun c among => stays c (List.mem_append_left _ among)
    have own := stays c (List.mem_append_right _ (List.mem_singleton.mpr rfl))
    cases c with
    | setReadModeVisible n =>
      exact Nat.le_trans before (of_decide_eq_true (Bool.and_eq_true_iff.mp kept).2)
    | playAnimation a => cases a <;> first | exact before | cases own
    | _ => exact before

/-- Whatever has become visible stays so until the page is taken off. -/
theorem visible_le_of_steady {calls before between after : List StageCall} {n m : Nat}
    (steady : (of calls).steady = true)
    (split : calls = before ++ .setReadModeVisible n :: (between ++ .setReadModeVisible m :: after))
    (stays : ∀ c ∈ between, c.clears = false) : n ≤ m := by
  have early (calls : List StageCall) (s : Slate) (steady : (calls.foldl heed s).steady = true) :
      s.steady = true := by
    induction calls using List.reverseRecOn with
    | nil => exact steady
    | append_singleton calls c ih =>
      rw [List.foldl_concat] at steady
      exact ih (steady_of_heed steady)
  rw [of, split, List.foldl_append, List.foldl_cons, List.foldl_append, List.foldl_cons] at steady
  have last := early _ _ steady
  have kept := steady_of_heed last
  exact Nat.le_trans (visible_le between _ kept stays)
    (of_decide_eq_true (Bool.and_eq_true_iff.mp last).2)

end Slate

/-! ### What is left to write -/

namespace Act

def isPaged : Act → Bool
  | .stage c => c.isPaged
  | .reveal ⟨.page, _, _⟩ => true
  | _ => false

/-- `next` holds of the page on stage when the act is done with it. A reveal leaves it anywhere on its
way. -/
def Writes (next : Slate → Prop) (s : Slate) : Act → Prop
  | .stage c => next (s.heed c)
  | .reveal ⟨.page, shown, last⟩ =>
    s.visible ≤ shown ∧ ∀ n, s.visible ≤ n → n ≤ max shown last → next { s with visible := n }
  | _ => next s

end Act

/-- With these acts left to do, the page on stage comes from `s` to the goal. -/
def Writes (goal : Slate) : List Act → Slate → Prop
  | [], s => s = goal
  | a :: rest, s => a.Writes (Writes goal rest) s

/-- While there is something to be done with the page, no error comes up. -/
def Hushed (todo : List Act) (fault : Option Failure) : Prop :=
  (fault = none ∧ ∀ a ∈ todo, a.isMild = true) ∨ ∀ a ∈ todo, a.isPaged = false

section

variable {goal s : Slate} {a : Act} {rest new : List Act} {settings : Settings} {k : Keys}

theorem writes_iff_of_unpaged (plain : a.isPaged = false) :
    Writes goal (a :: rest) s ↔ Writes goal rest s := by
  cases a with
  | stage c =>
    show Writes goal rest (s.heed c) ↔ _
    rw [s.heed_of_unpaged plain]
  | reveal r =>
    obtain ⟨kind, shown, last⟩ := r
    cases kind with
    | sentence => exact Iff.rfl
    | page => cases plain
  | _ => exact Iff.rfl

theorem writes_append (plain : ∀ b ∈ new, b.isPaged = false) :
    Writes goal (new ++ rest) s ↔ Writes goal rest s := by
  induction new with
  | nil => exact Iff.rfl
  | cons a new ih =>
    obtain ⟨own, others⟩ := List.forall_mem_cons.mp plain
    exact (writes_iff_of_unpaged own).trans (ih others)

theorem Writes.steady {todo : List Act} (h : Writes goal todo s) (kept : goal.steady = true) :
    s.steady = true := by
  induction todo generalizing s with
  | nil => exact (show s = goal from h) ▸ kept
  | cons a todo ih =>
    cases a with
    | stage c => exact Slate.steady_of_heed (ih h)
    | reveal r =>
      obtain ⟨kind, shown, last⟩ := r
      cases kind with
      | sentence => exact ih h
      | page => exact ih (h.2 s.visible (Nat.le_refl _) (Nat.le_trans h.1 (Nat.le_max_left _ _)))
    | _ => exact ih h

/-- A turn of any other act. -/
theorem Writes.spends (h : Writes goal (a :: rest) s) (other : ∀ r, a ≠ .reveal r) :
    Writes goal rest (s.perform a) := by
  cases a with
  | reveal r => exact absurd rfl (other r)
  | _ => exact h

/-- A turn that a reveal takes. It paints nothing of the page itself. -/
theorem Writes.reveals {r : Reveal} {acts : List Act} {k' : Keys} {ms : List Mark}
    (h : Writes goal (.reveal r :: rest) s) (kept : goal.steady = true)
    (stroke : Stroke settings (.reveal r :: rest) k ms acts k') : Writes goal acts s := by
  have steady := h.steady kept
  obtain ⟨kind, shown, last⟩ := r
  cases kind with
  | sentence =>
    cases stroke with
    | stops => exact h
    | reveals => exact h
  | page =>
    obtain ⟨within, goes⟩ := h
    cases stroke with
    | stops => exact goes s.visible (Nat.le_refl _) (Nat.le_trans within (Nat.le_max_left _ _))
    | reveals _ more =>
      have more : shown < last := more
      have heeded : s.heed (.setReadModeVisible (shown + 1)) = { s with visible := shown + 1 } := by
        show Slate.mk s.text (shown + 1) (s.steady && decide (s.visible ≤ shown + 1)) = _
        rw [decide_eq_true (Nat.le_succ_of_le within), Bool.and_true]
      show Writes goal _ (s.heed (.setReadModeVisible (shown + 1)))
      rw [heeded]
      refine ⟨Nat.le_refl _, fun n from' upTo => goes n ?_ ?_⟩
      · exact Nat.le_trans (Nat.le_succ_of_le within) from'
      · have upTo : n ≤ max (shown + 1) last := upTo
        omega

theorem Hushed.reveals {r : Reveal} {acts : List Act} {k' : Keys} {ms : List Mark}
    (h : Hushed (.reveal r :: rest) none)
    (stroke : Stroke settings (.reveal r :: rest) k ms acts k') : Hushed acts none := by
  rcases h with ⟨-, mild⟩ | plain
  · have later := (List.forall_mem_cons.mp mild).2
    refine .inl ⟨rfl, ?_⟩
    cases stroke with
    | stops => exact later
    | reveals => simpa [Act.isMild] using later
  · obtain ⟨own, later⟩ := List.forall_mem_cons.mp plain
    refine .inr ?_
    cases stroke with
    | stops => exact later
    | reveals =>
      obtain ⟨kind, shown, last⟩ := r
      cases kind with
      | page => cases own
      | sentence => simpa [Act.isPaged, Reveal.call, StageCall.isPaged, StageCall.clears] using later

namespace Act

theorem isPaged_of_puts (puts : a.Puts new) (plain : a.isPaged = false)
    (other : ∀ r, a ≠ .reveal r) : ∀ b ∈ new, b.isPaged = false := by
  cases a with
  | reveal r => exact absurd rfl (other r)
  | finish | confirm | branch | enterScene => rcases puts with rfl | rfl <;> simp [isPaged]
  | sweep => rcases puts with rfl | ⟨-, rfl⟩ <;> simp [isPaged]
  | stride => rcases puts with rfl | ⟨_, -, rfl⟩ <;> simp [isPaged]
  | answer | count => rcases puts with rfl | ⟨_, rfl⟩ <;> simp [isPaged]
  | offer | switch =>
    obtain ⟨_, rfl⟩ := puts
    simp [isPaged, opening, Command.animate, StageCall.isPaged, StageCall.clears]
  | chosen =>
    obtain rfl := puts
    simp [isPaged, closing, Command.animate, StageCall.isPaged, StageCall.clears]
  | load job =>
    rcases puts with rfl | rfl
    · simp
    · intro b among
      have scenic := isScenic_of_mem_acts among
      cases b <;> first | rfl | cases scenic
  | clearBoard =>
    obtain ⟨_, _, _, _, rfl⟩ := puts
    simp [isPaged]
  | _ =>
    obtain rfl := puts
    simp

theorem isMild_of_puts (puts : a.Puts new) (mild : a.isMild = true) :
    ∀ b ∈ new, b.isMild = true := by
  cases a with
  | offer | branch | switch | goto | action | load | enterScene => cases mild
  | finish | confirm => rcases puts with rfl | rfl <;> simp [isMild]
  | sweep => rcases puts with rfl | ⟨-, rfl⟩ <;> simp [isMild]
  | stride => rcases puts with rfl | ⟨_, -, rfl⟩ <;> simp [isMild]
  | reveal => rcases puts with rfl | ⟨-, _, _, rfl⟩ <;> simp [isMild]
  | answer | count => rcases puts with rfl | ⟨_, rfl⟩ <;> simp [isMild]
  | chosen =>
    obtain rfl := puts
    simp [isMild, closing, Command.animate]
  | clearBoard =>
    obtain ⟨_, _, _, _, rfl⟩ := puts
    simp [isMild]
  | _ =>
    obtain rfl := puts
    simp

end Act

namespace Command

theorem isPaged_acts {c : Command} (settings : Settings) (page : Page) (other : c.writesPage = false)
    (stays : c ≠ .readModeEnd) : ∀ a ∈ c.acts settings page, a.isPaged = false := by
  cases c with
  | readModeText | readModeClear => cases other
  | readModeEnd => exact absurd rfl stays
  | text speaker body skippable place =>
    have named : (Act.stage (nameBox settings speaker place)).isPaged = false := by
      unfold nameBox
      split <;> rfl
    refine List.forall_mem_cons.mpr ⟨named, ?_⟩
    simp [Act.isPaged, StageCall.isPaged, StageCall.clears, awaitConfirm]
  | boxState opens =>
    cases opens <;>
      simp [acts, animate, Act.isPaged, StageCall.isPaged, StageCall.clears]
  | image layer texture | portrait place texture =>
    cases texture <;>
      simp [acts, tintActs, Act.isPaged, StageCall.isPaged, StageCall.clears]
  | _ => simp [acts, animate, flashActs, Act.isPaged, StageCall.isPaged, StageCall.clears]

/-- With the acts of the command the page on stage becomes that of the command. -/
theorem writes_acts (c : Command) (settings : Settings) (page : Page) (staged : String) :
    Writes ⟨c.stagedAfter settings page staged, (c.pageAfter settings page).shown, true⟩
      (c.acts settings page) ⟨staged, page.shown, true⟩ := by
  have plain (other : c.writesPage = false) (stays : c ≠ .readModeEnd) :
      Writes ⟨staged, page.shown, true⟩ (c.acts settings page) ⟨staged, page.shown, true⟩ := by
    have all : Writes ⟨staged, page.shown, true⟩ (c.acts settings page ++ [])
        ⟨staged, page.shown, true⟩ := (writes_append (isPaged_acts settings page other stays)).mpr rfl
    rwa [List.append_nil] at all
  cases c with
  | readModeText t =>
    let next := page.append (Page.breakLines settings.readModeLineBreak t)
    refine ⟨Nat.le_refl _, fun n from' upTo => ?_⟩
    have upTo : n ≤ max page.shown next.shown := upTo
    have longer : page.shown ≤ next.shown := Nat.le_add_right _ _
    have last : ((true && decide (page.shown ≤ page.shown)) && decide (n ≤ next.shown)) = true := by
      simp
      omega
    exact congrArg (Slate.mk next.text next.shown) last
  | readModeClear => rfl
  | readModeEnd => rfl
  | _ => exact plain rfl nofun

theorem hushed_acts (c : Command) (settings : Settings) (page : Page) :
    Hushed (c.acts settings page) none := by
  by_cases other : c.writesPage = false ∧ c ≠ .readModeEnd
  · exact .inr (isPaged_acts settings page other.1 other.2)
  · refine .inl ⟨rfl, isMild_acts settings page ?_ ?_⟩ <;>
      cases c <;> first | rfl | exact absurd ⟨rfl, nofun⟩ other

end Command

end

namespace Plot

variable {p p' : Plot} {l : Lead}

/-- A run that has something left to do stays in its program and keeps its page. -/
theorem Plays.stays (h : Plays l p p') (due : l.todo ≠ []) :
    tale Deed.stepped? l.id p'.story = tale Deed.stepped? l.id p.story ∧
      ∀ l' ∈ p'.leads, l'.run.program = l.run.program ∧ l'.run.page = l.run.page := by
  have ends (p : Plot) (o : Outcome) :
      tale Deed.stepped? l.id (p.ends l o).story = tale Deed.stepped? l.id p.story := by
    rw [tale_ends p l o fun _ => rfl]
    cases o <;> simp [Deed.stepped?, Outcome.event]
  have tells (p : Plot) (l' : Lead) {d : Deed} (silent : d.stepped? = none) :
      tale Deed.stepped? l.id ((p.tell l d).lead l').story = tale Deed.stepped? l.id p.story := by
    rw [tale_tell, silent]
    exact List.append_nil _
  have one {p : Plot} {l' : Lead}
      (same : l'.run.program = l.run.program ∧ l'.run.page = l.run.page) :
      ∀ l'' ∈ (p.lead l').leads, l''.run.program = l.run.program ∧ l''.run.page = l.run.page :=
    fun l'' among => List.mem_singleton.mp among ▸ same
  cases h with
  | completes none | fails none | fetches _ _ none => exact absurd none due
  | stops => exact ⟨ends p _, List.forall_mem_nil _⟩
  | @breaks p₁ text touched =>
    exact ⟨(ends p₁ _).trans (tale_touches touched fun _ => rfl), List.forall_mem_nil _⟩
  | goes | skips | offers | refuses | hears | misses | jumps | strays => exact ⟨rfl, one ⟨rfl, rfl⟩⟩
  | shows | chooses | holds | turns | switches | unheard => exact ⟨tells p _ rfl, one ⟨rfl, rfl⟩⟩
  | calls _ _ touched =>
    exact ⟨(tells _ _ rfl).trans (tale_touches touched fun _ => rfl), one ⟨rfl, rfl⟩⟩

/-- A run that goes on with nothing left to do comes to its next command. -/
theorem Plays.comes (h : Plays l p p') (idle : l.todo = []) {l' : Lead} (among : l' ∈ p'.leads) :
    l.fault = none ∧ ∃ c, l.run.program.commands[l.run.pointer]? = some c := by
  cases h with
  | completes | fails | stops | breaks => cases among
  | fetches _ _ _ fault found => exact ⟨fault, _, found⟩
  | goes due | skips due | offers _ due | refuses _ _ due | hears _ due | misses _ due | jumps due
  | strays due | shows due | chooses due | holds due | turns due | switches _ due | unheard due
  | calls due =>
    rw [idle] at due
    cases due

end Plot

namespace World

/-- The commands that the run has come to. -/
def entered (w : World) (id : Nat) (q : Program) : List Command :=
  (w.steps id).filterMap fun s => q.commands[s.1]?

/-- The page on stage as the fiber left it. -/
def slate (w : World) (id : Nat) : Slate := .of (w.calls id)

/-- The run keeps the page that it wrote, and with what it has left to do the page on stage becomes
that of its commands. -/
structure Papers (w : World) (l : Lead) : Prop where
  page : l.run.page = .after w.settings (w.entered l.id l.run.program)
  writes : Writes ⟨stagedText w.settings (w.entered l.id l.run.program), l.run.page.shown, true⟩
    l.todo (w.slate l.id)
  hushed : Hushed l.todo l.fault

variable {w : World} {f g : Fiber} {r : Run} {c : Command} {rest : List Fiber} {p : Pulse} {id : Nat}

theorem slate_turn (order : w.InOrder) (ready : w.ready = f :: rest) : w.turn.slate f.id =
    match if f.doomed || w.isCancelled f then none else f.nextCall? with
    | some c => (w.slate f.id).heed c
    | none => w.slate f.id := by
  have last (calls : List StageCall) (c : StageCall) :
      Slate.of (calls ++ [c]) = (Slate.of calls).heed c := List.foldl_concat ..
  rw [slate, Slate.of_paged, filterMap_calls_turn Slate.paged?_scripted order ready]
  cases f.doomed || w.isCancelled f with
  | true =>
    show Slate.of (_ ++ []) = w.slate f.id
    rw [List.append_nil, ← Slate.of_paged]
    rfl
  | false =>
    cases next : f.nextCall? with
    | none =>
      show Slate.of (_ ++ []) = w.slate f.id
      rw [List.append_nil, ← Slate.of_paged]
      rfl
    | some c =>
      show Slate.of (_ ++ (Slate.paged? c).toList) = (w.slate f.id).heed c
      cases paged : c.isPaged with
      | true =>
        rw [Slate.paged?, if_pos paged]
        show Slate.of (_ ++ [c]) = _
        rw [last, ← Slate.of_paged]
        rfl
      | false =>
        rw [Slate.paged?, paged, Slate.heed_of_unpaged _ paged]
        show Slate.of (_ ++ []) = _
        rw [List.append_nil, ← Slate.of_paged]
        rfl

theorem slate_other (play : w.InPlay) (other : ¬ w.OwnTurn p id) :
    (w.pulse p).slate id = w.slate id :=
  congrArg Slate.of (tale_pulse play other)

/-- The turn in which the run comes to a command. -/
theorem Papers.fetches (h : w.Papers (f.leading r)) (starts : w.TakesUp f r c)
    (settings : w.turn.settings = w.settings) (order : w.InOrder) :
    w.turn.Papers ((f.enters r c w.settings).leading
      { r with pointer := r.pointer + 1, page := c.pageAfter w.settings r.page }) := by
  obtain ⟨rest, ready, -⟩ := starts.turn
  have entered : w.turn.entered f.id r.program = w.entered f.id r.program ++ [c] := by
    rw [World.entered, starts.steps, List.filterMap_append]
    refine congrArg (_ ++ ·) ?_
    simp [starts.found]
  have page : r.page = .after w.settings (w.entered f.id r.program) := h.page
  have idle : w.slate f.id = ⟨stagedText w.settings (w.entered f.id r.program), r.page.shown, true⟩ := by
    have writes := h.writes
    rwa [show (f.leading r).todo = [] from starts.todo] at writes
  have silent : f.nextCall? = none := by rw [Fiber.nextCall?, starts.todo]
  refine ⟨?_, ?_, ?_⟩
  · show c.pageAfter w.settings r.page = .after w.turn.settings (w.turn.entered f.id r.program)
    rw [entered, settings, Page.after_concat, ← page]
  · show Writes ⟨stagedText w.turn.settings (w.turn.entered f.id r.program), _, true⟩
      (c.acts w.settings r.page) (w.turn.slate f.id)
    rw [entered, settings, stagedText_concat, ← page, slate_turn order ready, silent, ite_self, idle]
    exact c.writes_acts w.settings r.page _
  · show Hushed (c.acts w.settings r.page) f.fault
    rw [starts.fault]
    exact c.hushed_acts w.settings r.page

/-- The turn of a run that has something left to do. -/
theorem Papers.goes {l : Lead} (h : w.Papers (f.leading r))
    (settings : w.turn.settings = w.settings)
    (steps : w.turn.steps f.id = w.steps f.id) (id : l.id = f.id)
    (program : l.run.program = r.program) (page : l.run.page = r.page)
    (writes : Writes ⟨stagedText w.settings (w.entered f.id r.program), r.page.shown, true⟩ l.todo
      (w.turn.slate f.id))
    (hushed : Hushed l.todo l.fault) : w.turn.Papers l := by
  have entered : w.turn.entered l.id l.run.program = w.entered f.id r.program := by
    rw [World.entered, id, program, steps]
    rfl
  refine ⟨?_, ?_, hushed⟩
  · rw [entered, page, settings]
    exact h.page
  · rw [entered, page, settings, id]
    exact writes

/-- A run that has something left to do stays in its program and keeps its page. -/
theorem turn_stays (attended : w.plot.Attended) (ready : w.ready = f :: rest)
    (role : f.role = .run r) (due : f.todo ≠ []) : w.turn.steps f.id = w.steps f.id ∧
      ∀ l ∈ w.turn.leads, l.run.program = r.program ∧ l.run.page = r.page := by
  rw [steps_eq, steps_eq]
  rcases (turned_turn attended ready role).1 with plays | ⟨waits, -⟩
  · exact plays.stays due
  · refine ⟨congrArg (fun p => tale Deed.stepped? f.id p.story) waits, fun l among => ?_⟩
    rw [show w.turn.leads = w.plot.leads from congrArg Plot.leads waits,
      leads_taken attended ready role] at among
    obtain rfl := List.mem_singleton.mp among
    exact ⟨rfl, rfl⟩

theorem turn_comes {l : Lead} (attended : w.plot.Attended) (ready : w.ready = f :: rest)
    (role : f.role = .run r) (idle : f.todo = []) (among : l ∈ w.turn.leads) :
    ∃ c, w.TakesUp f r c := by
  have spared := spared_of_mem_leads attended ready role among
  rcases (turned_turn attended ready role).1 with plays | ⟨-, _, _, _, todo⟩
  · obtain ⟨fault, c, found⟩ := plays.comes idle among
    exact ⟨c, by rw [ready]; rfl, role, spared, idle, fault, found⟩
  · rw [idle] at todo
    cases todo

theorem slate_perform {a : Act} {after : List Act} (order : w.InOrder) (ready : w.ready = f :: rest)
    (spared : f.doomed = false) (going : w.isCancelled f = false) (todo : f.todo = a :: after)
    (fault : f.fault = none) : w.turn.slate f.id = (w.slate f.id).perform a := by
  rw [slate_turn order ready, spared, going, Fiber.nextCall?, todo, fault]
  cases a <;> rfl

/-- What its turn makes of a run that has an act to do. -/
inductive Does (w : World) (f g : Fiber) (a : Act) (after : List Act) : Prop where
  | waits {v : Reveal} : a = .reveal v → g.todo = a :: after → g.fault = none → Does w f g a after
  | reveals {v : Reveal} {ms : List Mark} : a = .reveal v → g.fault = none →
      Stroke w.settings (.reveal v :: after) f.pressed ms g.todo g.pressed → Does w f g a after
  | puts {new : List Act} : (∀ v, a ≠ .reveal v) → g.fault = none → g.todo = new ++ after →
      a.Puts new → Does w f g a after
  | fails : (∀ v, a ≠ .reveal v) → a.isMild = false → g.todo = after → Does w f g a after

/-- The turn in which the run does an act. -/
theorem turn_does {a : Act} {after : List Act} (play : w.InPlay) (ready : w.ready = f :: rest)
    (role : f.role = .run r) (spared : f.doomed = false) (member : g ∈ w.turn.hands)
    (same : g.id = f.id) (carry : g.fault = w.faultAfter f r) (todo : f.todo = a :: after)
    (fault : f.fault = none) (onward : a.Onward { f with todo := after } g) : w.Does f g a after := by
  have order' : w.turn.InOrder := play.order.beat (.lull (.turn w))
  have going : w.isCancelled f = false := by rw [isCancelled, role]
  by_cases reveal : ∃ v, a = .reveal v
  · obtain ⟨v, rfl⟩ := reveal
    cases turn_soloist ready spared going fault todo rfl play.screened.sources_pos with
    | waits still =>
      obtain rfl := order'.eq_of_hands member still same
      exact .waits rfl todo fault
    | plays g' among same' _ fault' stroke =>
      obtain rfl := order'.eq_of_hands member among (same.trans same'.symm)
      rw [todo] at stroke
      exact .reveals rfl fault' stroke
    | bursts overflows =>
      obtain ⟨s, _, _, _, _, stride, -⟩ := overflows
      rw [todo] at stride
      cases stride
  have other : ∀ v, a ≠ .reveal v := fun v same => reveal ⟨v, same⟩
  rcases onward.goes with ⟨fault', new, todo', puts⟩ | ⟨⟨e, failed⟩, todo'⟩
  · exact .puts other (fault'.trans fault) todo' puts
  · refine .fails other (Bool.eq_false_iff.mpr fun mild => ?_) todo'
    rw [failed, faultAfter_fine todo fault, w.raised?_of_isMild r mild] at carry
    cases carry

theorem Papers.does {a : Act} {after : List Act} (h : w.Papers (f.leading r)) (order : w.InOrder)
    (ready : w.ready = f :: rest) (role : f.role = .run r) (spared : f.doomed = false)
    (todo : f.todo = a :: after) (fault : f.fault = none) (does : w.Does f g a after) :
    Writes ⟨stagedText w.settings (w.entered f.id r.program), r.page.shown, true⟩ g.todo
      (w.turn.slate f.id) ∧ Hushed g.todo g.fault := by
  have going : w.isCancelled f = false := by rw [isCancelled, role]
  have writes : Writes _ f.todo (w.slate f.id) := h.writes
  have hushed : Hushed f.todo f.fault := h.hushed
  have slate := slate_perform order ready spared going todo fault
  rw [todo] at writes
  rw [todo, fault] at hushed
  cases does with
  | waits reveal todo' fault' =>
    subst reveal
    rw [slate, todo', fault']
    exact ⟨writes, hushed⟩
  | reveals reveal fault' stroke =>
    subst reveal
    rw [slate, fault']
    exact ⟨writes.reveals rfl stroke, hushed.reveals stroke⟩
  | @puts new other fault' todo' puts =>
    have plain : ∀ b ∈ new, b.isPaged = false := by
      by_cases staged : ∃ call, a = .stage call
      · obtain ⟨call, rfl⟩ := staged
        obtain rfl : new = [] := puts
        simp
      · refine Act.isPaged_of_puts puts ?_ other
        cases a <;> first | rfl | exact absurd ⟨_, rfl⟩ staged | exact absurd rfl (other _)
    rw [slate, todo', fault']
    refine ⟨(writes_append plain).mpr (writes.spends other),
      hushed.imp (fun calm => ⟨rfl, ?_⟩) fun none => ?_⟩
    · obtain ⟨own, later⟩ := List.forall_mem_cons.mp calm.2
      exact List.forall_mem_append.mpr ⟨Act.isMild_of_puts puts own, later⟩
    · exact List.forall_mem_append.mpr ⟨plain, (List.forall_mem_cons.mp none).2⟩
  | fails other loud todo' =>
    -- An error only comes up where there is nothing to be done with the page.
    have none : ∀ b ∈ a :: after, b.isPaged = false := by
      refine hushed.resolve_left fun calm => ?_
      rw [calm.2 a List.mem_cons_self] at loud
      cases loud
    rw [slate, todo']
    exact ⟨writes.spends other, .inr (List.forall_mem_cons.mp none).2⟩

/-- The own turn of a run. -/
theorem Papers.turn {pick : Option Nat} {l : Lead} (h : w.Papers (f.leading r)) (play : w.InPlay)
    (desk : w.Desk pick) (ready : w.ready = f :: rest) (role : f.role = .run r)
    (among : l ∈ w.turn.leads) : w.turn.Papers l := by
  have order := play.order
  have attended := order.staged.attended
  have order' : w.turn.InOrder := order.beat (.lull (.turn w))
  have settings : w.turn.settings = w.settings := settings_pulse play .turn
  have spared := spared_of_mem_leads attended ready role among
  have going : w.isCancelled f = false := by rw [isCancelled, role]
  have carry := fault_turn play desk ready role l among
  obtain ⟨g, member, role', lead⟩ := exists_of_mem_leads among
  have member := mem_hands.mpr member
  have same : g.id = f.id := by
    refine (congrArg Lead.id lead).symm.trans ?_
    rcases (turned_turn attended ready role).1 with plays | ⟨waits, -⟩
    · exact plays.within.leads l among
    · rw [show w.turn.leads = w.plot.leads from congrArg Plot.leads waits,
        leads_taken attended ready role] at among
      exact congrArg Lead.id (List.mem_singleton.mp among)
  have todo' : l.todo = g.todo := congrArg Lead.todo lead
  have fault' : l.fault = g.fault := congrArg Lead.fault lead
  have id' : l.id = f.id := (congrArg Lead.id lead).trans same
  have stays (due : f.todo ≠ []) (writes : Writes ⟨stagedText w.settings
      (w.entered f.id r.program), r.page.shown, true⟩ g.todo (w.turn.slate f.id))
      (hushed : Hushed g.todo g.fault) : w.turn.Papers l := by
    obtain ⟨steps, keeps⟩ := turn_stays attended ready role due
    obtain ⟨program, page⟩ := keeps _ among
    exact h.goes settings steps id' program page (todo' ▸ writes) (todo' ▸ fault' ▸ hushed)
  have heir := turn_heir order ready member same
  generalize w.act? = act at heir
  cases heir with
  | fetches idle =>
    obtain ⟨c, starts⟩ := turn_comes attended ready role idle among
    obtain rfl := order'.eq_of_hands member starts.among same
    rw [lead, ← Role.run.inj role']
    exact h.fetches starts settings order
  | @skips a after e todo fault todo'' =>
    have writes : Writes _ f.todo (w.slate f.id) := h.writes
    have none : ∀ b ∈ f.todo, b.isPaged = false := by
      refine h.hushed.resolve_left fun calm => ?_
      rw [show f.fault = none from calm.1] at fault
      cases fault
    rw [todo] at writes none
    obtain ⟨own, later⟩ := List.forall_mem_cons.mp none
    have silent : f.nextCall? = .none := by rw [Fiber.nextCall?, todo, fault]; cases a <;> rfl
    refine stays (by simp [todo]) ?_ (.inr (todo'' ▸ later))
    rw [slate_turn order ready, silent, ite_self, todo'']
    exact (writes_iff_of_unpaged own).mp writes
  | does todo fault onward =>
    have does := turn_does play ready role spared member same (fault' ▸ carry) todo fault onward
    obtain ⟨writes, hushed⟩ := h.does order ready role spared todo fault does
    exact stays (by simp [todo]) writes hushed

theorem leading_mem_leads (among : f ∈ w.hands) (role : f.role = .run r) : f.leading r ∈ w.leads :=
  List.mem_filterMap.mpr ⟨f, mem_hands.mp among, lead?_of_role role⟩

/-- A fiber whose turn leaves a run of its number was that run. -/
theorem role_of_mem_leads {l : Lead} (order : w.InOrder) (ready : w.ready = f :: rest)
    (among : l ∈ w.turn.leads) (same : f.id = l.id) : ∃ r, f.role = .run r := by
  refine f.isRun_iff.mp ?_
  by_contra background
  have background : f.isRun = false := by simpa using background
  have among := (beside_turn order ready background).leads.mem_iff.mp among
  have lead := order.crewed.lead among (mem_hands.mp (mem_hands_of_ready ready)) same
  rw [lead?_of_isRun_eq_false background] at lead
  cases lead

theorem papers_pulses (o : Opening) (ps : List Pulse) :
    ∀ l ∈ (o.world.pulses ps).leads, (o.world.pulses ps).Papers l := by
  induction ps using List.reverseRecOn with
  | nil => exact nofun
  | append_singleton ps p ih =>
    have play := inPlay_pulses o ps
    have young {α : Type} (g : Deed → Option α) :
        tale g (o.world.pulses ps).nextFiber (o.world.pulses ps).entries = [] :=
      tale_young o ps (Nat.le_refl _)
    have acted := acted o ps p
    obtain ⟨_, handing⟩ := handing_pulses o ps
    have after : o.world.pulses (ps ++ [p]) = (o.world.pulses ps).pulse p := pulses_concat ..
    rw [after]
    generalize o.world.pulses ps = w at *
    intro l among
    by_cases own : w.OwnTurn p l.id
    · obtain ⟨rfl, f, head, same⟩ := own
      obtain ⟨rest, ready⟩ := List.head?_eq_some_iff.mp head
      obtain ⟨r, role⟩ := role_of_mem_leads play.order ready among same
      have lead := leading_mem_leads (mem_hands_of_ready ready) role
      exact (ih _ lead).turn play handing.desk ready role among
    have settings : (w.pulse p).settings = w.settings := settings_pulse play p
    have slate := slate_other play own
    have steps : (w.pulse p).steps l.id = w.steps l.id := tale_pulse play own
    cases acted with
    | beside touched =>
      rw [show (w.pulse p).leads = w.leads from touched.leads] at among
      obtain ⟨page, writes, hushed⟩ := ih l among
      refine ⟨?_, ?_, hushed⟩
      · rw [entered, steps, settings]
        exact page
      · rw [entered, steps, settings, slate]
        exact writes
    | @starts n brief q q' _ _ _ _ _ plot =>
      rw [show (w.pulse p).leads = _ from congrArg Plot.leads plot] at among
      obtain rfl := List.mem_singleton.mp among
      have none : (w.pulse p).steps w.nextFiber = [] := steps.trans (young _)
      have blank : (w.pulse p).slate w.nextFiber = .blank :=
        slate.trans (congrArg Slate.of (young _))
      have entered : (w.pulse p).entered w.nextFiber q' = [] := by rw [entered, none]; rfl
      refine ⟨?_, ?_, .inr (by simp)⟩
      · show Page.empty = .after _ ((w.pulse p).entered w.nextFiber q')
        rw [entered]
        rfl
      · show (w.pulse p).slate w.nextFiber = ⟨stagedText _ ((w.pulse p).entered w.nextFiber q'), 0, true⟩
        rw [entered, blank]
        rfl
    | @plays f rest r turn ready role plays =>
      refine absurd ⟨turn, f, by rw [ready]; rfl, ?_⟩ own
      rw [plays.within.leads l among]
      rfl

/-- Whatever has become visible of a page stays so until the page is taken off the stage. -/
theorem steady_pulses (o : Opening) (ps : List Pulse) (id : Nat) :
    ((o.world.pulses ps).slate id).steady = true := by
  induction ps using List.reverseRecOn with
  | nil => rfl
  | append_singleton ps p ih =>
    have play := inPlay_pulses o ps
    have papers := papers_pulses o ps
    have after : o.world.pulses (ps ++ [p]) = (o.world.pulses ps).pulse p := pulses_concat ..
    rw [after]
    generalize o.world.pulses ps = w at *
    by_cases own : w.OwnTurn p id
    · obtain ⟨rfl, f, head, rfl⟩ := own
      obtain ⟨rest, ready⟩ := List.head?_eq_some_iff.mp head
      show (w.turn.slate f.id).steady = true
      rw [slate_turn play.order ready]
      split
      · rename_i c made
        have next : f.nextCall? = some c := by
          split at made
          · cases made
          · exact made
        obtain ⟨after, todo⟩ : ∃ after, f.todo = .stage c :: after := by
          unfold Fiber.nextCall? at next
          split at next
          · rename_i todo _
            exact ⟨_, Option.some.inj next ▸ todo⟩
          · cases next
        cases isRun : f.isRun with
        | true =>
          obtain ⟨r, role⟩ := f.isRun_iff.mp isRun
          have lead := leading_mem_leads (mem_hands_of_ready ready) role
          have writes : Writes _ f.todo (w.slate f.id) := (papers _ lead).writes
          rw [todo] at writes
          exact Writes.steady (show Writes _ after ((w.slate f.id).heed c) from writes) rfl
        | false =>
          -- Only runs have stage acts to do.
          have dutiful : f.Dutiful := play.order.crewed.dutiful f.calm (calm_mem_crew ready)
          have allowed := dutiful isRun (.stage c) (todo ▸ List.mem_cons_self)
          cases role : f.role <;> rw [role] at allowed <;> cases allowed
      · exact ih
    · rw [slate_other play own]
      exact ih

/-- Whenever a run comes to a text of the read mode, the page that it keeps holds the paragraphs since it
was emptied last, and all of them are visible on stage. The text goes on from there: it shows the page
with the new paragraph, one character of that after the other, up to the wait in which a confirmation
cuts it short, and then waits for another one. Nothing that has become visible of a page is hidden
again before the page is taken off the stage. -/
theorem pages_accumulate (o : Opening) (before after : List Pulse) {t : String}
    (starts : (o.world.pulses before).TakesUp f r (.readModeText t)) :
    let w := o.world.pulses (before ++ [.turn])
    let next := r.page.append (Page.breakLines o.settings.readModeLineBreak t)
    let intro : List StageCall := [.setReadModeVisible r.page.shown, .setReadModeText next.text]
    r.page.text = String.join (paragraphs o.settings
        ((o.world.pulses before).entered f.id r.program)) ∧
      r.page.shown = r.page.text.length ∧
      (o.world.pulses before).slate f.id = ⟨stagedText o.settings
        ((o.world.pulses before).entered f.id r.program), r.page.shown, true⟩ ∧
      (∃ place, f.cursor = some place ∧
        w.Reading o.settings (f.enters r (.readModeText t) o.settings) place
          ⟨.page, r.page.shown, next.shown⟩ intro after) ∧
      ∀ pre between post n m, (w.pulses after).calls f.id =
        pre ++ .setReadModeVisible n :: (between ++ .setReadModeVisible m :: post) →
        (∀ c ∈ between, c.clears = false) → n ≤ m := by
  intro w next intro
  obtain ⟨rest, ready, -⟩ := starts.turn
  have settings := settings_pulses o before
  obtain ⟨page, writes, -⟩ := papers_pulses o before _
    (leading_mem_leads (mem_hands_of_ready ready) starts.role)
  rw [settings] at page writes
  rw [show (f.leading r).todo = [] from starts.todo] at writes
  have page : r.page = .after o.settings ((o.world.pulses before).entered f.id r.program) := page
  obtain ⟨text, shown⟩ := Page.after_eq o.settings ((o.world.pulses before).entered f.id r.program)
  rw [← page] at text shown
  refine ⟨text, shown, writes, reading_pulses o before after starts rfl, ?_⟩
  intro pre between post n m split stays
  have steady := steady_pulses o ((before ++ [.turn]) ++ after) f.id
  rw [pulses_append] at steady
  exact Slate.visible_le_of_steady steady split stays

/-- A second paragraph goes on behind the first. -/
theorem pages_accumulate_twice :
    let o : Opening := ⟨{ (default : Settings) with readModeCharDelay := 0 }, default, 8, default, .empty,
      [[.readModeText "ab", .readModeText "c"]]⟩
    let before : List Pulse := .host (.execute 0) rfl :: List.replicate 15 .turn ++
      [.publish ⟨1⟩ ⟨true, false⟩] ++ List.replicate 2 .turn
    let w := o.world.pulses (before ++ [.turn])
    let d : Frame := ⟨2, ⟨1⟩, ⟨true, false⟩⟩
    let after := .publish d.delta d.keys :: List.replicate 12 .turn
    ∃ f r, (o.world.pulses before).TakesUp f r (.readModeText "c") ∧ r.page.text = "ab" ∧
      ∃ place pre h, pre <+: after ∧
        w.Becomes (f.enters r (.readModeText "c") o.settings) .own place pre h ∧ h.todo = [] ∧
        w.marks f.id pre = [.call (.setReadModeVisible 2), .call (.setReadModeText "abc"),
          .call (.setReadModeVisible 3), .call (.setReadModeVisible 3),
          .call (.setWaitIndicator true), .frame d, .call (.setWaitIndicator false)] := by
  intro o before w d after
  have seen : (o.world.pulses before).ready.head?.map (fun f =>
      (f.run?.map fun r => (r.page, r.program.commands[r.pointer]?.bind Command.pageText?),
        f.doomed, f.todo.isEmpty, f.fault)) =
      some (some (⟨"ab", 2⟩, some "c"), false, true, none) := by decide +kernel
  have stands : ((o.world.pulses before).ready.head?.bind (·.cursor)).map (·.taken) = some 1 := by
    decide +kernel
  obtain ⟨f, head, seen⟩ := Option.map_eq_some_iff.mp seen
  simp only [Prod.mk.injEq, List.isEmpty_iff] at seen
  obtain ⟨run, spared, todo, fault⟩ := seen
  obtain ⟨r, run, seen⟩ := Option.map_eq_some_iff.mp run
  obtain ⟨page, found⟩ := Prod.mk.inj seen
  have starts : (o.world.pulses before).TakesUp f r (.readModeText "c") :=
    ⟨head, role_of_run? run, spared, todo, fault, Command.eq_of_pageText? found⟩
  obtain ⟨-, -, -, ⟨place, stands', reading⟩, -⟩ := pages_accumulate o before after starts
  rw [head, Option.bind_some, stands'] at stands
  obtain rfl : place = ⟨1⟩ := congrArg Cursor.mk (Option.some.inj stands)
  have next : (⟨"ab", 2⟩ : Page).append (Page.breakLines o.settings.readModeLineBreak "c") =
      ⟨"abc", 3⟩ := by decide +kernel
  rw [page, next] at reading
  let v : Reveal := ⟨.page, 2, 3⟩
  have lasts : Lasts (v.delay o.settings) [] := by decide +kernel
  have ended : v.Over o.settings [[]] := ⟨by simpa using lasts, by decide, nofun, .inl rfl⟩
  have unstopped : w.Unstopped after f.id := unstopped_of_isCalm (by decide +kernel)
  have keeps : w.KeepsUp .own after f.id := keepsUp_of_isEarly (by decide +kernel)
  have rest : (w.pulses after).ready = [] := List.isEmpty_iff.mp (by decide +kernel)
  have none : ∀ f ∈ ([] : List Frame), f.keys.confirm = false := by simp
  have confirmed : d.keys.confirm = true := rfl
  obtain ⟨pre, h, early, becomes, ended, marks⟩ := reading.done _ (.reads ended none confirmed)
    (by decide +kernel) rest unstopped keeps (by decide +kernel)
  exact ⟨f, r, starts, by rw [page], ⟨1⟩, pre, h, early, becomes, ended, marks⟩

/-- Whenever a command is done, the text on stage is that of the page as it was after the last text, or
after it was cleared. Until the read mode is left that is the page that the run keeps. -/
theorem stage_keeps_left_page (o : Opening) (ps : List Pulse) (among : f ∈ (o.world.pulses ps).hands)
    (role : f.role = .run r) (idle : f.todo = []) :
    let w := o.world.pulses ps
    let cs := w.entered f.id r.program
    let staged := ((w.calls f.id).filterMap StageCall.pageText?).getLast?.getD ""
    r.page = .after o.settings cs ∧
      staged = (Page.after o.settings (cs.rdropWhile fun c => !c.writesPage)).text ∧
      ((∀ c ∈ cs.rtakeWhile fun c => !c.writesPage, c ≠ .readModeEnd) → staged = r.page.text) := by
  intro w cs staged
  obtain ⟨page, writes, -⟩ := papers_pulses o ps _ (leading_mem_leads among role)
  rw [settings_pulses] at page writes
  rw [show (f.leading r).todo = [] from idle] at writes
  have page : r.page = .after o.settings cs := page
  have text : (w.slate f.id).text = stagedText o.settings cs := congrArg Slate.text writes
  have last : staged = stagedText o.settings cs := (Slate.text_of _).symm.trans text
  refine ⟨page, last, fun stays => ?_⟩
  rw [last, page]
  exact stagedText_eq stays

/-- A paragraph that was read. -/
theorem stage_keeps_left_page_read :
    let o : Opening := ⟨{ (default : Settings) with readModeCharDelay := 0 }, default, 8, default, .empty,
      [[.readModeStart, .readModeText "ab", .readModeEnd, .readModeStart, .wait ⟨1⟩]]⟩
    let ps : List Pulse := .host (.execute 0) rfl :: List.replicate 18 .turn ++
      [.publish ⟨1⟩ ⟨true, false⟩] ++ List.replicate 2 .turn
    let w := o.world.pulses ps
    ∃ f r, f ∈ w.hands ∧ f.role = .run r ∧ f.todo = [] ∧
      ((w.calls f.id).filterMap StageCall.pageText?).getLast?.getD "" = r.page.text := by
  intro o ps w
  have seen : w.ready.head?.map (fun f => (f.run?.map fun r =>
      (w.entered f.id r.program).map Command.opcode, f.todo.isEmpty)) =
      some (some [.readModeStart, .readModeText], true) := by decide +kernel
  obtain ⟨f, head, seen⟩ := Option.map_eq_some_iff.mp seen
  simp only [Prod.mk.injEq, List.isEmpty_iff] at seen
  obtain ⟨run, idle⟩ := seen
  obtain ⟨r, run, entered⟩ := Option.map_eq_some_iff.mp run
  obtain ⟨rest, ready⟩ := List.head?_eq_some_iff.mp head
  have among : f ∈ w.hands := mem_hands_of_ready ready
  have kept := stage_keeps_left_page o ps among (role_of_run? run) idle
  refine ⟨f, r, among, role_of_run? run, idle, kept.2.2 fun c among left => ?_⟩
  have among := List.mem_map_of_mem ((List.rtakeWhile_suffix _ _).subset among) (f := Command.opcode)
  rw [entered, left] at among
  simp [Command.opcode] at among

/-- A paragraph stays on stage when the read mode is left, and when it is entered anew. -/
theorem left_page_returns :
    let o : Opening := ⟨{ (default : Settings) with readModeCharDelay := 0 }, default, 8, default, .empty,
      [[.readModeStart, .readModeText "ab", .readModeEnd, .readModeStart, .wait ⟨1⟩]]⟩
    let ps : List Pulse := .host (.execute 0) rfl :: List.replicate 18 .turn ++
      [.publish ⟨1⟩ ⟨true, false⟩] ++ List.replicate 13 .turn
    let w := o.world.pulses ps
    ∃ f r, f ∈ w.hands ∧ f.role = .run r ∧ f.todo = [] ∧ f.fault = none ∧
      (w.steps f.id).getLast? = some (3, .readModeStart) ∧ r.page.text = "" ∧
      ((w.calls f.id).filterMap StageCall.pageText?).getLast?.getD "" = "ab" := by
  intro o ps w
  have seen : w.ready.head?.map (fun f => (f.run?.map (·.page.text), f.todo.isEmpty, f.fault)) =
      some (some "", true, none) := by decide +kernel
  have told : w.ready.head?.map (fun f => ((w.steps f.id).getLast?,
      ((w.calls f.id).filterMap StageCall.pageText?).getLast?.getD "")) =
      some (some (3, .readModeStart), "ab") := by decide +kernel
  obtain ⟨f, head, seen⟩ := Option.map_eq_some_iff.mp seen
  simp only [Prod.mk.injEq, List.isEmpty_iff] at seen
  obtain ⟨run, idle, fault⟩ := seen
  obtain ⟨r, run, page⟩ := Option.map_eq_some_iff.mp run
  obtain ⟨rest, ready⟩ := List.head?_eq_some_iff.mp head
  rw [head, Option.map_some, Option.some_inj, Prod.mk.injEq] at told
  exact ⟨f, r, mem_hands_of_ready ready, role_of_run? run, idle, fault, told.1, page, told.2⟩

end World

end SceneScript
