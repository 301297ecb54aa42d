import SceneScript.Proofs.Pages
import SceneScript.Report
/-!
Lines of dialogue in the log. The console writes a line when its last character appears; it knows of
nothing but calls. The commands that the runs come to (`Opening.taken`) tell which lines there are: one
for every text that is not empty and was shown to its end (`lines_are_logged_once`).
-/

namespace SceneScript

/-! ### What the console says -/

def Line.isDialogue (l : Line) : Bool := l.text == "dialogue"

namespace StageCall

/-- Calls for the sentence and for the name of its speaker. -/
def voiced? (c : StageCall) : Option StageCall :=
  match c with
  | .showNameBox .. | .hideNameBox | .setSentence _ | .setSentenceVisible _ => some c
  | _ => none

def sentence? : StageCall → Option String
  | .setSentence text => some text
  | _ => none

def visible? : StageCall → Option Nat
  | .setSentenceVisible count => some count
  | _ => none

theorem voiced?_unscripted (c : StageCall) (other : c.isScripted = false) : c.voiced? = none := by
  cases c <;> first | rfl | cases other

end StageCall

namespace Console

def spoken? (c : Console) : StageCall → Option Line
  | .setSentenceVisible count =>
    if count = c.text.length ∧ c.visible < c.text.length then some c.dialogue else none
  | _ => none

/-- The lines of dialogue that these calls make. -/
def spoken (c : Console) : List StageCall → List Line
  | [] => []
  | call :: calls => (c.spoken? call).toList ++ (c.after call).spoken calls

def afterAll (c : Console) (calls : List StageCall) : Console := calls.foldl after c

theorem spoken_append (c : Console) (calls calls' : List StageCall) :
    c.spoken (calls ++ calls') = c.spoken calls ++ (c.afterAll calls).spoken calls' := by
  induction calls generalizing c with
  | nil => rfl
  | cons call calls ih =>
    rw [List.cons_append, spoken, spoken, ih, List.append_assoc]
    rfl

theorem filter_line? (c : Console) (call : StageCall) :
    (c.line? call).filter Line.isDialogue = c.spoken? call := by
  cases call with
  | setSentenceVisible count =>
    simp only [line?, spoken?]
    split <;> rfl
  | setReadModeText page =>
    simp only [line?, spoken?]
    split <;> rfl
  | _ => rfl

/-- Other calls are nothing to the console. -/
theorem spoken_voiced (c : Console) (calls : List StageCall) :
    c.spoken calls = c.spoken (calls.filterMap StageCall.voiced?) ∧
      c.afterAll calls = c.afterAll (calls.filterMap StageCall.voiced?) := by
  induction calls generalizing c with
  | nil => exact ⟨rfl, rfl⟩
  | cons call calls ih =>
    obtain ⟨said, after⟩ := ih (c.after call)
    cases call with
    | showNameBox | hideNameBox | setSentence | setSentenceVisible =>
      exact ⟨congrArg (_ ++ ·) said, after⟩
    | _ => exact ih c

theorem spoken_one (c : Console) (call : StageCall) :
    c.spoken call.voiced?.toList = (c.spoken? call).toList ∧
      c.afterAll call.voiced?.toList = c.after call := by
  have listed : [call].filterMap StageCall.voiced? = call.voiced?.toList := by
    cases made : call.voiced? <;> simp [made]
  obtain ⟨said, after⟩ := listed ▸ c.spoken_voiced [call]
  exact ⟨said.symm.trans (List.append_nil _), after.symm⟩

end Console

theorem Remark.not_dialogue (r : Remark) : r.line.isDialogue = false := by
  cases r <;> rfl

namespace Logbook

/-- The dialogue in a log is what the console says, if the log is kept that closely. -/
theorem filter_writeAll (level : Option Level) (deeds : List Deed) :
    let b : Logbook := ⟨level, some .blank⟩
    (b.writeAll deeds).2.toList.filter Line.isDialogue =
      (Console.blank.spoken (deeds.filterMap Deed.stage?)).filter b.keeps := by
  intro b
  suffices general : ∀ (c : Console) (lines : Array Line),
      (deeds.foldl (fun (x : Logbook × Array Line) d => x.1.write x.2 d)
        (⟨level, some c⟩, lines)).2.toList.filter Line.isDialogue =
      lines.toList.filter Line.isDialogue ++
        (c.spoken (deeds.filterMap Deed.stage?)).filter b.keeps by
    exact (general .blank #[]).trans (List.nil_append _)
  have pushed (lines : Array Line) (l : Line) :
      (if b.keeps l then lines.push l else lines).toList.filter Line.isDialogue =
        lines.toList.filter Line.isDialogue ++
          ((some l).filter Line.isDialogue).toList.filter b.keeps := by
    cases kept : b.keeps l <;> cases said : l.isDialogue <;>
      simp [Option.filter, kept, said, List.filter_append]
  induction deeds with
  | nil => simp [Console.spoken]
  | cons d deeds ih =>
    intro c lines
    rw [List.foldl_cons]
    cases d with
    | remark r =>
      refine (ih c _).trans ?_
      rw [show (⟨level, some c⟩ : Logbook).keeps = b.keeps from rfl, pushed]
      have none : ((some r.line).filter Line.isDialogue).toList = [] := by
        simp [Option.filter, r.not_dialogue]
      rw [none, List.filter_nil, List.append_nil]
      rfl
    | stage call =>
      let written := (Logbook.write ⟨level, some c⟩ lines (.stage call)).2
      have own : written.toList.filter Line.isDialogue = lines.toList.filter Line.isDialogue ++
          (c.spoken? call).toList.filter b.keeps := by
        rw [← c.filter_line? call]
        dsimp only [written, write]
        cases made : c.line? call with
        | none => simp
        | some l => exact pushed lines l
      refine (ih (c.after call) written).trans ?_
      rw [own, List.filterMap_cons]
      simp [Deed.stage?, Console.spoken]
    | _ => exact ih c lines

end Logbook

/-! ### Commands that a run comes to -/

/-- What a deed tells of the sentence: a call for it, or that a step begins. -/
def Deed.voiced? : Deed → Option (Option StageCall)
  | .stage c => c.voiced?.map some
  | .event (.stepped ..) => some none
  | _ => none

/-- A command that a run has come to: the fiber of the run, the command and its place, and how much the
fiber had told of the sentence by then. -/
structure Taken where
  id : Nat
  place : Nat
  command : Command
  mark : Nat

namespace World

/-- What a fiber told of the sentence. -/
def voiced (w : World) (id : Nat) : List (Option StageCall) := tale Deed.voiced? id w.entries

/-- The command that is taken up in the turn to come. -/
def takes? (w : World) : Option Taken :=
  w.ready.head?.bind fun f => f.run?.bind fun r =>
    if f.doomed = false ∧ f.todo.isEmpty ∧ f.fault = none then
      r.program.commands[r.pointer]?.map fun c =>
        ⟨f.id, r.pointer, c, (w.voiced f.id).length + 1⟩
    else none

def takenIn? (w : World) : Pulse → Option Taken
  | .turn => w.takes?
  | _ => none

end World

/-- The calls for the sentence that a command has made: those before the next step. -/
def Taken.callsIn (t : Taken) (told : List (Option StageCall)) : List StageCall :=
  ((told.drop t.mark).takeWhile Option.isSome).filterMap fun call => call

def World.callsOf (w : World) (t : Taken) : List StageCall := t.callsIn (w.voiced t.id)

/-- The commands that the runs have come to, one after the other. -/
def Opening.taken (o : Opening) (ps : List Pulse) : List Taken :=
  (List.range ps.length).filterMap fun i => ps[i]?.bind (o.world.pulses (ps.take i)).takenIn?

/-- After the sentence was set, all of it was shown. -/
def reaches (body : String) (calls : List StageCall) : Bool :=
  (calls.dropWhile (·.sentence? != some body)).any (·.visible? == some body.length)

/-- The line that a command stands for in the log: that of a text which is not empty, once it was shown
to its end. -/
def World.line? (w : World) (t : Taken) : Option Line :=
  match t.command with
  | .text speaker body _ _ =>
    if body ≠ "" ∧ reaches body (w.callsOf t) then
      some ⟨.info, "dialogue",
        [("speaker", .text (if speaker = w.settings.systemSpeaker then "-" else speaker)),
          ("line", .text body)]⟩
    else none
  | _ => none

section

variable {t : Taken} {told : List (Option StageCall)} {calls : List StageCall} {call : StageCall}
  {body : String}

/-- Whatever comes after the next step is not a call of this command. -/
theorem Taken.callsIn_append_of_mem (closed : none ∈ told.drop t.mark)
    (later : List (Option StageCall)) : t.callsIn (told ++ later) = t.callsIn told := by
  have within : t.mark ≤ told.length := by
    by_contra beyond
    rw [List.drop_eq_nil_of_le (Nat.le_of_lt (Nat.not_le.mp beyond))] at closed
    cases closed
  rw [callsIn, List.drop_append_of_le_length within, List.takeWhile_append, if_neg, callsIn]
  intro whole
  have all := (List.takeWhile_eq_self_iff.mp
    ((List.takeWhile_prefix _).eq_of_length whole)) none closed
  cases all

theorem Taken.callsIn_concat_none (within : t.mark ≤ told.length) :
    t.callsIn (told ++ [none]) = t.callsIn told := by
  rw [callsIn, List.drop_append_of_le_length within, List.takeWhile_append, callsIn]
  split
  · rename_i whole
    rw [(List.takeWhile_prefix _).eq_of_length whole]
    simp
  · rfl

theorem Taken.callsIn_concat (within : t.mark ≤ told.length)
    (goes : ∀ x ∈ told.drop t.mark, x.isSome = true) (call : StageCall) :
    t.callsIn (told ++ [some call]) = t.callsIn told ++ [call] := by
  have whole := List.takeWhile_eq_self_iff.mpr goes
  rw [callsIn, List.drop_append_of_le_length within, List.takeWhile_append, whole, if_pos rfl,
    callsIn, whole]
  simp

/-- The sentence was set. -/
def sets (body : String) (calls : List StageCall) : Bool := calls.any (·.sentence? == some body)

theorem reaches_concat (body : String) (calls : List StageCall) (call : StageCall) :
    reaches body (calls ++ [call]) =
      (reaches body calls || (sets body calls && call.visible? == some body.length)) := by
  induction calls with
  | nil =>
    cases call <;> simp [reaches, sets, StageCall.sentence?, StageCall.visible?, List.dropWhile]
    split <;> simp
  | cons first calls ih =>
    unfold reaches sets at ih ⊢
    by_cases here : first.sentence? = some body
    · simp [here, Bool.or_assoc]
    · have other : (first.sentence? == some body) = false := beq_eq_false_iff_ne.mpr here
      simpa [bne, other, List.dropWhile_cons] using ih

theorem sets_append (set : sets body calls = true) (later : List StageCall) :
    sets body (calls ++ later) = true := by
  rw [sets, List.any_append, show calls.any _ = true from set, Bool.true_or]

theorem reaches_visible (set : sets body calls = true) (m : Nat) :
    reaches body (calls ++ [.setSentenceVisible m]) = (reaches body calls || m == body.length) := by
  rw [reaches_concat, set, Bool.true_and]
  rfl

theorem reaches_of_unset (unset : sets body calls = false) : reaches body calls = false := by
  induction calls using List.reverseRecOn with
  | nil => rfl
  | append_singleton calls call ih =>
    rw [sets, List.any_append, Bool.or_eq_false_iff] at unset
    rw [reaches_concat, ih unset.1, show sets body calls = false from unset.1]
    rfl

end

namespace World

variable {w : World} {f g : Fiber} {r : Run} {c : Command} {rest : List Fiber} {p : Pulse} {id : Nat}
  {t : Taken}

theorem takes?_eq_some : w.takes? = some t ↔ ∃ f r, w.TakesUp f r t.command ∧
    t = ⟨f.id, r.pointer, t.command, (w.voiced f.id).length + 1⟩ := by
  constructor
  · intro takes
    obtain ⟨f, head, takes⟩ := Option.bind_eq_some_iff.mp takes
    obtain ⟨r, run, takes⟩ := Option.bind_eq_some_iff.mp takes
    split at takes
    · rename_i going
      obtain ⟨spared, todo, fault⟩ := going
      obtain ⟨c, found, rfl⟩ := Option.map_eq_some_iff.mp takes
      exact ⟨f, r, ⟨head, role_of_run? run, spared, List.isEmpty_iff.mp todo, fault, found⟩, rfl⟩
    · cases takes
  · rintro ⟨f, r, ⟨head, role, spared, todo, fault, found⟩, same⟩
    rw [takes?, head, Option.bind_some, Fiber.run?, role, Option.bind_some,
      if_pos ⟨spared, by rw [todo]; rfl, fault⟩, found, Option.map_some, same]

theorem TakesUp.takes? (h : w.TakesUp f r c) :
    w.takes? = some ⟨f.id, r.pointer, c, (w.voiced f.id).length + 1⟩ :=
  takes?_eq_some.mpr ⟨f, r, h, rfl⟩

end World

theorem Opening.taken_concat (o : Opening) (ps : List Pulse) (p : Pulse) :
    o.taken (ps ++ [p]) = o.taken ps ++ ((o.world.pulses ps).takenIn? p).toList := by
  rw [taken, List.length_append, List.length_singleton, List.range_succ, List.filterMap_append]
  refine congrArg₂ (· ++ ·) (List.filterMap_congr fun i among => ?_) ?_
  · have early := List.mem_range.mp among
    rw [List.getElem?_append_left early, List.take_append_of_le_length (Nat.le_of_lt early)]
  · rw [List.filterMap_cons, List.filterMap_nil, List.getElem?_concat_length, List.take_left]
    cases taken : (o.world.pulses ps).takenIn? p <;> simp [taken]

/-! ### What a text has left to say -/

namespace Act

/-- Acts for the sentence. -/
def isVoiced : Act → Bool
  | .stage c => c.voiced?.isSome
  | .reveal ⟨.sentence _, _, _⟩ => true
  | _ => false

/-- Acts that show some of the sentence. -/
def isVisible : Act → Bool
  | .stage c => c.visible?.isSome
  | .reveal ⟨.sentence _, _, _⟩ => true
  | _ => false

/-- With `k` of `n` characters shown, the act shows no fewer, and `next` holds when it is done. A reveal
leaves off anywhere on its way. -/
def Shows (n : Nat) (next : Nat → Prop) (k : Nat) : Act → Prop
  | .stage (.setSentenceVisible m) => k ≤ m ∧ m ≤ n ∧ next m
  | .stage c => c.voiced? = none ∧ next k
  | .reveal ⟨.sentence _, shown, last⟩ =>
    k ≤ shown ∧ shown ≤ n ∧ last ≤ n ∧ ∀ m, k ≤ m → m ≤ max shown last → next m
  | _ => next k

theorem isVisible_of_not_isVoiced {a : Act} (plain : a.isVoiced = false) : a.isVisible = false := by
  cases a with
  | stage c => cases c <;> first | rfl | cases plain
  | reveal v =>
    obtain ⟨kind, shown, last⟩ := v
    cases kind <;> first | rfl | cases plain
  | _ => rfl

end Act

/-- These acts show no fewer than `k` of `n` characters at any time. -/
def Shows (n : Nat) : List Act → Nat → Prop
  | [], _ => True
  | a :: rest, k => a.Shows n (Shows n rest) k

/-- How far a text is: what the console holds, the calls that were made, and what is left to do. -/
inductive Speaks (name body : String) (box : StageCall) (speech : List Act) :
    Console → List StageCall → List Act → Prop where
  | names (c : Console) : Speaks name body box speech c []
      (.stage box :: .stage (.setSentenceVisible 0) :: .stage (.setSentence body) :: speech)
  | hides (c : Console) : c.speaker.getD "-" = name → Speaks name body box speech c [box]
      (.stage (.setSentenceVisible 0) :: .stage (.setSentence body) :: speech)
  | puts (c : Console) : c.speaker.getD "-" = name →
      Speaks name body box speech c [box, .setSentenceVisible 0] (.stage (.setSentence body) :: speech)
  | shows (c : Console) {calls : List StageCall} {todo : List Act} : c.speaker.getD "-" = name →
      c.text = body → sets body calls = true →
      (body ≠ "" → (reaches body calls = true ↔ c.visible = body.length)) →
      Shows body.length todo c.visible → Speaks name body box speech c calls todo

/-- The line of a text, once it was shown to its end. -/
def utters? (name body : String) (calls : List StageCall) : Option Line :=
  if body ≠ "" ∧ reaches body calls then
    some ⟨.info, "dialogue", [("speaker", .text name), ("line", .text body)]⟩
  else none

section

variable {name body : String} {box call : StageCall} {speech after new todo : List Act} {c : Console}
  {calls : List StageCall} {a : Act} {n k : Nat}

theorem shows_append (plain : ∀ b ∈ new, b.isVoiced = false) :
    Shows n (new ++ after) k ↔ Shows n after k := by
  induction new with
  | nil => exact Iff.rfl
  | cons a new ih =>
    obtain ⟨own, others⟩ := List.forall_mem_cons.mp plain
    refine Iff.trans ?_ (ih others)
    cases a with
    | stage c => cases c <;> first | exact and_iff_right rfl | cases own
    | reveal v =>
      obtain ⟨kind, shown, last⟩ := v
      cases kind <;> first | exact Iff.rfl | cases own
    | _ => exact Iff.rfl

/-- A turn that a reveal takes. It says nothing itself. -/
theorem Shows.reveals {settings : Settings} {v : Reveal} {acts : List Act} {k₀ k' : Keys}
    {ms : List Mark} (h : Shows n (.reveal v :: after) k)
    (stroke : Stroke settings (.reveal v :: after) k₀ ms acts k') : Shows n acts k := by
  obtain ⟨kind, shown, last⟩ := v
  cases kind with
  | page =>
    cases stroke with
    | stops => exact h
    | reveals => exact ⟨rfl, h⟩
  | sentence skippable =>
    obtain ⟨within, low, high, goes⟩ := h
    cases stroke with
    | stops => exact goes k (Nat.le_refl _) (Nat.le_trans within (Nat.le_max_left _ _))
    | reveals _ more =>
      have more : shown < last := more
      refine ⟨Nat.le_succ_of_le within, Nat.le_trans more high, Nat.le_refl _,
        Nat.le_trans more high, high, fun m from' upTo => goes m ?_ ?_⟩
      · exact Nat.le_trans within (Nat.le_of_succ_le from')
      · have upTo : m ≤ max (shown + 1) last := upTo
        omega

theorem utters?_of_unreached (silent : reaches body calls = false) :
    utters? name body calls = none := by
  rw [utters?, if_neg (by simp [silent])]

/-- The line is said by the call that shows the last of it, and by none after that. -/
theorem utters?_visible {m : Nat} (named : c.speaker.getD "-" = name) (holds : c.text = body)
    (set : sets body calls = true)
    (count : body ≠ "" → (reaches body calls = true ↔ c.visible = body.length))
    (more : c.visible ≤ m) (within : m ≤ body.length) :
    (utters? name body calls).toList ++ (c.spoken? (.setSentenceVisible m)).toList =
      (utters? name body (calls ++ [.setSentenceVisible m])).toList := by
  rw [utters?, utters?, reaches_visible set, Console.spoken?, holds, Console.dialogue, holds, named]
  by_cases some : body = ""
  · subst some
    simp
  · have count := count some
    cases said : reaches body calls with
    | true =>
      have whole : c.visible = body.length := count.mp said
      simp [some, whole]
    | false =>
      have short : c.visible ≠ body.length := fun whole => by simp [count.mpr whole] at said
      have short : c.visible < body.length := by omega
      by_cases last : m = body.length
      · simp [some, last, short]
      · simp [last]

/-- A call of a text: what the console makes of it is the line of the text, if that is complete now. -/
theorem Speaks.utters (h : Speaks name body box speech c calls (.stage call :: after))
    (names : (c.after box).speaker.getD "-" = name) (boxed : box.voiced? = some box)
    (aside : box.sentence? = none ∧ box.visible? = none) (starts : Shows body.length speech 0) :
    Speaks name body box speech (c.after call) (calls ++ call.voiced?.toList) after ∧
      (utters? name body calls).toList ++ (c.spoken? call).toList =
        (utters? name body (calls ++ call.voiced?.toList)).toList := by
  have unset (calls : List StageCall) (among : ∀ x ∈ calls, x.sentence? = none) :
      sets body calls = false :=
    List.any_eq_false.mpr fun x member => by simp [among x member]
  have opening : ∀ x ∈ [box, .setSentenceVisible 0], x.sentence? = none :=
    List.forall_mem_cons.mpr ⟨aside.1, List.forall_mem_cons.mpr ⟨rfl, List.forall_mem_nil _⟩⟩
  have unsaid {calls : List StageCall} (among : ∀ x ∈ calls, x.sentence? = none) :
      utters? name body calls = none :=
    utters?_of_unreached (reaches_of_unset (unset calls among))
  cases h with
  | names =>
    have silent : c.spoken? box = none := by
      cases box <;> first | rfl | cases aside.2
    rw [boxed, silent, unsaid (List.forall_mem_nil _)]
    exact ⟨.hides _ names, congrArg Option.toList
      (unsaid fun (x : StageCall) (member : x ∈ [box]) => opening x (by simp_all)).symm⟩
  | hides named =>
    have silent : c.spoken? (.setSentenceVisible 0) = none := if_neg (by omega)
    rw [silent, unsaid fun x member => opening x (by simp_all)]
    exact ⟨.puts _ named, congrArg Option.toList (unsaid opening).symm⟩
  | puts named =>
    have unreached :
        reaches body ([box, .setSentenceVisible 0] ++ [.setSentence body]) = false := by
      rw [reaches_concat, reaches_of_unset (unset _ opening), unset _ opening]
      rfl
    refine ⟨.shows _ named rfl (by simp [sets, StageCall.voiced?, StageCall.sentence?])
      (fun some => ?_) starts, ?_⟩
    · have long : body.length ≠ 0 := by simpa using some
      exact iff_of_false (Bool.eq_false_iff.mp unreached) (Ne.symm long)
    · rw [unsaid opening]
      exact congrArg Option.toList (utters?_of_unreached unreached).symm
  | shows named holds set count left =>
    by_cases visible : ∃ m, call = .setSentenceVisible m
    · obtain ⟨m, rfl⟩ := visible
      obtain ⟨more, within, left⟩ := left
      refine ⟨.shows _ named holds (sets_append set _) (fun some => ?_) left,
        utters?_visible named holds set count more within⟩
      show reaches body (calls ++ [.setSentenceVisible m]) = true ↔ m = body.length
      rw [reaches_visible set, Bool.or_eq_true, beq_iff_eq, count some]
      omega
    · have silent : call.voiced? = none ∧ Shows body.length after c.visible := by
        cases call <;> first | exact left | exact absurd ⟨_, rfl⟩ visible
      have same : c.after call = c ∧ c.spoken? call = none := by
        cases call <;> first | exact ⟨rfl, rfl⟩ | cases silent.1
      rw [silent.1, same.1, same.2]
      simp only [Option.toList_none, List.append_nil]
      exact ⟨.shows c named holds set count silent.2, trivial⟩

/-- A turn in which a text makes no call. -/
theorem Speaks.moves (h : Speaks name body box speech c calls (a :: after))
    (other : ∀ call, a ≠ .stage call)
    (keeps : Shows body.length (a :: after) c.visible → Shows body.length todo c.visible) :
    Speaks name body box speech c calls todo := by
  cases h with
  | names | hides | puts => exact absurd rfl (other _)
  | shows named holds set count left => exact .shows c named holds set count (keeps left)

theorem Act.isVoiced_of_puts (puts : a.Puts new) (calm : ∀ call, a ≠ .stage call)
    (other : ∀ v, a ≠ .reveal v) : ∀ b ∈ new, b.isVoiced = false := by
  cases a with
  | stage call => exact absurd rfl (calm call)
  | reveal v => exact absurd rfl (other v)
  | finish | confirm | branch | enterScene => rcases puts with rfl | rfl <;> simp [isVoiced]
  | sweep => rcases puts with rfl | ⟨-, rfl⟩ <;> simp [isVoiced]
  | stride => rcases puts with rfl | ⟨_, -, rfl⟩ <;> simp [isVoiced]
  | answer | count => rcases puts with rfl | ⟨_, rfl⟩ <;> simp [isVoiced]
  | offer | switch =>
    obtain ⟨_, rfl⟩ := puts
    simp [isVoiced, opening, Command.animate, StageCall.voiced?]
  | chosen =>
    obtain rfl := puts
    simp [isVoiced, closing, Command.animate, StageCall.voiced?]
  | load job =>
    rcases puts with rfl | rfl
    · simp
    · intro b among
      have scenic := isScenic_of_mem_acts among
      cases b <;> first | rfl | cases scenic
  | clearBoard =>
    obtain ⟨_, _, _, _, rfl⟩ := puts
    simp [isVoiced]
  | _ =>
    obtain rfl := puts
    simp

end

namespace Command

def isText : Command → Bool
  | text .. => true
  | _ => false

/-- What a text does when its sentence is set. -/
def speech (body : String) (skippable : Bool) : List Act :=
  [.listen, .reveal ⟨.sentence skippable, 0, body.length⟩,
    .stage (.setSentenceVisible body.length)] ++ awaitConfirm

theorem shows_speech (body : String) (skippable : Bool) :
    Shows body.length (speech body skippable) 0 := by
  refine ⟨Nat.le_refl _, Nat.zero_le _, Nat.le_refl _, fun m _ upTo => ?_⟩
  have upTo : m ≤ body.length := by omega
  exact ⟨upTo, Nat.le_refl _, rfl, rfl, trivial⟩

/-- The name that the console writes. -/
def caption (settings : Settings) (speaker : String) : String :=
  if speaker = settings.systemSpeaker then "-" else speaker

theorem nameBox_names (settings : Settings) (speaker : String) (side : Place) (c : Console) :
    (c.after (nameBox settings speaker side)).speaker.getD "-" = caption settings speaker ∧
      (nameBox settings speaker side).voiced? = some (nameBox settings speaker side) ∧
      (nameBox settings speaker side).sentence? = none ∧
      (nameBox settings speaker side).visible? = none := by
  unfold nameBox caption
  by_cases system : speaker = settings.systemSpeaker <;>
    simp [system, Console.after, StageCall.voiced?, StageCall.sentence?, StageCall.visible?]

/-- Nothing but a text shows any of the sentence. -/
theorem isVisible_acts {c : Command} (settings : Settings) (page : Page) (other : c.isText = false) :
    ∀ a ∈ c.acts settings page, a.isVisible = false := by
  cases c with
  | text => cases other
  | boxState opens => cases opens <;> simp [acts, animate, Act.isVisible, StageCall.visible?]
  | image layer texture | portrait place texture =>
    cases texture <;> simp [acts, tintActs, Act.isVisible, StageCall.visible?]
  | _ => simp [acts, animate, awaitConfirm, flashActs, Act.isVisible, StageCall.visible?]

end Command

/-! ### What the host shows -/

namespace World

variable {w : World} {f g : Fiber} {r : Run} {c : Command} {rest : List Fiber} {p : Pulse} {id : Nat}
  {t : Taken}

/-- The calls for the sentence, whoever made them. -/
def heard (w : World) : List StageCall := w.shown.filterMap StageCall.voiced?

theorem heard_of_shown {w' : World} (same : w'.shown = w.shown) : w'.heard = w.heard := by
  rw [heard, same, heard]

theorem heard_chores {w' : World} (chores : Chores (· ≠ .stage) w w') : w'.heard = w.heard :=
  heard_of_shown (shown_chores chores)

theorem heard_launch (w : World) (q : Program) : (w.launch q).heard = w.heard := by
  have begun : w.begun.shown = w.shown := rfl
  rw [heard, launch, shown_chores (chores_spawn _ _ _ rfl), announce, shown_emit, shown_stage,
    shown_stage, shown_chores (chores_renewScope _), begun, List.filterMap_append,
    List.filterMap_append]
  exact (List.append_nil _).trans (List.append_nil _)

theorem heard_executeNumber (w : World) (n : Nat) : (w.executeNumber n).1.heard = w.heard := by
  rcases execute_cases w (w.programs.getD n (.ofCommands [])) with
    ⟨e, rm, q, heq, -⟩ | ⟨q, -, -, -, heq⟩
  · rw [executeNumber, heq]
    exact heard_of_shown (shown_remark w rm)
  · rw [executeNumber, heq]
    exact heard_launch w q

theorem heard_brief (w : World) {s : HostStep} (brief : s.isBrief = true) :
    (w.apply s).1.heard = w.heard := by
  cases s with
  | tick | burst | sleep => cases brief
  | execute n => exact heard_executeNumber w n
  | select index => exact heard_chores (chores_select w index)
  | cancelSideEffects => exact heard_chores (chores_cancelSideEffects w)
  | abort | abortLoad => exact heard_chores (chores_abortFiber w _)
  | play channel clip pitch => exact heard_chores (chores_play w channel clip pitch fun _ => nofun)
  | fadeOut channel span => exact heard_chores (chores_fadeOut w channel span fun _ => nofun)
  | stopChannel channel => exact heard_chores (chores_stopChannel w channel nofun)
  | dropClock =>
    refine heard_of_shown ?_
    show w.dropClock.shown = w.shown
    unfold dropClock
    split <;> rfl
  | _ => rfl

/-- Only runs have stage acts to do. -/
theorem nextCall?_background (dutiful : f.Dutiful) (background : f.isRun = false) :
    f.nextCall? = none := by
  unfold Fiber.nextCall?
  split
  · rename_i call rest todo fault
    have allowed := dutiful background (.stage call) (todo ▸ List.mem_cons_self)
    cases role : f.role <;> rw [role] at allowed <;> cases allowed
  · rfl

theorem heard_turn (order : w.InOrder) (ready : w.ready = f :: rest) : w.turn.heard = w.heard ++
    (if f.doomed || w.isCancelled f then none
      else f.nextCall?.bind StageCall.voiced?).toList := by
  rw [heard, shown_turn order ready, List.filterMap_append,
    filterMap_turnCalls StageCall.voiced?_unscripted]
  rfl

/-- Nobody but a run whose turn it is says anything. -/
theorem heard_pulse (play : w.InPlay)
    (other : ∀ f r rest, p = .turn → w.ready = f :: rest → f.role ≠ .run r) :
    (w.pulse p).heard = w.heard := by
  cases p with
  | publish delta keys =>
    refine heard_of_shown ?_
    show ((w.publish delta keys)).shown = w.shown
    rw [publish, shown_chores (chores_wake _ _), shown_record_aside _ rfl]
    rfl
  | pass span => rfl
  | host s brief => exact heard_brief w brief
  | turn =>
    cases ready : w.ready with
    | nil =>
      show w.turn.heard = w.heard
      rw [turn, ready]
    | cons f rest =>
      have background : f.isRun = false :=
        f.isRun_eq_false_iff.mpr fun r => other f r rest rfl ready
      have dutiful : f.Dutiful := play.order.crewed.dutiful f.calm (calm_mem_crew ready)
      refine (heard_turn play.order ready).trans ?_
      rw [nextCall?_background dutiful background, Option.bind_none, ite_self, Option.toList_none,
        List.append_nil]

end World

/-! ### Steps -/

/-- A step that is told of, and who takes it. -/
def Entry.stepped? (e : Entry) : Option (Option Nat × Nat × Opcode) :=
  e.deed.stepped?.map fun s => (e.author, s)

def Taken.step (t : Taken) : Option Nat × Nat × Opcode := (some t.id, t.place, t.command.opcode)

theorem Plot.Touches.stepped {p p' : Plot} (touched : Plot.Touches p p') :
    p'.story.filterMap Entry.stepped? = p.story.filterMap Entry.stepped? := by
  obtain ⟨notes, story, told⟩ := touched.story
  have silent : notes.filterMap Entry.stepped? = [] :=
    List.filterMap_eq_nil_iff.mpr fun e member => by
      obtain ⟨n, deed⟩ := told e member
      rw [Entry.stepped?, deed]
      rfl
  rw [story, List.filterMap_append, silent, List.append_nil]

/-- Steps are told of where a command is taken up, and nowhere else. -/
theorem Plot.Plays.stepped {p p' : Plot} {l : Lead} (h : Plays l p p') :
    p'.story.filterMap Entry.stepped? = p.story.filterMap Entry.stepped? ∨
      l.todo = [] ∧ l.fault = none ∧ p'.leads ≠ [] ∧
        ∃ c, l.run.program.commands[l.run.pointer]? = some c := by
  have ends (p : Plot) (o : Outcome) :
      (p.ends l o).story.filterMap Entry.stepped? = p.story.filterMap Entry.stepped? := by
    rw [Plot.ends, Plot.add, List.filterMap_append]
    cases o <;> exact List.append_nil _
  have tells (p : Plot) (l' : Lead) {d : Deed} (silent : d.stepped? = none) :
      ((p.tell l d).lead l').story.filterMap Entry.stepped? =
        p.story.filterMap Entry.stepped? := by
    refine List.filterMap_append.trans ?_
    rw [List.filterMap_cons, Entry.stepped?, silent]
    exact List.append_nil _
  cases h with
  | completes | fails | stops => exact .inl (ends p _)
  | @breaks p₁ text touched => exact .inl ((ends p₁ _).trans touched.stepped)
  | fetches settings page idle fault found =>
    exact .inr ⟨idle, fault, List.cons_ne_nil _ _, _, found⟩
  | goes | skips | offers | refuses | hears | misses | jumps | strays => exact .inl rfl
  | shows | chooses | holds | turns | switches | unheard => exact .inl (tells p _ rfl)
  | calls _ _ touched => exact .inl ((tells _ _ rfl).trans touched.stepped)

namespace World

variable {w : World} {f g : Fiber} {r : Run} {c : Command} {rest : List Fiber} {p : Pulse} {id : Nat}
  {t : Taken}

/-- All steps so far. -/
def stepped (w : World) : List (Option Nat × Nat × Opcode) := w.entries.filterMap Entry.stepped?

theorem stepped_eq (w : World) : w.stepped = w.plot.story.filterMap Entry.stepped? := by
  refine (filterMap_story _ (fun e idle => ?_) w).symm
  rw [Entry.stepped?]
  cases deed : e.deed with
  | event e => rw [deed] at idle; cases e <;> first | rfl | cases idle
  | _ => rfl

theorem TakesUp.stepped (h : w.TakesUp f r c) :
    w.turn.stepped = w.stepped ++ [(some f.id, r.pointer, c.opcode)] := by
  obtain ⟨rest, -, -, -, entries⟩ := h.turn
  rw [World.stepped, entries, List.filterMap_append]
  rfl

/-- The steps are the commands that are taken up. -/
theorem stepped_pulse (o : Opening) (ps : List Pulse) (p : Pulse) :
    ((o.world.pulses ps).pulse p).stepped = (o.world.pulses ps).stepped ++
      (((o.world.pulses ps).takenIn? p).map Taken.step).toList := by
  have play := inPlay_pulses o ps
  have acted := acted o ps p
  generalize o.world.pulses ps = w at *
  cases taken : w.takenIn? p with
  | some t =>
    cases p with
    | turn =>
      obtain ⟨f, r, starts, same⟩ := takes?_eq_some.mp taken
      refine starts.stepped.trans ?_
      rw [same]
      rfl
    | _ => cases taken
  | none =>
    refine Eq.trans ?_ (List.append_nil _).symm
    rw [stepped_eq, stepped_eq]
    cases acted with
    | beside touched => exact touched.stepped
    | starts _ _ _ _ _ plot =>
      rw [plot]
      exact List.filterMap_append.trans (List.append_nil _)
    | @plays f rest r turn ready role plays =>
      refine plays.stepped.resolve_right ?_
      rintro ⟨todo, fault, alive, c, found⟩
      subst turn
      obtain ⟨l, among⟩ := List.exists_mem_of_ne_nil _ alive
      have spared := spared_of_mem_leads play.order.staged.attended ready role among
      have starts : w.TakesUp f r c := ⟨by rw [ready]; rfl, role, spared, todo, fault, found⟩
      rw [show w.takenIn? .turn = w.takes? from rfl, starts.takes?] at taken
      cases taken

/-! ### What a run says in its turn -/

theorem voiced_turn (order : w.InOrder) (ready : w.ready = f :: rest)
    (silent : w.turn.stepped = w.stepped) : w.turn.voiced f.id = w.voiced f.id ++
      ((if f.doomed || w.isCancelled f then none
        else f.nextCall?.bind StageCall.voiced?).map some).toList := by
  obtain ⟨es, grown, own⟩ := entries_turn order ready
  have none : es.filterMap Entry.stepped? = [] := by
    rw [stepped, grown, List.filterMap_append] at silent
    exact List.append_right_eq_self.mp silent
  have made : es.filterMap (·.deed.stage?) = (w.taken f rest).turnCalls f := by
    have all := shown_turn order ready
    rw [shown, shown, grown, List.filterMap_append] at all
    exact List.append_cancel_left all
  have told : tale Deed.voiced? f.id es =
      (((w.taken f rest).turnCalls f).filterMap StageCall.voiced?).map some := by
    rw [← made, List.filterMap_filterMap, List.map_filterMap]
    refine List.filterMap_congr fun e among => ?_
    rw [if_pos (own e among)]
    have plain := List.filterMap_eq_nil_iff.mp none e among
    rw [Entry.stepped?, Option.map_eq_none_iff] at plain
    cases deed : e.deed with
    | event e => rw [deed] at plain; cases e <;> first | rfl | cases plain
    | stage call => rfl
    | _ => rfl
  rw [voiced, voiced, grown, tale_append, told, filterMap_turnCalls StageCall.voiced?_unscripted]
  rw [show (w.taken f rest).isCancelled f = w.isCancelled f from rfl]
  cases (if f.doomed || w.isCancelled f then Option.none
    else f.nextCall?.bind StageCall.voiced?) <;> rfl

theorem TakesUp.voiced (h : w.TakesUp f r c) : w.turn.voiced f.id = w.voiced f.id ++ [none] := by
  obtain ⟨rest, -, -, -, entries⟩ := h.turn
  rw [World.voiced, entries, tale_append]
  simp [tale, World.voiced, Deed.voiced?]

/-- Nobody else says anything. -/
theorem voiced_pulse (o : Opening) (ps : List Pulse) (p : Pulse)
    (other : ∀ f r rest, p = .turn → (o.world.pulses ps).ready = f :: rest → f.role ≠ .run r)
    (id : Nat) : ((o.world.pulses ps).pulse p).voiced id = (o.world.pulses ps).voiced id := by
  have play := inPlay_pulses o ps
  have stepped := stepped_pulse o ps p
  generalize o.world.pulses ps = w at *
  by_cases own : w.OwnTurn p id
  · obtain ⟨rfl, f, head, rfl⟩ := own
    obtain ⟨rest, ready⟩ := List.head?_eq_some_iff.mp head
    have background : f.isRun = false :=
      f.isRun_eq_false_iff.mpr fun r => other f r rest rfl ready
    have dutiful : f.Dutiful := play.order.crewed.dutiful f.calm (calm_mem_crew ready)
    have untaken : w.takenIn? .turn = none := by
      show w.takes? = none
      have idle : f.run? = none := by simpa [Fiber.isRun] using background
      rw [takes?, ready, List.head?_cons, Option.bind_some, idle, Option.bind_none]
    rw [untaken, Option.map_none, Option.toList_none, List.append_nil] at stepped
    refine (voiced_turn play.order ready stepped).trans ?_
    rw [nextCall?_background dutiful background, Option.bind_none, ite_self, Option.map_none,
      Option.toList_none, List.append_nil]
  · exact tale_pulse play own

/-! ### Command by command -/

/-- How far the last command of a run is, by what it still has to do. -/
inductive Reciting (w : World) (ts : List Taken) (c : Console) (l : Lead) : Prop where
  | quiet : (∀ a ∈ l.todo, a.isVisible = false) → Reciting w ts c l
  | speaks {early : List Taken} {t : Taken} {speaker body : String} {skippable : Bool} {side : Place} :
      ts = early ++ [t] → t.id = l.id → t.command = .text speaker body skippable side →
      l.fault = none → (∀ a ∈ l.todo, a.isMild = true) →
      (∀ x ∈ (w.voiced l.id).drop t.mark, x.isSome = true) →
      Speaks (Command.caption w.settings speaker) body (Command.nameBox w.settings speaker side)
        (Command.speech body skippable) c (w.callsOf t) l.todo → Reciting w ts c l

/-- The console has said the lines of the commands so far, and what the run has left to do is its last
command. -/
structure Recited (w : World) (ts : List Taken) : Prop where
  said : Console.blank.spoken w.heard = ts.filterMap w.line?
  marks : ∀ t ∈ ts, 0 < t.mark ∧ t.mark ≤ (w.voiced t.id).length
  closed : ∀ l ∈ w.leads, ∀ early t, ts = early ++ [t] → ∀ t' ∈ early, t'.id = l.id →
    none ∈ (w.voiced t'.id).drop t'.mark
  recites : ∀ l ∈ w.leads, w.Reciting ts (Console.blank.afterAll w.heard) l

/-- A command that has not said anything more stands for the same line. -/
theorem line?_of_callsOf {w' : World} (settings : w'.settings = w.settings)
    (calls : w'.callsOf t = w.callsOf t) : w'.line? t = w.line? t := by
  rw [line?, line?, calls, settings]

theorem callsOf_of_voiced {w' : World} (same : w'.voiced t.id = w.voiced t.id) :
    w'.callsOf t = w.callsOf t := by
  rw [callsOf, callsOf, same]

theorem line?_text {speaker body : String} {skippable : Bool} {side : Place}
    (text : t.command = .text speaker body skippable side) :
    w.line? t = utters? (Command.caption w.settings speaker) body (w.callsOf t) := by
  rw [line?, text]
  rfl

/-- Calls that show nothing complete no line. -/
theorem line?_of_silent {w' : World} (settings : w'.settings = w.settings)
    (within : t.mark ≤ (w.voiced t.id).length) {call? : Option StageCall}
    (grown : w'.voiced t.id = w.voiced t.id ++ (call?.map some).toList)
    (silent : ∀ call ∈ call?, call.visible? = none) : w'.line? t = w.line? t := by
  cases call? with
  | none => exact line?_of_callsOf settings (callsOf_of_voiced (grown.trans (List.append_nil _)))
  | some call =>
    have grown : w'.voiced t.id = w.voiced t.id ++ [some call] := grown
    by_cases closed : none ∈ (w.voiced t.id).drop t.mark
    · refine line?_of_callsOf settings ?_
      rw [callsOf, grown, t.callsIn_append_of_mem closed]
      rfl
    · have goes : ∀ x ∈ (w.voiced t.id).drop t.mark, x.isSome = true := by
        intro x among
        cases x with
        | none => exact absurd among closed
        | some x => rfl
      have calls : w'.callsOf t = w.callsOf t ++ [call] := by
        rw [callsOf, grown, t.callsIn_concat within goes]
        rfl
      have hidden : call.visible? = none := silent call rfl
      have same (body : String) : reaches body (w'.callsOf t) = reaches body (w.callsOf t) := by
        rw [calls, reaches_concat, hidden]
        simp
      rw [line?, line?, settings]
      cases t.command <;> first | rfl | simp only [same]

section

variable {o : Opening} {ps : List Pulse} {ts : List Taken} {con : Console} {l : Lead}

theorem Reciting.of_voiced {w' : World} (h : w.Reciting ts con l)
    (settings : w'.settings = w.settings) (voiced : ∀ id, w'.voiced id = w.voiced id) :
    w'.Reciting ts con l := by
  cases h with
  | quiet silent => exact .quiet silent
  | @speaks early t speaker body skippable side last id text fault mild goes speaks =>
    refine .speaks last id text fault mild (voiced l.id ▸ goes) ?_
    rw [settings, callsOf_of_voiced (voiced t.id)]
    exact speaks

/-- Pulses in which no run has its turn. -/
theorem Recited.other (h : (o.world.pulses ps).Recited ts)
    (other : ∀ f r rest, p = .turn → (o.world.pulses ps).ready = f :: rest → f.role ≠ .run r) :
    ((o.world.pulses ps).pulse p).Recited ts := by
  have play := inPlay_pulses o ps
  have voiced := voiced_pulse o ps p other
  have acted := acted o ps p
  have young : (o.world.pulses ps).voiced (o.world.pulses ps).nextFiber = [] :=
    tale_young o ps (Nat.le_refl _)
  generalize o.world.pulses ps = w at *
  have settings : (w.pulse p).settings = w.settings := settings_pulse play p
  have heard : (w.pulse p).heard = w.heard := heard_pulse play other
  have old : (w.pulse p).leads = w.leads ∨
      ∃ l, (w.pulse p).leads = [l] ∧ l.id = w.nextFiber ∧ l.todo = [] := by
    cases acted with
    | beside touched => exact .inl touched.leads
    | starts _ _ _ _ _ plot => exact .inr ⟨_, congrArg Plot.leads plot, rfl, rfl⟩
    | plays turn ready role => exact absurd role (other _ _ _ turn ready)
  refine ⟨?_, fun t among => ?_, fun l live early t last t' among same => ?_, fun l live => ?_⟩
  · rw [heard, h.said]
    exact List.filterMap_congr fun t _ =>
      (line?_of_callsOf settings (callsOf_of_voiced (voiced t.id))).symm
  · rw [voiced]
    exact h.marks t among
  · rw [voiced]
    rcases old with leads | ⟨l', leads, id, -⟩
    · exact h.closed l (leads ▸ live) early t last t' among same
    · -- The fiber of a run that begins has told of nothing.
      rw [leads, List.mem_singleton] at live
      have marks := h.marks t' (last ▸ List.mem_append_left _ among)
      rw [same, live, id, young, List.length_nil] at marks
      omega
  · rw [heard]
    rcases old with leads | ⟨l', leads, -, todo⟩
    · exact (h.recites l (leads ▸ live)).of_voiced settings voiced
    · rw [leads, List.mem_singleton] at live
      exact .quiet (by simp [live, todo])

/-- The number of a run stays the same. -/
theorem id_of_mem_turn (attended : w.plot.Attended) (ready : w.ready = f :: rest)
    (role : f.role = .run r) (among : l ∈ w.turn.leads) : l.id = f.id := by
  rcases (turned_turn attended ready role).1 with plays | ⟨waits, -⟩
  · exact plays.within.leads l among
  · rw [show w.turn.leads = w.plot.leads from congrArg Plot.leads waits,
      leads_taken attended ready role] at among
    exact congrArg Lead.id (List.mem_singleton.mp among)

namespace TakesUp

theorem voiced_other (h : w.TakesUp f r c) (play : w.InPlay) (other : id ≠ f.id) :
    w.turn.voiced id = w.voiced id := by
  refine tale_pulse play (p := .turn) ?_
  rintro ⟨-, g, head, same⟩
  rw [h.ready, Option.some.injEq] at head
  exact other (head ▸ same.symm)

theorem heard (h : w.TakesUp f r c) (play : w.InPlay) : w.turn.heard = w.heard := by
  obtain ⟨rest, ready, -⟩ := h.turn
  rw [heard_turn play.order ready, Fiber.nextCall?, h.todo, Option.bind_none, ite_self,
    Option.toList_none, List.append_nil]

/-- Nothing was said for the command yet. -/
theorem callsOf (h : w.TakesUp f r c) :
    w.turn.callsOf ⟨f.id, r.pointer, c, (w.voiced f.id).length + 1⟩ = [] := by
  rw [World.callsOf, Taken.callsIn, h.voiced, List.drop_eq_nil_of_le (by simp)]
  rfl

theorem recites (h : w.TakesUp f r c) (play : w.InPlay) (live : l ∈ w.turn.leads) (con : Console) :
    w.turn.Reciting (ts ++ [⟨f.id, r.pointer, c, (w.voiced f.id).length + 1⟩]) con l := by
  obtain ⟨rest, ready, -⟩ := h.turn
  have order : w.turn.InOrder := play.order.beat (.lull (.turn w))
  have settings : w.turn.settings = w.settings := settings_pulse play .turn
  have id := id_of_mem_turn play.order.staged.attended ready h.role live
  obtain ⟨g, member, role, lead⟩ := exists_of_mem_leads live
  have same : g.id = f.id := (congrArg Lead.id lead).symm.trans id
  obtain rfl := order.eq_of_hands (mem_hands.mpr member) h.among same
  have todo : l.todo = c.acts w.settings r.page := congrArg Lead.todo lead
  have fault : l.fault = f.fault := congrArg Lead.fault lead
  cases text : c.isText with
  | false => exact .quiet (todo ▸ Command.isVisible_acts w.settings r.page text)
  | true =>
    cases c with
    | text speaker body skippable side =>
      refine .speaks rfl id.symm rfl (fault.trans h.fault)
        (todo ▸ Command.isMild_acts w.settings r.page rfl rfl) ?_ ?_
      · rw [id, h.voiced, List.drop_eq_nil_of_le (by simp)]
        exact List.forall_mem_nil _
      · rw [h.callsOf, todo, settings]
        exact .names _
    | _ => cases text

end TakesUp

/-- The turn in which a run takes up a command. -/
theorem Recited.takes (h : w.Recited ts) (play : w.InPlay) (starts : w.TakesUp f r c) :
    w.turn.Recited (ts ++ [⟨f.id, r.pointer, c, (w.voiced f.id).length + 1⟩]) := by
  obtain ⟨rest, ready, -⟩ := starts.turn
  have settings : w.turn.settings = w.settings := settings_pulse play .turn
  have own := starts.voiced
  have calls (t : Taken) (among : t ∈ ts) : w.turn.callsOf t = w.callsOf t := by
    by_cases same : t.id = f.id
    · rw [World.callsOf, World.callsOf, same, own, Taken.callsIn_concat_none]
      exact same ▸ (h.marks t among).2
    · exact callsOf_of_voiced (starts.voiced_other play same)
  refine ⟨?_, fun t among => ?_, fun l live early t last t' among same => ?_,
    fun l live => starts.recites play live _⟩
  · have unsaid : w.turn.line? ⟨f.id, r.pointer, c, (w.voiced f.id).length + 1⟩ = none := by
      rw [line?, starts.callsOf]
      cases c <;> simp [reaches]
    rw [starts.heard play, h.said, List.filterMap_append, List.filterMap_cons, unsaid]
    refine Eq.trans ?_ (List.append_nil _).symm
    exact List.filterMap_congr fun t among => (line?_of_callsOf settings (calls t among)).symm
  · rcases List.mem_append.mp among with early | last
    · obtain ⟨low, high⟩ := h.marks t early
      refine ⟨low, Nat.le_trans high ?_⟩
      by_cases same : t.id = f.id
      · rw [same, own, List.length_append]
        exact Nat.le_add_right _ _
      · rw [starts.voiced_other play same]
    · rw [List.mem_singleton.mp last]
      refine ⟨Nat.succ_pos _, ?_⟩
      rw [own, List.length_append]
      rfl
  · obtain ⟨rfl, -⟩ := List.append_inj' last rfl
    have id : t'.id = f.id :=
      same.trans (id_of_mem_turn play.order.staged.attended ready starts.role live)
    rw [id, own, List.drop_append_of_le_length (id ▸ (h.marks t' among).2)]
    simp

/-- The call for the sentence that a fiber makes in its turn. -/
def nextVoiced? (f : Fiber) : Option StageCall :=
  if f.doomed then none else f.nextCall?.bind StageCall.voiced?

theorem nextVoiced?_cases (f : Fiber) : nextVoiced? f = none ∨ ∃ call after,
    f.todo = .stage call :: after ∧ f.fault = none ∧ nextVoiced? f = call.voiced? := by
  rw [nextVoiced?]
  cases f.doomed with
  | true => exact .inl rfl
  | false =>
    cases next : f.nextCall? with
    | none => exact .inl rfl
    | some call =>
      unfold Fiber.nextCall? at next
      split at next
      · rename_i call' after todo fault
        obtain rfl := Option.some.inj next
        exact .inr ⟨call', after, todo, fault, rfl⟩
      · cases next

/-- What the turn of the fiber says. -/
structure Voices (w : World) (f : Fiber) (call? : Option StageCall) : Prop where
  settings : w.turn.settings = w.settings
  heard : w.turn.heard = w.heard ++ call?.toList
  own : w.turn.voiced f.id = w.voiced f.id ++ (call?.map some).toList
  others : ∀ id, id ≠ f.id → w.turn.voiced id = w.voiced id

theorem voices_turn (play : w.InPlay) (ready : w.ready = f :: rest) (role : f.role = .run r)
    (silent : w.turn.stepped = w.stepped) : w.Voices f (nextVoiced? f) := by
  have going : w.isCancelled f = false := by rw [isCancelled, role]
  have heard := heard_turn play.order ready
  have own := voiced_turn play.order ready silent
  rw [going, Bool.or_false] at heard own
  refine ⟨settings_pulse play .turn, heard, own, fun id other => tale_pulse play (p := .turn) ?_⟩
  rintro ⟨-, g, head, same⟩
  rw [ready, List.head?_cons, Option.some_inj] at head
  exact other (head ▸ same.symm)

namespace Voices

variable {call? : Option StageCall}

theorem callsOf_closed (h : w.Voices f call?) (closed : t.id = f.id → none ∈ (w.voiced t.id).drop t.mark) :
    w.turn.callsOf t = w.callsOf t := by
  by_cases same : t.id = f.id
  · rw [callsOf, callsOf, same, h.own, t.callsIn_append_of_mem (same ▸ closed same)]
  · exact callsOf_of_voiced (h.others t.id same)

theorem callsOf_open (h : w.Voices f call?) (same : t.id = f.id)
    (within : t.mark ≤ (w.voiced t.id).length)
    (goes : ∀ x ∈ (w.voiced t.id).drop t.mark, x.isSome = true) :
    w.turn.callsOf t = w.callsOf t ++ call?.toList := by
  rw [same] at within goes
  rw [callsOf, callsOf, same, h.own]
  cases call? with
  | none => exact (congrArg t.callsIn (List.append_nil _)).trans (List.append_nil _).symm
  | some call => exact t.callsIn_concat within goes call

theorem line?_silent (h : w.Voices f call?) (within : t.mark ≤ (w.voiced t.id).length)
    (silent : ∀ call ∈ call?, call.visible? = none) : w.turn.line? t = w.line? t := by
  by_cases same : t.id = f.id
  · exact line?_of_silent h.settings within (same ▸ h.own) silent
  · exact line?_of_callsOf h.settings (callsOf_of_voiced (h.others t.id same))

theorem length_le (h : w.Voices f call?) (id : Nat) :
    (w.voiced id).length ≤ (w.turn.voiced id).length := by
  by_cases same : id = f.id
  · rw [same, h.own, List.length_append]
    exact Nat.le_add_right _ _
  · rw [h.others id same]

end Voices

namespace Does

variable {a : Act} {after : List Act} {n k : Nat}

theorem invisible (h : w.Does f g a after) (silent : ∀ b ∈ a :: after, b.isVisible = false) :
    ∀ b ∈ g.todo, b.isVisible = false := by
  obtain ⟨own, later⟩ := List.forall_mem_cons.mp silent
  cases h with
  | waits _ todo => exact todo ▸ silent
  | @reveals v _ reveal _ stroke =>
    subst reveal
    obtain ⟨kind, shown, last⟩ := v
    cases kind with
    | sentence => cases own
    | page =>
      generalize g.todo = acts, g.pressed = keys at stroke
      cases stroke with
      | stops => exact later
      | reveals =>
        simpa [Act.isVisible, Reveal.call, StageCall.visible?] using later
  | puts other _ todo puts =>
    rw [todo]
    refine List.forall_mem_append.mpr ⟨?_, later⟩
    by_cases staged : ∃ call, a = .stage call
    · obtain ⟨call, rfl⟩ := staged
      rw [show _ = [] from puts]
      exact List.forall_mem_nil _
    · exact fun b among => Act.isVisible_of_not_isVoiced
        (Act.isVoiced_of_puts puts (fun call same => staged ⟨call, same⟩) other b among)
  | fails _ _ todo => exact todo ▸ later

theorem shows (h : w.Does f g a after) (calm : ∀ call, a ≠ .stage call) (mild : a.isMild = true)
    (left : Shows n (a :: after) k) : Shows n g.todo k := by
  cases h with
  | waits _ todo => exact todo ▸ left
  | reveals reveal _ stroke =>
    subst reveal
    exact left.reveals stroke
  | puts other _ todo puts =>
    rw [todo]
    refine (shows_append (Act.isVoiced_of_puts puts calm other)).mpr ?_
    cases a with
    | stage call => exact absurd rfl (calm call)
    | reveal v => exact absurd rfl (other v)
    | _ => exact left
  | fails _ loud =>
    rw [mild] at loud
    cases loud

theorem calls {call : StageCall} (h : w.Does f g (.stage call) after) : g.todo = after := by
  cases h with
  | waits reveal | reveals reveal => cases reveal
  | puts _ _ todo puts => rw [todo, show _ = [] from puts, List.nil_append]
  | fails _ loud => cases loud

theorem mild (h : w.Does f g a after) (mild : ∀ b ∈ a :: after, b.isMild = true) :
    g.fault = none ∧ ∀ b ∈ g.todo, b.isMild = true := by
  obtain ⟨own, later⟩ := List.forall_mem_cons.mp mild
  cases h with
  | waits _ todo fault => exact ⟨fault, todo ▸ mild⟩
  | reveals reveal fault stroke =>
    subst reveal
    refine ⟨fault, ?_⟩
    generalize g.todo = acts, g.pressed = keys at stroke
    cases stroke with
    | stops => exact later
    | reveals => simpa [Act.isMild] using later
  | puts _ fault todo puts =>
    exact ⟨fault, todo ▸ List.forall_mem_append.mpr ⟨Act.isMild_of_puts puts own, later⟩⟩
  | fails _ loud =>
    rw [own] at loud
    cases loud

end Does

/-- What the run says in its turn goes into the line of its last command. -/
theorem Recited.lines (h : w.Recited ts) (own : w.Voices f (nextVoiced? f))
    (lead : f.leading r ∈ w.leads) :
    Console.blank.spoken w.turn.heard = ts.filterMap w.turn.line? := by
  have recites := h.recites _ lead
  rw [own.heard, Console.spoken_append, h.said]
  generalize Console.blank.afterAll w.heard = con at recites ⊢
  have quiet (silent : ∀ call ∈ nextVoiced? f, call.visible? = none) :
      ts.filterMap w.line? ++ con.spoken (nextVoiced? f).toList = ts.filterMap w.turn.line? := by
    have none : con.spoken (nextVoiced? f).toList = [] := by
      cases next : nextVoiced? f with
      | none => rfl
      | some call =>
        have hidden := silent call next
        cases call <;> first | rfl | cases hidden
    rw [none, List.append_nil]
    exact List.filterMap_congr fun t among =>
      (own.line?_silent (h.marks t among).2 silent).symm
  rcases nextVoiced?_cases f with none | ⟨call, after, todo, fault, next⟩
  · exact quiet (by simp [none])
  cases recites with
  | quiet silent =>
    have hidden : (Act.stage call).isVisible = false :=
      silent _ (show _ ∈ f.todo from todo ▸ List.mem_cons_self)
    refine quiet fun c made => ?_
    rw [next] at made
    cases call <;> cases made <;> first | rfl | cases hidden
  | @speaks early t speaker body skippable side last id text _ _ goes speaks =>
    have id : t.id = f.id := id
    have within := (h.marks t (last ▸ List.mem_append_right _ (List.mem_singleton.mpr rfl))).2
    rw [show (f.leading r).todo = f.todo from rfl, todo] at speaks
    obtain ⟨named, boxed, aside⟩ := Command.nameBox_names w.settings speaker side con
    obtain ⟨-, said⟩ := speaks.utters named boxed aside (Command.shows_speech body skippable)
    have calls : w.turn.callsOf t = w.callsOf t ++ call.voiced?.toList :=
      next ▸ own.callsOf_open id within (id ▸ goes)
    have others : early.filterMap w.line? = early.filterMap w.turn.line? :=
      List.filterMap_congr fun t' among => (line?_of_callsOf own.settings
        (own.callsOf_closed (h.closed _ lead early t last t' among))).symm
    have one (g : Taken → Option Line) : [t].filterMap g = (g t).toList := by
      cases made : g t <;> simp [made]
    rw [next, (con.spoken_one call).1, last, List.filterMap_append, List.filterMap_append, one, one, others,
      line?_text text, line?_text text, own.settings, calls, List.append_assoc, said]

/-- The own turn of a run that has something left to do. -/
theorem Recited.recites_turn {pick : Option Nat} (h : w.Recited ts) (own : w.Voices f (nextVoiced? f))
    (play : w.InPlay) (desk : w.Desk pick) (ready : w.ready = f :: rest) (role : f.role = .run r)
    (idle : w.takes? = none) (live : l ∈ w.turn.leads) :
    w.turn.Reciting ts (Console.blank.afterAll w.turn.heard) l := by
  have order := play.order
  have attended := order.staged.attended
  have spared := spared_of_mem_leads attended ready role live
  have carry := fault_turn play desk ready role l live
  have lead := leading_mem_leads (mem_hands_of_ready ready) role
  have recites := h.recites _ lead
  obtain ⟨g, member, role', same⟩ := exists_of_mem_leads live
  have member := mem_hands.mpr member
  have id := id_of_mem_turn attended ready role live
  have id' : g.id = f.id := (congrArg Lead.id same).symm.trans id
  have todo' : l.todo = g.todo := congrArg Lead.todo same
  have fault' : l.fault = g.fault := congrArg Lead.fault same
  have heir := turn_heir order ready member id'
  generalize w.act? = act at heir
  cases recites with
  | quiet silent =>
    have silent : ∀ a ∈ f.todo, a.isVisible = false := silent
    refine .quiet ?_
    rw [todo']
    cases heir with
    | fetches todo =>
      obtain ⟨c, starts⟩ := turn_comes attended ready role todo live
      rw [starts.takes?] at idle
      cases idle
    | skips todo _ left => exact left ▸ (List.forall_mem_cons.mp (todo ▸ silent)).2
    | does todo fault onward =>
      exact (turn_does play ready role spared member id' (fault' ▸ carry) todo fault onward).invisible
        (todo ▸ silent)
  | @speaks early t speaker body skippable side last owner text fault mild goes speaks =>
    have fault : f.fault = none := fault
    have mild : ∀ a ∈ f.todo, a.isMild = true := mild
    have owner : t.id = f.id := owner
    have speaks : Speaks _ _ _ _ _ _ f.todo := speaks
    have goes : ∀ x ∈ (w.voiced f.id).drop t.mark, x.isSome = true := goes
    have within := (h.marks t (last ▸ List.mem_append_right _ (List.mem_singleton.mpr rfl))).2
    have calls := own.callsOf_open owner within (owner ▸ goes)
    cases heir with
    | fetches todo =>
      obtain ⟨c, starts⟩ := turn_comes attended ready role todo live
      rw [starts.takes?] at idle
      cases idle
    | skips _ failed =>
      rw [fault] at failed
      cases failed
    | @does a after todo _ onward =>
      have does := turn_does play ready role spared member id' (fault' ▸ carry) todo fault onward
      obtain ⟨fine, left⟩ := does.mild (todo ▸ mild)
      refine .speaks last (owner.trans id.symm) text (fault'.trans fine) (todo' ▸ left) ?_ ?_
      · rw [id, own.own, List.drop_append_of_le_length (owner ▸ within)]
        refine List.forall_mem_append.mpr ⟨goes, fun x among => ?_⟩
        obtain ⟨call, -, rfl⟩ := Option.map_eq_some_iff.mp (Option.mem_toList.mp among)
        rfl
      have console : Console.blank.afterAll w.turn.heard =
          (Console.blank.afterAll w.heard).afterAll (nextVoiced? f).toList :=
        own.heard ▸ List.foldl_append
      rw [own.settings, calls, console, todo']
      generalize Console.blank.afterAll w.heard = con at speaks
      rw [todo] at speaks
      by_cases staged : ∃ call, a = .stage call
      · obtain ⟨call, rfl⟩ := staged
        have next : nextVoiced? f = call.voiced? := by
          rw [nextVoiced?, spared, Fiber.nextCall?, todo, fault]
          rfl
        obtain ⟨named, boxed, aside⟩ := Command.nameBox_names w.settings speaker side con
        rw [next, does.calls, (con.spoken_one call).2]
        exact (speaks.utters named boxed aside (Command.shows_speech body skippable)).1
      · have calm : ∀ call, a ≠ .stage call := fun call same => staged ⟨call, same⟩
        have none : nextVoiced? f = .none := by
          rcases nextVoiced?_cases f with none | ⟨call, after', todo', -⟩
          · exact none
          · exact absurd (List.cons.inj (todo.symm.trans todo')).1 (calm call)
        rw [none, Option.toList_none, List.append_nil]
        exact speaks.moves calm (does.shows calm (mild a (todo ▸ List.mem_cons_self)))

theorem Recited.goes {pick : Option Nat} (h : w.Recited ts) (play : w.InPlay) (desk : w.Desk pick)
    (ready : w.ready = f :: rest) (role : f.role = .run r) (idle : w.takes? = none)
    (silent : w.turn.stepped = w.stepped) : w.turn.Recited ts := by
  have own := voices_turn play ready role silent
  have lead := leading_mem_leads (mem_hands_of_ready ready) role
  have attended := play.order.staged.attended
  refine ⟨h.lines own lead, fun t among => ?_, fun l live early t last t' among same => ?_,
    fun l live => h.recites_turn own play desk ready role idle live⟩
  · obtain ⟨low, high⟩ := h.marks t among
    exact ⟨low, Nat.le_trans high (own.length_le t.id)⟩
  · have within := (h.marks t' (last ▸ List.mem_append_left _ among)).2
    have same : t'.id = f.id := same.trans (id_of_mem_turn attended ready role live)
    have closed := h.closed _ lead early t last t' among same
    rw [same] at closed within ⊢
    rw [own.own, List.drop_append_of_le_length within]
    exact List.mem_append_left _ closed

end

theorem recited_pulses (o : Opening) (ps : List Pulse) :
    (o.world.pulses ps).Recited (o.taken ps) := by
  induction ps using List.reverseRecOn with
  | nil => exact ⟨rfl, nofun, nofun, nofun⟩
  | append_singleton ps p ih =>
    have play := inPlay_pulses o ps
    have stepped := stepped_pulse o ps p
    obtain ⟨_, handing⟩ := handing_pulses o ps
    rw [o.taken_concat, pulses_concat]
    by_cases own : ∃ f r rest, p = .turn ∧ (o.world.pulses ps).ready = f :: rest ∧ f.role = .run r
    · obtain ⟨f, r, rest, rfl, ready, role⟩ := own
      cases taken : (o.world.pulses ps).takes? with
      | some t =>
        obtain ⟨g, q, starts, same⟩ := takes?_eq_some.mp taken
        rw [show (o.world.pulses ps).takenIn? .turn = some t from taken, same]
        exact ih.takes play starts
      | none =>
        have none : (o.world.pulses ps).takenIn? .turn = none := taken
        rw [none] at stepped ⊢
        rw [Option.toList_none, List.append_nil]
        exact ih.goes play handing.desk ready role taken (stepped.trans (List.append_nil _))
    · have other : ∀ f r rest, p = .turn → (o.world.pulses ps).ready = f :: rest →
          f.role ≠ .run r :=
        fun f r rest turn ready role => own ⟨f, r, rest, turn, ready, role⟩
      have none : (o.world.pulses ps).takenIn? p = none := by
        cases taken : (o.world.pulses ps).takenIn? p with
        | none => rfl
        | some t =>
          cases p with
          | turn =>
            obtain ⟨f, r, starts, -⟩ := takes?_eq_some.mp taken
            obtain ⟨rest, ready, -⟩ := starts.turn
            exact absurd starts.role (other f r rest rfl ready)
          | _ => cases taken
      rw [none, Option.toList_none, List.append_nil]
      exact ih.other other

/-- The steps that are told of are the commands that the runs come to. -/
theorem stepped_pulses (o : Opening) (ps : List Pulse) :
    (o.world.pulses ps).stepped = (o.taken ps).map Taken.step := by
  induction ps using List.reverseRecOn with
  | nil => rfl
  | append_singleton ps p ih =>
    rw [o.taken_concat, pulses_concat, stepped_pulse, ih, List.map_append]
    cases (o.world.pulses ps).takenIn? p <;> rfl

/-- The log tells of every text that was shown to its end: one line for each time that a run came to it,
in that order, and no others. A text that is empty, or cut off before its last character, has none. -/
theorem lines_are_logged_once (o : Opening) (ps : List Pulse) (level : Option Level) :
    let w := o.world.pulses ps
    let b : Logbook := ⟨level, some .blank⟩
    (b.writeAll (Report.since w 0)).2.toList.filter Line.isDialogue =
        ((o.taken ps).filterMap w.line?).filter b.keeps ∧
      w.stepped = (o.taken ps).map Taken.step := by
  intro w b
  refine ⟨?_, stepped_pulses o ps⟩
  have shown : (Report.since w 0).filterMap Deed.stage? = w.shown := by
    simp [Report.since, World.shown, World.entries, List.filterMap_map]
  rw [Logbook.filter_writeAll, shown, (Console.spoken_voiced _ _).1]
  exact congrArg (List.filter b.keeps) (recited_pulses o ps).said

/-- The first text is confirmed, the second one is empty, and the third one is still on its way. -/
example :
    let o : Opening := ⟨{ (default : Settings) with textCharDelay := 0 }, default, 8, default, .empty,
      [[.text "System" "ab" true .left, .text "Ann" "" true .left, .text "Ann" "cd" true .left]]⟩
    let ps : List Pulse := .host (.execute 0) rfl :: List.replicate 20 .turn ++
      [.publish ⟨1⟩ ⟨true, false⟩] ++ List.replicate 20 .turn ++ [.publish ⟨1⟩ ⟨true, false⟩] ++
        List.replicate 7 .turn
    (o.taken ps).length = 3 ∧ (o.taken ps).filterMap (o.world.pulses ps).line? =
      [⟨.info, "dialogue", [("speaker", .text "-"), ("line", .text "ab")]⟩] := by
  exact ⟨rfl, rfl⟩

end World

end SceneScript
