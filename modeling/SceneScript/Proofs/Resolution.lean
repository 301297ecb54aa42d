import SceneScript.Proofs.Refusal
import SceneScript.Proofs.Walk
/-!
Programs that are kept and resolved in place (`Program.settle`): one pass gathers the commands and the
table, and only a pass that got to the end is written back. Whatever is done with a program, it stays
as it was written or is the resolved form of that (`Handling.keeps`).
-/

namespace SceneScript

theorem labelName?_eq_some {c : Command} {name : String} :
    c.labelName? = some name ↔ c = .label name := by
  cases c <;> simp [Command.labelName?]

/-! ### The table -/

theorem names_places (commands : List Command) (next : Nat) :
    (places commands next).map Prod.fst = labelNames commands := by
  induction commands generalizing next with
  | nil => rfl
  | cons c rest ih =>
    cases hc : c.labelName? <;> simp [places, labelNames, hc, ih]

/-- An entry of the table is a label and the number of commands that run before it. -/
theorem mem_places {commands : List Command} {next : Nat} {name : String} {place : Nat} :
    (name, place) ∈ places commands next ↔ ∃ before after,
      commands = before ++ .label name :: after ∧ place = next + (running before).length := by
  induction commands generalizing next with
  | nil => simp [places]
  | cons c rest ih =>
    cases hc : c.labelName? with
    | none =>
      have label : c.isLabel = false := labelName?_eq_none.mp hc
      simp only [places, hc, ih]
      constructor
      · rintro ⟨before, after, rfl, rfl⟩
        exact ⟨c :: before, after, rfl, by simp [label]; omega⟩
      · rintro ⟨before, after, split, rfl⟩
        cases before with
        | nil =>
          cases (List.cons.inj split).1
          cases hc
        | cons c' before =>
          obtain ⟨rfl, rest'⟩ := List.cons.inj split
          exact ⟨before, after, rest', by simp [label]; omega⟩
    | some other =>
      obtain rfl := labelName?_eq_some.mp hc
      simp only [places, hc, List.mem_cons, Prod.mk.injEq, ih]
      constructor
      · rintro (⟨rfl, rfl⟩ | ⟨before, after, rfl, rfl⟩)
        · exact ⟨[], rest, rfl, by simp [running]⟩
        · exact ⟨.label other :: before, after, rfl, by simp [Command.isLabel, hc]⟩
      · rintro ⟨before, after, split, rfl⟩
        cases before with
        | nil =>
          cases (List.cons.inj split).1
          exact .inl ⟨rfl, by simp [running]⟩
        | cons c' before =>
          obtain ⟨rfl, rest'⟩ := List.cons.inj split
          exact .inr ⟨before, after, rest', by simp [Command.isLabel, hc]⟩

theorem le_of_mem_places {commands : List Command} {name : String} {place : Nat}
    (h : (name, place) ∈ places commands 0) : place ≤ (running commands).length := by
  obtain ⟨before, after, rfl, rfl⟩ := mem_places.mp h
  simp [running]

/-- The name at the earliest label that repeats one before it. -/
def Repeats (commands : List Command) (name : String) : Prop :=
  ∃ before after, commands = before ++ .label name :: after ∧
    (labelNames before).Nodup ∧ name ∈ labelNames before

theorem not_mem_of_nodup {before after : List Command} {name : String}
    (unique : (labelNames (before ++ .label name :: after)).Nodup) : name ∉ labelNames before := by
  intro again
  rw [labelNames, List.filterMap_append, List.nodup_append] at unique
  exact unique.2.2 name again name (by simp [Command.labelName?]) rfl

theorem Repeats.not_nodup {commands : List Command} {name : String} (h : Repeats commands name) :
    ¬ (labelNames commands).Nodup := by
  obtain ⟨before, after, rfl, -, again⟩ := h
  exact fun unique => not_mem_of_nodup unique again

namespace Program

variable {p q : Program}

theorem index_error {commands : List Command} {next : Nat} {seen : List (String × Nat)}
    {e : Failure} (h : index commands next seen = .error e) :
    ∃ before name after, commands = before ++ .label name :: after ∧ e = .duplicateLabel name ∧
      (labelNames before).Nodup ∧ (∀ other ∈ labelNames before, other ∉ seen.map Prod.fst) ∧
      (name ∈ seen.map Prod.fst ∨ name ∈ labelNames before) := by
  induction commands generalizing next seen with
  | nil => cases h
  | cons c rest ih =>
    cases hc : c.labelName? with
    | none =>
      simp only [index, hc] at h
      cases found : index rest (next + 1) seen with
      | ok r =>
        rw [found] at h
        cases h
      | error e' =>
        rw [found] at h
        cases h
        obtain ⟨before, name, after, rfl, rfl, unique, fresh, again⟩ := ih found
        have names : labelNames (c :: before) = labelNames before := by simp [labelNames, hc]
        exact ⟨c :: before, name, after, rfl, rfl, by rwa [names], by rwa [names], by rwa [names]⟩
    | some other =>
      obtain rfl := labelName?_eq_some.mp hc
      simp only [index, hc] at h
      split at h
      · rename_i old
        cases h
        refine ⟨[], other, rest, rfl, rfl, List.nodup_nil, by simp [labelNames], .inl ?_⟩
        simpa [List.any_eq_true] using old
      · rename_i new
        obtain ⟨before, name, after, rfl, rfl, unique, fresh, again⟩ := ih h
        have names : labelNames (.label other :: before) = other :: labelNames before := rfl
        have absent : other ∉ labelNames before := fun member => fresh other member (by simp)
        have old : other ∉ seen.map Prod.fst := by simpa [List.any_eq_true] using new
        refine ⟨.label other :: before, name, after, rfl, rfl, ?_, ?_, ?_⟩
        · exact names ▸ List.nodup_cons.mpr ⟨absent, unique⟩
        · rw [names]
          intro x member seen'
          rcases List.mem_cons.mp member with rfl | member
          · exact old seen'
          · exact fresh x member (by simp [seen'])
        · rw [names, List.mem_cons]
          rcases again with again | again
          · have again : name ∈ seen.map Prod.fst ∨ name = other := by simpa using again
            exact again.imp_right .inl
          · exact .inr (.inr again)

theorem repeats_of_preprocess {commands : List Command} {e : Failure}
    (h : (ofCommands commands).preprocess = .error e) :
    ∃ name, e = .duplicateLabel name ∧ Repeats commands name := by
  simp only [preprocess, ofCommands, Bool.false_eq_true, if_false] at h
  cases found : index commands 0 [] with
  | ok r =>
    rw [found] at h
    cases h
  | error e' =>
    rw [found] at h
    cases h
    obtain ⟨before, name, after, split, rfl, unique, -, again⟩ := index_error found
    exact ⟨name, rfl, before, after, split, unique, again.resolve_left (by simp)⟩

/-! ### In place -/

/-- The pass over the commands. `run` and `labels` are what it has gathered so far. -/
def gather : List Command → (run : List Command) → (labels : List (String × Nat)) →
    Except Failure (List Command × List (String × Nat))
  | [], run, labels => .ok (run, labels)
  | c :: rest, run, labels =>
    match c.labelName? with
    | some name =>
      if labels.any (·.1 == name) then .error (.duplicateLabel name)
      else gather rest run (labels ++ [(name, run.length)])
    | none => gather rest (run ++ [c]) labels

/-- A label is filed under the length of what was gathered before it. -/
theorem gather_eq (commands run : List Command) (labels : List (String × Nat)) :
    gather commands run labels =
      (index commands run.length labels).map fun (rest, table) => (run ++ rest, table) := by
  induction commands generalizing run labels with
  | nil => simp [gather, index, Except.map]
  | cons c rest ih =>
    cases hc : c.labelName? with
    | none =>
      simp only [gather, index, hc, ih, List.length_append, List.length_singleton]
      cases index rest (run.length + 1) labels <;> simp [Except.map]
    | some name =>
      simp only [gather, index, hc]
      split
      · rfl
      · exact ih run _

/-- Resolves the labels of a program that is kept. What is raised on the way leaves the program as it
is by then. -/
def settle : ExceptT Failure (StateM Program) Unit := do
  let p ← get
  unless p.resolved do
    match gather p.commands [] [] with
    | .error e => throw e
    | .ok (run, labels) => set (⟨run, labels, true⟩ : Program)

theorem settle_eq (p : Program) : settle.run.run p =
    match p.preprocess with
    | .error e => (.error e, p)
    | .ok q => (.ok (), q) := by
  obtain ⟨commands, labels, resolved⟩ := p
  cases resolved with
  | true => rfl
  | false =>
    have pass : settle.run.run ⟨commands, labels, false⟩ =
        (match gather commands [] [] with
        | .error e => throw e
        | .ok (run, table) => set (⟨run, table, true⟩ : Program) :
          ExceptT Failure (StateM Program) Unit).run.run ⟨commands, labels, false⟩ := rfl
    have gathered := gather_eq commands [] []
    rw [pass, gathered]
    simp only [preprocess, List.length_nil, Bool.false_eq_true, if_false]
    cases index commands 0 [] <;> rfl

theorem resolve_of_split {commands before after : List Command} {name : String}
    (split : commands = before ++ .label name :: after) (first : name ∉ labelNames before) :
    (resolvedOf commands).resolve name = .ok (running before).length := by
  have others : ∀ c ∈ before, ¬ (c.labelName? == some name) = true := fun c member same =>
    first (List.mem_filterMap.mpr ⟨c, member, by simpa using same⟩)
  have place : labelPlace? commands name = some before.length := by
    have none : before.findIdx? (fun c => c.labelName? == some name) = none := by
      simpa using others
    rw [labelPlace?, split, List.findIdx?_append, none, List.findIdx?_cons]
    simp [Command.labelName?]
  have before' : rank commands before.length = (running before).length := by
    rw [rank, split, List.take_left]
  rw [resolve_resolvedOf, place, ← before']

theorem resolve_of_not_mem {commands : List Command} {name : String}
    (absent : name ∉ labelNames commands) :
    (resolvedOf commands).resolve name = .error (.unknownLabel name) := by
  have nowhere : labelPlace? commands name = none := by
    rw [labelPlace?, List.findIdx?_eq_none_iff]
    intro c member
    simpa using fun same => absent (List.mem_filterMap.mpr ⟨c, member, same⟩)
  rw [resolve_resolvedOf, nowhere]

/-! ### Whatever is done with it -/

/-- Something that is done with a program. It may be started in any world. -/
inductive Handling where
  | preprocess
  | execute (w : World)

/-- What the program is afterwards. -/
def Handling.after (p : Program) : Handling → Program
  | .preprocess => (settle.run.run p).2
  | .execute w => (w.execute p).2.1

/-- What a list of commands becomes. -/
inductive Kept (commands : List Command) : Program → Prop where
  | written : Kept commands (ofCommands commands)
  | resolved : (labelNames commands).Nodup → Kept commands (resolvedOf commands)

/-- A program is left alone or resolved, and nothing else. -/
theorem Handling.keeps (h : Handling) (p : Program) :
    h.after p = p ∨ p.preprocess = .ok (h.after p) := by
  cases h with
  | preprocess =>
    rw [after, settle_eq]
    cases p.preprocess with
    | error e => exact .inl rfl
    | ok q => exact .inr rfl
  | execute w =>
    rcases w.execute_refused p with ⟨rm, q, e, refuses, heq⟩ | ⟨q, -, found, -, heq⟩
    · rw [after, heq]
      cases refuses with
      | empty | busy | repeats => exact .inl rfl
      | bare _ bare => exact .inr bare.preprocess
    · rw [after, heq]
      exact .inr found

theorem Kept.after {commands : List Command} (h : Kept commands p) (done : Handling) :
    Kept commands (done.after p) := by
  rcases done.keeps p with same | found
  · exact same.symm ▸ h
  · cases h with
    | written =>
      obtain ⟨unique, heq⟩ := of_preprocess rfl found
      exact heq ▸ .resolved unique
    | resolved unique =>
      have same : resolvedOf commands = done.after (resolvedOf commands) := Except.ok.inj found
      exact same ▸ .resolved unique

theorem Kept.foldl {commands : List Command} (h : Kept commands p) (done : List Handling) :
    Kept commands (done.foldl Handling.after p) := by
  induction done generalizing p with
  | nil => exact h
  | cons first rest ih => exact ih (h.after first)

/-- Either nothing was resolved, or no label is left and every entry points into the program or to its
end. -/
def Tidy (p : Program) : Prop :=
  (p.resolved = false ∧ p.labels = []) ∨
  (p.resolved = true ∧ (∀ c ∈ p.commands, c.isLabel = false) ∧
    ∀ entry ∈ p.labels, entry.2 ≤ p.length)

theorem Kept.tidy {commands : List Command} (h : Kept commands p) : p.Tidy := by
  cases h with
  | written => exact .inl ⟨rfl, rfl⟩
  | resolved =>
    exact .inr ⟨rfl, fun c member => isLabel_of_mem_running member,
      fun entry member => le_of_mem_places member⟩

/-- What a list of commands with different labels resolves to. -/
structure Resolves (commands : List Command) (q : Program) : Prop where
  unique : (labelNames commands).Nodup
  flag : q.resolved = true
  run : q.commands = commands.filter fun c => !c.isLabel
  keys : q.labels.map Prod.fst = labelNames commands
  /-- A label leads to the number of commands before it that are no labels. -/
  entry : ∀ before name after, commands = before ++ .label name :: after →
    (name, (before.filter fun c => !c.isLabel).length) ∈ q.labels ∧
    q.resolve name = .ok (before.filter fun c => !c.isLabel).length ∧
    (before.filter fun c => !c.isLabel).length ≤ q.length
  unknown : ∀ name, name ∉ labelNames commands → q.resolve name = .error (.unknownLabel name)
  /-- Resolving it again, however often, changes nothing. -/
  again : settle.run.run q = (.ok (), q) ∧ ∀ n, (fun p => (settle.run.run p).2)^[n] q = q

theorem resolves_resolvedOf {commands : List Command} (unique : (labelNames commands).Nodup) :
    Resolves commands (resolvedOf commands) where
  unique := unique
  flag := rfl
  run := rfl
  keys := names_places commands 0
  entry := by
    intro before name after split
    have member : (name, (running before).length) ∈ places commands 0 :=
      mem_places.mpr ⟨before, after, split, by simp⟩
    have first : name ∉ labelNames before := not_mem_of_nodup (split ▸ unique)
    exact ⟨member, resolve_of_split split first, le_of_mem_places member⟩
  unknown := fun _ absent => resolve_of_not_mem absent
  again := by
    have same : settle.run.run (resolvedOf commands) = (.ok (), resolvedOf commands) := settle_eq _
    exact ⟨same, Function.iterate_fixed (congrArg Prod.snd same)⟩

/-- Labels are resolved all at once or not at all: where a name repeats, the program stays as it was
written, and what is resolved stays so. -/
theorem labels_are_resolved_at_once (commands : List Command) :
    ((∃ e, (ofCommands commands).preprocess = .error e) ↔ ¬ (labelNames commands).Nodup) ∧
    (∀ e, (ofCommands commands).preprocess = .error e →
      (∃ name, e = .duplicateLabel name ∧ Repeats commands name) ∧
      settle.run.run (ofCommands commands) = (.error e, ofCommands commands)) ∧
    (∀ q, (ofCommands commands).preprocess = .ok q →
      settle.run.run (ofCommands commands) = (.ok (), q) ∧ Resolves commands q) ∧
    ∀ done : List Handling, Kept commands (done.foldl Handling.after (ofCommands commands)) ∧
      (done.foldl Handling.after (ofCommands commands)).Tidy := by
  refine ⟨⟨?_, fun twice => ?_⟩, fun e failed => ?_, fun q found => ?_, fun done => ?_⟩
  · rintro ⟨e, failed⟩
    obtain ⟨name, -, repeats⟩ := repeats_of_preprocess failed
    exact repeats.not_nodup
  · cases found : (ofCommands commands).preprocess with
    | error e => exact ⟨e, rfl⟩
    | ok q => exact absurd (of_preprocess rfl found).1 twice
  · refine ⟨repeats_of_preprocess failed, ?_⟩
    rw [settle_eq, failed]
  · obtain ⟨unique, rfl⟩ := of_preprocess rfl found
    refine ⟨?_, resolves_resolvedOf unique⟩
    rw [settle_eq, found]
  · have kept : Kept commands _ := Kept.written.foldl done
    exact ⟨kept, kept.tidy⟩

end Program

end SceneScript
