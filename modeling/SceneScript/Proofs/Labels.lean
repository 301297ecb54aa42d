import Mathlib.Data.List.Basic
import Mathlib.Tactic.Common
import SceneScript.Program
/-!
What the resolution of labels makes of a list of commands.
-/

namespace SceneScript

def labelNames (commands : List Command) : List String := commands.filterMap Command.labelName?

def running (commands : List Command) : List Command := commands.filter fun c => !c.isLabel

/-- The places of the labels, when the first command that runs is at `next`. -/
def places : List Command → (next : Nat) → List (String × Nat)
  | [], _ => []
  | c :: rest, next =>
    match c.labelName? with
    | some name => (name, next) :: places rest next
    | none => places rest (next + 1)

theorem labelName?_eq_none {c : Command} : c.labelName? = none ↔ c.isLabel = false := by
  simp [Command.isLabel]

namespace Program

theorem index_eq (commands : List Command) (next : Nat) (seen : List (String × Nat))
    (unique : (labelNames commands).Nodup)
    (fresh : ∀ name ∈ labelNames commands, name ∉ seen.map Prod.fst) :
    index commands next seen = .ok (running commands, seen ++ places commands next) := by
  induction commands generalizing next seen with
  | nil => simp [index, running, places]
  | cons c rest ih =>
    cases hc : c.labelName? with
    | none =>
      have label : c.isLabel = false := labelName?_eq_none.mp hc
      have names : labelNames (c :: rest) = labelNames rest := by simp [labelNames, hc]
      rw [names] at unique fresh
      simp only [index, hc, ih (next + 1) seen unique fresh, Except.map, places]
      simp [running, label]
    | some name =>
      have label : c.isLabel = true := by simp [Command.isLabel, hc]
      have names : labelNames (c :: rest) = name :: labelNames rest := by simp [labelNames, hc]
      rw [names] at unique fresh
      have new : seen.any (·.1 == name) = false := by
        simp only [List.any_eq_false, beq_iff_eq]
        intro pair member same
        exact fresh name List.mem_cons_self (List.mem_map.mpr ⟨pair, member, same⟩)
      have fresh' : ∀ other ∈ labelNames rest, other ∉ (seen ++ [(name, next)]).map Prod.fst := by
        intro other member
        have old := fresh other (List.mem_cons_of_mem _ member)
        have differs : other ≠ name := fun same => (List.nodup_cons.mp unique).1 (same ▸ member)
        simpa [differs] using old
      simp only [index, hc, new, Bool.false_eq_true, if_false, places]
      rw [ih next _ (List.nodup_cons.mp unique).2 fresh']
      simp [running, label]

theorem of_index {commands run : List Command} {next : Nat} {seen labels : List (String × Nat)}
    (h : index commands next seen = .ok (run, labels)) :
    (labelNames commands).Nodup ∧ (∀ name ∈ labelNames commands, name ∉ seen.map Prod.fst) := by
  induction commands generalizing next seen run labels with
  | nil => simp [labelNames]
  | cons c rest ih =>
    cases hc : c.labelName? with
    | none =>
      have names : labelNames (c :: rest) = labelNames rest := by simp [labelNames, hc]
      simp only [index, hc] at h
      cases found : index rest (next + 1) seen with
      | error e =>
        rw [found] at h
        cases h
      | ok r =>
        rw [names]
        exact ih found
    | some name =>
      have names : labelNames (c :: rest) = name :: labelNames rest := by simp [labelNames, hc]
      simp only [index, hc] at h
      split at h
      · cases h
      · rename_i new
        obtain ⟨unique, fresh⟩ := ih h
        have absent : name ∉ labelNames rest := fun member => by
          simpa using fresh name member
        have old : name ∉ seen.map Prod.fst := by simpa [List.any_eq_true] using new
        rw [names]
        refine ⟨List.nodup_cons.mpr ⟨absent, unique⟩, fun other member => ?_⟩
        rcases List.mem_cons.mp member with rfl | member
        · exact old
        · exact fun seen' => fresh other member (by simp [seen'])

/-- The resolved form of a list of commands. -/
def resolvedOf (commands : List Command) : Program := ⟨running commands, places commands 0, true⟩

theorem preprocess_ofCommands {commands : List Command} (unique : (labelNames commands).Nodup) :
    (ofCommands commands).preprocess = .ok (resolvedOf commands) := by
  have found := index_eq commands 0 [] unique (by simp)
  simp only [preprocess, ofCommands, Bool.false_eq_true, if_false, found, Except.map]
  rfl

theorem of_preprocess {p q : Program} (fresh : p.resolved = false) (h : p.preprocess = .ok q) :
    (labelNames p.commands).Nodup ∧ q = resolvedOf p.commands := by
  unfold preprocess at h
  rw [fresh] at h
  cases found : index p.commands 0 [] with
  | error e =>
    rw [found] at h
    cases h
  | ok r =>
    obtain ⟨unique, -⟩ := of_index found
    rw [index_eq p.commands 0 [] unique (by simp)] at h
    cases h
    exact ⟨unique, rfl⟩

theorem isLabel_of_mem_running {commands : List Command} {c : Command} (h : c ∈ running commands) :
    c.isLabel = false := by
  simpa using (List.mem_filter.mp h).2

theorem labels_of_preprocess {p q : Program} (h : p.preprocess = .ok q)
    (sound : p.resolved = true → ∀ c ∈ p.commands, c.isLabel = false) :
    ∀ c ∈ q.commands, c.isLabel = false := by
  cases done : p.resolved with
  | true =>
    have same : q = p := by
      simp only [preprocess, done, if_true] at h
      exact (Except.ok.inj h).symm
    exact same ▸ sound done
  | false =>
    rw [(of_preprocess done h).2]
    exact fun c member => isLabel_of_mem_running member

end Program

end SceneScript
