import SceneScript.Proofs.Labels
import SceneScript.Proofs.Playing
/-!
Programs that are turned away. Why a program is refused and what it comes back as depends on the
program and on whether a run is under way (`Refuses`); what it resolves to stays the same
(`Refuses.preprocess`).
-/

namespace SceneScript

namespace Program

variable {p q : Program}

theorem preprocess_error {e : Failure} (h : p.preprocess = .error e) :
    ∃ name, e = .duplicateLabel name := by
  have indexed (commands : List Command) (next : Nat) (seen : List (String × Nat))
      (h : index commands next seen = .error e) : ∃ name, e = .duplicateLabel name := by
    induction commands generalizing next seen with
    | nil => cases h
    | cons c rest ih =>
      unfold index at h
      split at h
      · split at h
        · cases h
          exact ⟨_, rfl⟩
        · exact ih _ _ h
      · cases found : index rest (next + 1) seen with
        | error e' =>
          rw [found] at h
          cases h
          exact ih _ _ found
        | ok r =>
          rw [found] at h
          cases h
  unfold preprocess at h
  split at h
  · cases h
  cases found : index p.commands 0 [] with
  | error e' =>
    rw [found] at h
    cases h
    exact indexed _ _ _ found
  | ok r =>
    rw [found] at h
    cases h

/-- The second time, labels are resolved already. -/
theorem preprocess_preprocess (h : p.preprocess = .ok q) : q.preprocess = .ok q := by
  cases done : p.resolved with
  | true =>
    have same : p = q := by simpa [preprocess, done] using h
    exact same ▸ h
  | false =>
    rw [(of_preprocess done h).2]
    rfl

theorem commands_of_preprocess (h : p.preprocess = .ok q) (empty : p.commands = []) :
    q.commands = [] := by
  cases done : p.resolved with
  | true =>
    have same : p = q := by simpa [preprocess, done] using h
    exact same ▸ empty
  | false =>
    rw [(of_preprocess done h).2]
    simp [resolvedOf, running, empty]

/-- Only labels, each of them once, and none resolved so far. -/
structure Bare (p : Program) : Prop where
  fresh : p.resolved = false
  nonempty : p.commands ≠ []
  labels : ∀ c ∈ p.commands, c.isLabel = true
  unique : (labelNames p.commands).Nodup

/-- What a bare program comes back as. -/
def cleared (p : Program) : Program := ⟨[], places p.commands 0, true⟩

theorem bare_iff (nonempty : p.commands ≠ []) :
    p.Bare ↔ ∃ q, p.preprocess = .ok q ∧ q.commands = [] := by
  have labels : running p.commands = [] ↔ ∀ c ∈ p.commands, c.isLabel = true := by
    simp [running]
  constructor
  · intro bare
    have found := index_eq p.commands 0 [] bare.unique (by simp)
    refine ⟨resolvedOf p.commands, ?_, labels.mpr bare.labels⟩
    simp only [preprocess, bare.fresh, Bool.false_eq_true, if_false, found, Except.map]
    rfl
  · rintro ⟨q, found, empty⟩
    cases done : p.resolved with
    | true =>
      have same : p = q := by simpa [preprocess, done] using found
      exact absurd (same ▸ empty) nonempty
    | false =>
      obtain ⟨unique, rfl⟩ := of_preprocess done found
      exact ⟨done, nonempty, labels.mp empty, unique⟩

theorem Bare.preprocess (h : p.Bare) : p.preprocess = .ok p.cleared := by
  obtain ⟨q, found, -⟩ := (bare_iff h.nonempty).mp h
  have resolved := (of_preprocess h.fresh found).2
  have none : running p.commands = [] := by
    simpa [running] using h.labels
  rw [found, resolved, resolvedOf, none, cleared]

end Program

/-- What the program with that number resolves to. -/
def resolution (programs : Array Program) (n : Nat) : Except Failure Program :=
  (programs.getD n (.ofCommands [])).preprocess

theorem resolution_setIfInBounds {programs : Array Program} {n : Nat} {q : Program}
    (same : q.preprocess = resolution programs n) (m : Nat) :
    resolution (programs.setIfInBounds n q) m = resolution programs m := by
  unfold resolution at *
  simp only [Array.getD_eq_getD_getElem?] at *
  by_cases here : n = m
  · subst here
    by_cases inside : n < programs.size
    · simp [inside] at same ⊢
      exact same
    · simp [inside]
  · simp [here]

namespace Remark

def isRefusal : Remark → Bool
  | .refusedEmpty | .refusedLabelsOnly | .stillExecuting | .preprocessingFailed _ => true
  | _ => false

end Remark

namespace World

variable {w : World} {p q : Program} {rm : Remark} {e : Failure}

/-- Why a program is refused: the remark, what it comes back as, and the error. -/
inductive Refuses (w : World) (p : Program) : Remark → Program → Failure → Prop where
  | empty : p.commands = [] → Refuses w p .refusedEmpty p .emptyProgram
  | busy : p.commands ≠ [] → w.state.executing = true →
    Refuses w p .stillExecuting p .alreadyExecuting
  | repeats {name : String} : w.state.executing = false →
    p.preprocess = .error (.duplicateLabel name) →
    Refuses w p (.preprocessingFailed (.duplicateLabel name)) p (.duplicateLabel name)
  | bare : w.state.executing = false → p.Bare →
    Refuses w p .refusedLabelsOnly p.cleared .emptyProgram

theorem Refuses.isRefusal (h : w.Refuses p rm q e) : rm.isRefusal = true := by
  cases h <;> rfl

theorem Refuses.preprocess (h : w.Refuses p rm q e) : q.preprocess = p.preprocess := by
  cases h with
  | empty | busy | repeats => rfl
  | bare _ bare => rw [Program.preprocess_preprocess bare.preprocess, bare.preprocess]

/-- A program that is busy or empty does not so much as look at the labels. -/
theorem Refuses.unchanged (h : w.Refuses p rm q e) (running : w.state.executing = true) :
    q = p ∧ (e = .emptyProgram ∨ e = .alreadyExecuting) := by
  cases h with
  | empty => exact ⟨rfl, .inl rfl⟩
  | busy => exact ⟨rfl, .inr rfl⟩
  | repeats idle | bare idle =>
    rw [running] at idle
    cases idle

/-- A program is started, or refused for one of the reasons there are. -/
theorem execute_refused (w : World) (p : Program) :
    (∃ rm q e, w.Refuses p rm q e ∧ w.execute p = (w.remark rm, q, .error e)) ∨
    (∃ q, w.state.executing = false ∧ p.preprocess = .ok q ∧ q.commands ≠ [] ∧
      w.execute p = (w.launch q, q, .ok w.runs)) := by
  unfold execute
  split
  · rename_i empty
    exact .inl ⟨_, _, _, .empty (by simpa [Program.isEmpty] using empty), rfl⟩
  rename_i nonempty
  have nonempty : p.commands ≠ [] := by simpa [Program.isEmpty] using nonempty
  split
  · rename_i busy
    exact .inl ⟨_, _, _, .busy nonempty busy, rfl⟩
  rename_i idle
  have idle : w.state.executing = false := by simpa using idle
  split
  · rename_i e failed
    obtain ⟨name, rfl⟩ := Program.preprocess_error failed
    exact .inl ⟨_, _, _, .repeats idle failed, rfl⟩
  rename_i q found
  split
  · rename_i empty
    have bare := (Program.bare_iff nonempty).mpr ⟨q, found, by simpa [Program.isEmpty] using empty⟩
    have back : q = p.cleared := Except.ok.inj (found.symm.trans bare.preprocess)
    exact .inl ⟨_, _, _, back ▸ .bare idle bare, rfl⟩
  · rename_i kept
    exact .inr ⟨q, idle, found, by simpa [Program.isEmpty] using kept, rfl⟩

theorem execute_of_preprocess (idle : w.state.executing = false) (found : p.preprocess = .ok q)
    (nonempty : q.commands ≠ []) : w.execute p = (w.launch q, q, .ok w.runs) := by
  rcases execute_refused w p with ⟨rm, q', e, refuses, -⟩ | ⟨q', -, found', -, heq⟩
  · cases refuses with
    | empty empty => exact absurd (Program.commands_of_preprocess found empty) nonempty
    | busy _ busy =>
      rw [idle] at busy
      cases busy
    | repeats _ failed =>
      rw [found] at failed
      cases failed
    | bare _ bare =>
      rw [bare.preprocess] at found
      cases found
      exact absurd rfl nonempty
  · cases found.symm.trans found'
    exact heq

/-- Programs that resolve to the same are both refused or both started. -/
theorem execute_alike {p₁ p₂ : Program} (same : p₁.preprocess = p₂.preprocess) :
    (∃ rm₁ q₁ e₁ rm₂ q₂ e₂, w.Refuses p₁ rm₁ q₁ e₁ ∧ w.Refuses p₂ rm₂ q₂ e₂ ∧
      w.execute p₁ = (w.remark rm₁, q₁, .error e₁) ∧
      w.execute p₂ = (w.remark rm₂, q₂, .error e₂)) ∨
    (∃ q, p₁.preprocess = .ok q ∧ w.execute p₁ = (w.launch q, q, .ok w.runs) ∧
      w.execute p₂ = (w.launch q, q, .ok w.runs)) := by
  rcases execute_refused w p₁ with ⟨rm₁, q₁, e₁, refuses₁, heq₁⟩ | ⟨q, idle, found, nonempty, heq⟩
  · rcases execute_refused w p₂ with ⟨rm₂, q₂, e₂, refuses₂, heq₂⟩ | ⟨q, idle, found, nonempty, -⟩
    · exact .inl ⟨_, _, _, _, _, _, refuses₁, refuses₂, heq₁, heq₂⟩
    · rw [execute_of_preprocess idle (same.trans found) nonempty] at heq₁
      cases congrArg (·.2.2) heq₁
  · exact .inr ⟨q, found, heq, execute_of_preprocess idle (same ▸ found) nonempty⟩

end World

end SceneScript
