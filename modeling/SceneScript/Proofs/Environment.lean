import SceneScript.Proofs.Crossing
/-!
Which environments the showcase accepts (`ofLookup_eq_ok_iff`), and what it makes of them: every
accepted one can be played, unless it asks for more frames than a second has nanoseconds
(`accepted_setups_run`).
-/

namespace SceneScript

namespace Showcase

variable {lookup readFile : String → Option String} {setup : Setup} {bound n m : Nat}

/-! ### Numbers -/

theorem readDigits_lt {cs : List Char} (below : n < bound) (read : readDigits bound n cs = .ok m) :
    m < bound := by
  fun_induction readDigits bound n cs with
  | case1 => exact Except.ok.inj read ▸ below
  | case2 => cases read
  | case3 n c rest digit next small ih => exact ih small read
  | case4 => cases read

theorem readNumber_lt {s : String} (positive : 0 < bound) (read : readNumber bound s = .ok m) :
    m < bound := by
  unfold readNumber at read
  split at read
  · cases read
  · exact readDigits_lt positive read
  · exact readDigits_lt positive read

namespace Setup

theorem number_eq_of_lookup {key raw : String} (standard : Nat) (found : lookup key = some raw)
    (read : readNumber bound (Text.trim raw) = .ok n) : number lookup key bound standard = .ok n := by
  rw [number, found]
  simp [read]

theorem number_eq_standard {key : String} (bound standard : Nat) (missing : lookup key = none) :
    number lookup key bound standard = .ok standard := by
  rw [number, missing]

theorem number_lt {key : String} {standard : Nat} (below : standard < bound)
    (read : number lookup key bound standard = .ok n) : n < bound := by
  unfold number at read
  split at read
  · exact Except.ok.inj read ▸ below
  · split at read
    · rename_i m first
      exact Except.ok.inj read ▸ readNumber_lt (Nat.zero_lt_of_lt below) first
    · cases read

/-! ### Acceptance -/

theorem bind_eq_ok_iff {α β : Type} {x : Except Fault α} {f : α → Except Fault β} {b : β} :
    (x >>= f) = .ok b ↔ ∃ a, x = .ok a ∧ f a = .ok b := by
  cases x <;> simp [bind, Except.bind]

/-- The texts of an environment, read. A confirm interval of zero is still to be raised to one. -/
structure Reads (lookup readFile : String → Option String) (settings : Settings)
    (rate every limit : Nat) : Prop where
  settings : settingsOf lookup readFile = .ok settings
  rate : number lookup "FRAME_RATE" (Nat.pow 2 32) 60 = .ok rate
  every : number lookup "AUTO_CONFIRM_FRAMES" (Nat.pow 2 64) 20 = .ok every
  limit : number lookup "MAX_FRAMES" (Nat.pow 2 64) 36000 = .ok limit

theorem ofLookup_eq_ok_iff : ofLookup lookup readFile = .ok setup ↔
    ∃ settings rate every limit, Reads lookup readFile settings rate every limit ∧ rate ≠ 0 ∧
      setup = ⟨settings, rate, max every 1, limit⟩ := by
  unfold ofLookup
  constructor
  · intro accepted
    obtain ⟨settings, known, accepted⟩ := bind_eq_ok_iff.mp accepted
    obtain ⟨rate, rated, accepted⟩ := bind_eq_ok_iff.mp accepted
    by_cases none : rate = 0
    · rw [if_pos none] at accepted
      cases accepted
    rw [if_neg none] at accepted
    obtain ⟨every, paced, accepted⟩ := bind_eq_ok_iff.mp accepted
    obtain ⟨limit, limited, accepted⟩ := bind_eq_ok_iff.mp accepted
    exact ⟨settings, rate, every, limit, ⟨known, rated, paced, limited⟩, none,
      (Except.ok.inj accepted).symm⟩
  · rintro ⟨settings, rate, every, limit, ⟨known, rated, paced, limited⟩, some, rfl⟩
    refine bind_eq_ok_iff.mpr ⟨settings, known, bind_eq_ok_iff.mpr ⟨rate, rated, ?_⟩⟩
    rw [if_neg some]
    exact bind_eq_ok_iff.mpr ⟨every, paced, bind_eq_ok_iff.mpr ⟨limit, limited, rfl⟩⟩

/-- An environment that names a frame rate and nothing else. -/
def rateOnly (text : String) : String → Option String :=
  fun key => if key = "FRAME_RATE" then some text else none

theorem ofLookup_rateOnly {text : String} {rate : Nat} (readFile : String → Option String)
    (read : readNumber (Nat.pow 2 32) (Text.trim text) = .ok rate) (some : rate ≠ 0) :
    ofLookup (rateOnly text) readFile = .ok ⟨.standard, rate, 20, 36000⟩ := by
  refine ofLookup_eq_ok_iff.mpr ⟨.standard, rate, 20, 36000, ⟨?_, ?_, ?_, ?_⟩, some, rfl⟩
  · rfl
  · exact number_eq_of_lookup 60 rfl read
  · exact number_eq_standard _ 20 rfl
  · exact number_eq_standard _ 36000 rfl

/-! ### Playing what was accepted -/

theorem frameSpan_eq_zero_iff (positive : 1 ≤ setup.frameRate) :
    setup.frameSpan = .zero ↔ Span.perSecond < setup.frameRate := by
  unfold frameSpan Span.zero
  rw [Span.mk.injEq, Nat.div_eq_zero_iff_lt positive]

/-- What comes of a set-up. The frame of a rate above one a nanosecond is cut down to nothing, and a
ticker cannot be made for it. -/
structure Runs (setup : Setup) : Prop where
  confirms : 1 ≤ setup.confirmEvery
  rate : 1 ≤ setup.frameRate
  limited : setup.maxFrames < Nat.pow 2 64
  period : setup.frameSpan = .zero ↔ Span.perSecond < setup.frameRate
  arrives : setup.frameRate ≤ Span.perSecond →
    ∀ hasty, Arrives setup hasty (play setup hasty).1 (play setup hasty).2
  panics : ∀ hasty, (∃ text, (play setup hasty).2 = .panicked text) ↔ Span.perSecond < setup.frameRate

end Setup

theorem accepted_setups_run (accepted : Setup.ofLookup lookup readFile = .ok setup) :
    setup.Runs := by
  obtain ⟨settings, rate, every, limit, read, some, rfl⟩ := Setup.ofLookup_eq_ok_iff.mp accepted
  generalize same : (⟨settings, rate, max every 1, limit⟩ : Setup) = setup
  have confirms : 1 ≤ setup.confirmEvery := same ▸ Nat.le_max_right every 1
  have positive : 1 ≤ setup.frameRate := same ▸ Nat.pos_of_ne_zero some
  have limited : setup.maxFrames < Nat.pow 2 64 :=
    same ▸ Setup.number_lt (show 36000 < Nat.pow 2 64 by decide) read.limit
  have period := Setup.frameSpan_eq_zero_iff positive
  have arrives (slow : setup.frameRate ≤ Span.perSecond) (hasty : Nat → Bool) :
      Arrives setup hasty (play setup hasty).1 (play setup hasty).2 := by
    have frames : setup.frameSpan ≠ .zero := fun none => Nat.not_lt.mpr slow (period.mp none)
    have playable : setup.Playable := ⟨frames, confirms, limited⟩
    rw [play, if_neg frames]
    exact play_arrives playable setup.maxFrames ⟨Host.opening setup hasty, 0, .zero, false, 0, []⟩
      (sailed_opening playable) (Nat.zero_add _)
  refine ⟨confirms, positive, limited, period, arrives, fun hasty => ⟨?_, ?_⟩⟩
  · rintro ⟨text, panicked⟩
    refine Nat.lt_of_not_le fun slow => ?_
    have ends := (arrives slow hasty).ends
    rw [panicked] at ends
    cases ends
  · intro fast
    rw [play, if_pos (period.mpr fast)]
    exact ⟨_, rfl⟩

/-- One frame a nanosecond is the most that can be played. -/
theorem accepted_setups_run_nanosecond :
    let setup : Setup := ⟨.standard, 1000000000, 20, 36000⟩
    Setup.ofLookup (Setup.rateOnly " 1000000000") (fun _ => none) = .ok setup ∧ setup.Runs := by
  have trimmed : Text.trim " 1000000000" = "1000000000" := by decide +kernel
  have read : readNumber (Nat.pow 2 32) "1000000000" = .ok 1000000000 := by rfl
  have accepted := Setup.ofLookup_rateOnly (fun _ => none) (trimmed ▸ read) (by decide)
  exact ⟨accepted, accepted_setups_run accepted⟩

/-- An environment is accepted that asks for one frame more in a second. -/
theorem overfast_setup_panics :
    let setup : Setup := ⟨.standard, 1000000001, 20, 36000⟩
    Setup.ofLookup (Setup.rateOnly "1000000001") (fun _ => none) = .ok setup ∧
      setup.frameSpan = .zero ∧
        ∀ hasty, (play setup hasty).2 = .panicked "`period` must be non-zero." := by
  have trimmed : Text.trim "1000000001" = "1000000001" := by decide +kernel
  have read : readNumber (Nat.pow 2 32) "1000000001" = .ok 1000000001 := by rfl
  refine ⟨Setup.ofLookup_rateOnly (fun _ => none) (trimmed.symm ▸ read) (by decide), ?_, ?_⟩
  · decide
  · intro hasty
    rw [play, if_pos (by decide)]

end Showcase

end SceneScript
