import Mathlib.Data.String.Basic
import Mathlib.Tactic.IntervalCases
import SceneScript.Proofs.Standing
import SceneScript.Showcase.Harbour
/-!
The cutscene at the harbour as it runs: its labels are resolved, and the options of its choice are
the parts of a text.
-/

namespace SceneScript

/-! ### Options in a text -/

namespace Text

open String

theorem get_singleton (c : Char) : Pos.Raw.get (String.singleton c) 0 = c := by
  have head := get_of_valid [] [c]
  simpa using head

theorem next_singleton (c : Char) : Pos.Raw.next (String.singleton c) 0 = ⟨c.utf8Size⟩ := by
  rw [Pos.Raw.next, get_singleton]
  simp [Pos.Raw.add_char_eq]

theorem extract_middle (l m r : List Char) :
    Pos.Raw.extract (ofList (l ++ m ++ r)) ⟨utf8Len l⟩ ⟨utf8Len (l ++ m)⟩ = ofList m := by
  rw [utf8Len_append]
  exact extract_of_valid l m r

/-- Text is split from the left: `l` is done with, and `m` is what there is of the next part. -/
theorem splitOnAux_singleton (c : Char) (l m r : List Char) (parts : List String) :
    splitOnAux (ofList (l ++ m ++ r)) (String.singleton c) ⟨utf8Len l⟩ ⟨utf8Len (l ++ m)⟩ 0 parts =
      parts.reverse ++ (List.splitOnPPrepend (· == c) r m.reverse).map ofList := by
  induction r generalizing l m parts with
  | nil =>
    rw [splitOnAux, if_pos ((atEnd_of_valid (l ++ m) []).mpr rfl), extract_middle]
    simp
  | cons d r ih =>
    have goes : ¬ Pos.Raw.atEnd (ofList (l ++ m ++ d :: r)) ⟨utf8Len (l ++ m)⟩ = true := by
      rw [atEnd_of_valid]
      exact List.cons_ne_nil d r
    have next : utf8Len (l ++ m) + d.utf8Size = utf8Len (l ++ m ++ [d]) := by
      simp [Nat.add_assoc]
    have text : l ++ m ++ d :: r = l ++ m ++ [d] ++ r := by simp
    rw [splitOnAux, if_neg goes, get_of_valid, get_singleton, next_singleton,
      List.splitOnPPrepend_cons_eq_if]
    show (if (d == c) = true then _ else _) = _
    split
    · rename_i same
      obtain rfl : d = c := beq_iff_eq.mp same
      have ends : Pos.Raw.atEnd (String.singleton d) ⟨d.utf8Size⟩ = true := by
        have last := (atEnd_of_valid [d] []).mpr rfl
        simpa using last
      have back : (⟨utf8Len (l ++ m) + d.utf8Size⟩ : Pos.Raw).unoffsetBy ⟨d.utf8Size⟩ =
          ⟨utf8Len (l ++ m)⟩ := by
        simp [Pos.Raw.ext_iff]
      have others := ih (l ++ m ++ [d]) [] (ofList m :: parts)
      rw [List.append_nil] at others
      dsimp only
      rw [next_of_valid, if_pos ends, back, extract_middle, next, text, others]
      simp
    · have back : (⟨utf8Len (l ++ m)⟩ : Pos.Raw).unoffsetBy 0 = ⟨utf8Len (l ++ m)⟩ := by simp
      have others := ih l (m ++ [d]) parts
      rw [← List.append_assoc] at others
      rw [back, next_of_valid, next, text, others]
      simp

theorem splitOn_singleton (text : String) (c : Char) :
    text.splitOn (String.singleton c) = (text.toList.splitOn c).map ofList := by
  have filled : (String.singleton c == "") = false := by
    refine beq_eq_false_iff_ne.mpr fun none => ?_
    have lists := congrArg String.toList none
    simp at lists
  have parts := splitOnAux_singleton c [] [] text.toList []
  rw [splitOn, if_neg (by simp [filled]), List.splitOn]
  simpa using parts

end Text

/-- The options of a choice are what stands between the commas of a text. -/
theorem Command.choiceOf_eq (text : String) :
    choiceOf text = .choice ((text.toList.splitOn choiceSeparator).map String.ofList) := by
  rw [choiceOf, Text.splitOn_singleton]

namespace Showcase

/-! ### The cutscene, resolved -/

def cutscene : Program := .resolvedOf (harbourCommands 0 0 0)

theorem preprocess_harbour :
    (Program.ofCommands (harbourCommands 0 0 0)).preprocess = .ok cutscene :=
  Program.preprocess_ofCommands (by decide)

theorem resolve_ferry : cutscene.resolve "ferry" = .ok 10 := rfl

/-- Past the ferryman no jump leads back. -/
theorem resolve_after {label : String} (after : label = "epilogue" ∨ label = "end") :
    ∃ place, cutscene.resolve label = .ok place ∧ 11 ≤ place := by
  rcases after with rfl | rfl
  · exact ⟨18, rfl, by decide⟩
  · exact ⟨26, rfl, by decide⟩

theorem commands_before {place : Nat} (before : place < 8) :
    ∃ c, cutscene.commands[place]? = some c ∧ c.isPlain = true ∧ c.isLoad = false := by
  interval_cases place <;> exact ⟨_, rfl, rfl, rfl⟩

def boarding : List String := ["Board the ferry", "Stay ashore"]

theorem commands_choice : cutscene.commands[8]? = some (.choice boarding) := by
  have parts : Command.choiceOf "Board the ferry,Stay ashore" = .choice boarding := by
    rw [Command.choiceOf_eq]
    rfl
  exact congrArg some parts

theorem commands_switch : cutscene.commands[9]? = some (.switch 0) := rfl

theorem commands_action : cutscene.commands[10]? = some (.action 0) := rfl

/-- The commands after the ferryman was met. -/
inductive Outbound : Command → Prop where
  | plain {c : Command} : c.isPlain = true → c.isLoad = false → Outbound c
  | loads (scene : String) (color : Color) (span : Span) (fadeMusic : Bool) :
      Outbound (.sceneLoad scene color span fadeMusic)
  | jumps {label : String} : label = "epilogue" ∨ label = "end" → Outbound (.goto label)
  | asks : Outbound (.branch 0 "end")

theorem outbound_after {place : Nat} {c : Command} (after : 11 ≤ place)
    (found : cutscene.commands[place]? = some c) : Outbound c := by
  have within : place < 29 := (List.getElem?_eq_some_iff.mp found).1
  interval_cases place <;> cases found
  case «27» => exact .loads _ _ _ _
  all_goals first | exact .plain rfl rfl | exact .jumps (.inl rfl) | exact .asks

end Showcase

end SceneScript
