import DiceArithmetic.Proofs.Evaluation.Replay

/-!
# Evaluating with a script that is used up

A script with nothing left serves an evaluation that needs no draw, and no other. Whether a draw is
needed does not depend on the source: an evaluation that asks one source for a draw asks any source
for one. This follows from how evaluations are replayed. What asks its source is replayed by drawing
from some script, and what does not is replayed with no script at all; see `Evaluator.run_spent`.
-/

namespace DiceArithmetic

variable {σ α : Type}

/-- After so many draws the source was asked for another one: it made it, or it failed. -/
def Step.Asked (before : Nat) (result : EStateM.Result Interruption (Progress (Recorded σ)) α) :
    Prop :=
  before < (drawn result).length ∨ ∃ error after, result = .error (.source error) after

section Replayed

variable {other : Step (Recorded Generator) α} {before : Progress (Recorded σ)}
  {result : EStateM.Result Interruption (Progress (Recorded σ)) α}

/-- A step that asks its source is replayed by one that draws from some script. -/
theorem Replayed.exists_drawn (h : Replayed other before result)
    (hasked : Step.Asked before.source.draws.size result) :
    ∃ values,
      before.source.draws.size < (Step.drawn (other (before.scripted values))).length := by
  cases h with
  | finished made hmade hother =>
      obtain hmore | ⟨_, _, ⟨⟩⟩ := hasked
      refine ⟨made.map Draw.value ++ [], ?_⟩
      rw [hother]
      exact hmore
  | failed made hmade hother hown =>
      obtain hmore | ⟨_, _, ⟨⟩⟩ := hasked
      · refine ⟨made.map Draw.value ++ [], ?_⟩
        rw [hother]
        exact hmore
      · exact hown.elim
  | starved made hmade hother hmore =>
      obtain ⟨low, high, hdrawn⟩ := hmore 0 []
      refine ⟨made.map Draw.value ++ [0], ?_⟩
      have hlength := hdrawn.length_le
      rw [hmade, List.length_append, List.length_append, List.length_singleton,
        Array.length_toList] at hlength
      omega

/-- A step that does not ask its source goes the same way with a script that has nothing left. -/
theorem Replayed.eq_of_not_asked (h : Replayed other before result)
    (hidle : ¬ Step.Asked before.source.draws.size result) :
    Step.mapSource Recorded.draws (other (before.scripted [])) =
      Step.mapSource Recorded.draws result := by
  have hnone {made draws : List Draw} (hmade : draws = before.source.draws.toList ++ made)
      (hsize : ¬ before.source.draws.size < draws.length) : made = [] := by
    rw [hmade, List.length_append, Array.length_toList] at hsize
    exact List.length_eq_zero_iff.1 (by omega)
  cases h with
  | finished made hmade hother | failed made hmade hother =>
      obtain rfl := hnone hmade fun hmore ↦ hidle (.inl hmore)
      have hsame := hother []
      rw [List.map_nil, List.nil_append] at hsame
      rw [hsame]
      rfl
  | starved => exact absurd (.inr ⟨_, _, rfl⟩) hidle

end Replayed

/-- A recorded script that is used up. -/
def Recorded.spent (draws : Array Draw) : Recorded Generator :=
  ⟨.scripted [] draws.size, draws⟩

/-- A script that is used up stays so, and says after how many draws. -/
theorem spent_keeps (draws : Array Draw) :
    Generator.source.recording.Keeps (· = .spent draws) fun error recorded ↦
      error = .exhausted draws.size ∧ recorded = .spent draws := by
  rintro sides _ _ rfl
  exact ⟨rfl, rfl⟩

namespace Evaluator

variable (evaluator : Evaluator) (expression : Expression)

/-- With a script that is used up an evaluation fails for want of a value; or it draws nothing, even
if there is more in the script. -/
theorem run_spent_or (draws : Array Draw) :
    (∃ progress, evaluator.run Generator.source.recording expression (.spent draws) =
        .error (.source (.exhausted draws.size)) progress ∧ progress.source = .spent draws) ∨
      ∀ left, Step.drawn (evaluator.run Generator.source.recording expression
        ⟨.scripted left draws.size, draws⟩) = draws.toList := by
  have hreplayed := (evaluator.evaluate_replays Generator.source expression).replayed
    { source := .spent draws }
  have hleaves := evaluator.evaluate_keeps (spent_keeps draws) expression
    { source := .spent draws } rfl
  rw [← run] at hreplayed hleaves
  have hnone {made : List Draw} {after : Progress (Recorded Generator)}
      (hmade : after.source.draws.toList = draws.toList ++ made)
      (hafter : after.source = .spent draws) : made = [] := by
    rw [hafter] at hmade
    exact List.append_right_eq_self.1 hmade.symm
  generalize evaluator.run Generator.source.recording expression (.spent draws) = result
    at hreplayed hleaves ⊢
  cases hreplayed with
  | finished made hmade hother =>
      obtain rfl := hnone hmade hleaves
      have hidle := hmade.trans (List.append_nil _)
      exact .inr fun left ↦ (congrArg Step.drawn (hother left)).trans hidle
  | failed made hmade hother hown =>
      obtain rfl := hnone hmade ((leaves_error_iff hown).1 hleaves)
      have hidle := hmade.trans (List.append_nil _)
      exact .inr fun left ↦ (congrArg Step.drawn (hother left)).trans hidle
  | starved =>
      obtain ⟨rfl, hafter⟩ := hleaves
      exact .inl ⟨_, rfl, hafter⟩

/-- With a script that is used up an evaluation fails for want of a value, and then any source is
asked for one; or it goes the same way with any source, and draws nothing. -/
theorem run_spent (draws : Array Draw) :
    (∃ progress, evaluator.run Generator.source.recording expression (.spent draws) =
        .error (.source (.exhausted draws.size)) progress ∧ progress.source = .spent draws ∧
      ∀ {τ : Type} (source : Source τ) (state : τ),
        Step.Asked draws.size (evaluator.run source.recording expression ⟨state, draws⟩)) ∨
    ∀ {τ : Type} (source : Source τ) (state : τ),
      Step.mapSource Recorded.draws (evaluator.run source.recording expression ⟨state, draws⟩) =
          Step.mapSource Recorded.draws
            (evaluator.run Generator.source.recording expression (.spent draws)) ∧
        Step.drawn (evaluator.run source.recording expression ⟨state, draws⟩) = draws.toList := by
  have hreplayed {τ : Type} (source : Source τ) (state : τ) :
      Replayed (evaluator.evaluate Generator.source.recording expression)
        { source := ⟨state, draws⟩ } (evaluator.run source.recording expression ⟨state, draws⟩) :=
    (evaluator.evaluate_replays source expression).replayed _
  obtain ⟨progress, hstarved, hspent⟩ | hnone := evaluator.run_spent_or expression draws
  · refine .inl ⟨progress, hstarved, hspent, fun source state ↦ ?_⟩
    refine Classical.byContradiction fun hidle ↦ ?_
    have hsame := (hreplayed source state).eq_of_not_asked hidle
    change Step.mapSource Recorded.draws
      (evaluator.run Generator.source.recording expression (.spent draws)) = _ at hsame
    rw [hstarved] at hsame
    cases hrun : evaluator.run source.recording expression ⟨state, draws⟩ with
    | ok total after =>
        rw [hrun] at hsame
        cases hsame
    | error interruption after =>
        rw [hrun] at hsame
        obtain ⟨rfl, -⟩ := EStateM.Result.error.inj hsame
        exact hidle (.inr ⟨_, after, hrun⟩)
  · refine .inr fun {τ} source state ↦ ?_
    have hidle : ¬ Step.Asked draws.size
        (evaluator.run source.recording expression ⟨state, draws⟩) := by
      intro hasked
      obtain ⟨values, hmore⟩ := (hreplayed source state).exists_drawn hasked
      have hdrawn : Step.drawn (evaluator.evaluate Generator.source.recording expression
          ({ source := ⟨state, draws⟩ : Progress (Recorded τ) }.scripted values)) = draws.toList :=
        hnone values
      rw [hdrawn, Array.length_toList] at hmore
      exact Nat.lt_irrefl _ hmore
    have hsame := ((hreplayed source state).eq_of_not_asked hidle).symm
    exact ⟨hsame, (Step.drawn_eq_of_mapSource_eq hsame).trans (hnone [])⟩

end Evaluator

end DiceArithmetic
