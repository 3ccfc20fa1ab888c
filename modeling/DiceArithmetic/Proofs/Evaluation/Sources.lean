import DiceArithmetic.Proofs.Evaluation.Composition

/-!
# What an evaluation takes over from its source

An evaluation touches the state of its source by draws only. Whatever draws keep true of that state
therefore stays true of it (`Evaluator.evaluate_keeps`), and a map of states that draws follow is
followed by evaluations (`Evaluator.evaluate_followedBy`). In particular an evaluation goes the same
way whether or not its draws are recorded.
-/

namespace DiceArithmetic

variable {σ τ α β : Type}

section Keeps

/-- How a step leaves the state of the source, when its source has not failed and when it has. -/
def Leaves (holds : σ → Prop) (failed : SourceError → σ → Prop) :
    EStateM.Result Interruption (Progress σ) α → Prop
  | .ok _ after => holds after.source
  | .error (.evaluation _) after | .error (.untold _) after => holds after.source
  | .error (.source error) after => failed error after.source

/-- What holds of the state of the source before a step holds of it afterwards. -/
def Step.Keeps (holds : σ → Prop) (failed : SourceError → σ → Prop) (step : Step σ α) : Prop :=
  ∀ before, holds before.source → Leaves holds failed (step before)

/-- What holds of the state before a draw for a die holds of it afterwards. -/
def Source.Keeps (source : Source σ) (holds : σ → Prop) (failed : SourceError → σ → Prop) : Prop :=
  ∀ sides state, 1 ≤ sides → holds state →
    match source.draw 1 sides state with
    | .ok _ after => holds after
    | .error error after => failed error after

/-- What holds of the state before any draw holds of it afterwards, also if the draw fails. -/
def Source.Preserves (source : Source σ) (holds : σ → Prop) : Prop :=
  ∀ low high state, holds state →
    match source.draw low high state with
    | .ok _ after => holds after
    | .error _ after => holds after

variable {holds : σ → Prop} {failed : SourceError → σ → Prop}

theorem leaves_error_iff {interruption : Interruption} {after : Progress σ}
    (hown : interruption.IsOwn) :
    Leaves holds failed (.error interruption after : EStateM.Result _ _ α) ↔
      holds after.source := by
  cases interruption with
  | evaluation | untold => exact Iff.rfl
  | source => exact hown.elim

/-- What all draws preserve is kept by those for dice. -/
theorem Source.Preserves.keeps {source : Source σ} (h : source.Preserves holds) :
    source.Keeps holds fun _ ↦ holds := by
  intro sides state _ hstate
  have hafter := h 1 sides state hstate
  cases hresult : source.draw 1 sides state with
  | ok value after =>
      rw [hresult] at hafter
      exact hafter
  | error error after =>
      rw [hresult] at hafter
      exact hafter

/-- A step that keeps what holds can follow one that leaves it so. -/
theorem Leaves.bind {first : Step σ α} {next : α → Step σ β} {before : Progress σ}
    (hfirst : Leaves holds failed (first before))
    (hnext : ∀ value, (next value).Keeps holds failed) :
    Leaves holds failed ((first >>= next) before) := by
  rw [Step.bind_apply]
  cases hresult : first before with
  | ok value middle =>
      rw [hresult] at hfirst
      exact hnext value middle hfirst
  | error interruption after =>
      rw [hresult] at hfirst
      cases interruption with
      | evaluation | untold | source => exact hfirst

/-- Steps that keep what holds of the state of a source which keeps it. -/
theorem Source.Keeps.respectsDraws {source : Source σ} (h : source.Keeps holds failed) :
    RespectsDraws source source fun _ step _ ↦ step.Keeps holds failed where
  ofExcept := by
    intro _ result before hbefore
    cases result with
    | ok value => exact hbefore
    | error error => exact (leaves_error_iff error.isOwn_raised).2 hbefore
  note := fun _ _ hbefore ↦ hbefore
  record := fun _ _ hbefore ↦ hbefore
  draw := by
    intro sides hsides before hbefore
    have hdraw := h sides before.source hsides hbefore
    unfold Step.draw
    cases hresult : source.draw 1 sides before.source with
    | ok value after =>
        rw [hresult] at hdraw
        exact hdraw
    | error error after =>
        rw [hresult] at hdraw
        exact hdraw
  bind := fun hfirst hnext before hbefore ↦ (hfirst before hbefore).bind hnext

/-- These draws were made before all others. -/
def Recorded.Extends (drawn : List Draw) (recorded : Recorded σ) : Prop :=
  drawn <+: recorded.draws.toList

/-- Recording forgets nothing. -/
theorem Source.recording_preserves (source : Source σ) (drawn : List Draw) :
    source.recording.Preserves (Recorded.Extends drawn) := by
  intro low high recorded hdrawn
  unfold Source.recording
  dsimp only
  cases source.draw low high recorded.state with
  | ok value after =>
      show drawn <+: (recorded.draws.push ⟨low, high, value⟩).toList
      rw [Array.toList_push]
      exact hdrawn.trans (List.prefix_append _ _)
  | error error after => exact hdrawn

/-- An evaluation forgets nothing that was drawn. -/
theorem Source.recording_keeps (source : Source σ) (drawn : List Draw) :
    source.recording.Keeps (Recorded.Extends drawn) fun _ ↦ Recorded.Extends drawn :=
  (source.recording_preserves drawn).keeps

/-- An evaluation keeps what the draws keep. -/
theorem Evaluator.evaluate_keeps {source : Source σ} (h : source.Keeps holds failed)
    (evaluator : Evaluator) {tier : Tier} (node : Node tier) :
    (evaluator.evaluate source node).Keeps holds failed :=
  h.respectsDraws.evaluate_related evaluator node

end Keeps

section FollowedBy

/-- The same progress with another state of the source. -/
def Progress.mapSource (f : σ → τ) (progress : Progress σ) : Progress τ :=
  { source := f progress.source, rolls := progress.rolls, trace := progress.trace }

/-- The same result with another state of the source. -/
def Step.mapSource (f : σ → τ) :
    EStateM.Result Interruption (Progress σ) α → EStateM.Result Interruption (Progress τ) α
  | .ok value after => .ok value (after.mapSource f)
  | .error interruption after => .error interruption (after.mapSource f)

/-- Another step goes the way of a step, with its states mapped. -/
def Step.FollowedBy (f : σ → τ) (step : Step σ α) (follower : Step τ α) : Prop :=
  ∀ before, follower (before.mapSource f) = mapSource f (step before)

/-- Draws from another source go the way of those from a source, with its states mapped. -/
def Source.FollowedBy (f : σ → τ) (source : Source σ) (follower : Source τ) : Prop :=
  ∀ low high state, follower.draw low high (f state) =
    match source.draw low high state with
    | .ok value after => .ok value (f after)
    | .error error after => .error error (f after)

variable {f : σ → τ} {source : Source σ} {follower : Source τ}

/-- Steps follow those of another source when draws do. -/
theorem Source.FollowedBy.respectsDraws (h : source.FollowedBy f follower) :
    RespectsDraws source follower fun _ step other ↦ step.FollowedBy f other where
  ofExcept := by
    intro _ result before
    cases result with
    | ok value => rfl
    | error error => rfl
  note := fun _ _ ↦ rfl
  record := fun _ _ ↦ rfl
  draw := by
    intro sides _ before
    have hdraw := h 1 sides before.source
    show Step.draw follower 1 sides (before.mapSource f) = _
    unfold Step.draw
    rw [Progress.mapSource, hdraw]
    cases source.draw 1 sides before.source with
    | ok value after => rfl
    | error error after => rfl
  bind := by
    intro _ _ first otherFirst next otherNext hfirst hnext before
    rw [Step.bind_apply, Step.bind_apply, hfirst before]
    cases first before with
    | ok value middle => exact hnext value middle
    | error interruption after => rfl

/-- An evaluation follows that with another source when draws do. -/
theorem Evaluator.evaluate_followedBy (h : source.FollowedBy f follower) (evaluator : Evaluator)
    {tier : Tier} (node : Node tier) :
    (evaluator.evaluate source node).FollowedBy f (evaluator.evaluate follower node) :=
  h.respectsDraws.evaluate_related evaluator node

/-- A source does not notice that it is recorded. -/
theorem Source.recording_followedBy (source : Source σ) :
    source.recording.FollowedBy Recorded.state source := by
  intro low high recorded
  unfold Source.recording
  dsimp only
  cases source.draw low high recorded.state with
  | ok value after => rfl
  | error error after => rfl

/-- An evaluation goes the same way when its draws are recorded. -/
theorem Evaluator.run_recording (evaluator : Evaluator) (source : Source σ)
    (expression : Expression) (recorded : Recorded σ) :
    evaluator.run source expression recorded.state =
      Step.mapSource Recorded.state (evaluator.run source.recording expression recorded) :=
  evaluate_followedBy source.recording_followedBy evaluator expression { source := recorded }

end FollowedBy

end DiceArithmetic
