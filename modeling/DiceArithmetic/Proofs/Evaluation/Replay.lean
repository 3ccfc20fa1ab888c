import DiceArithmetic.Proofs.Evaluation.Accounts
import DiceArithmetic.Proofs.Evaluation.Sources
import DiceArithmetic.Random.Generator

/-!
# Replaying an evaluation

An evaluation depends on its source only through the values drawn. `Step.Replays` says so of two
steps, the second of which draws from a script: given the values that the first one drew, and
anything behind them, it comes to the same; and where the source of the first one failed, it draws
once more. For whole evaluations this means that any of them can be replayed from its rolls, and
that what lies in a script behind the values drawn makes no difference.
-/

namespace DiceArithmetic

variable {σ τ α β : Type}

/-- Everything drawn by the end of a step. -/
def Step.drawn : EStateM.Result Interruption (Progress (Recorded σ)) α → List Draw
  | .ok _ after => after.source.draws.toList
  | .error _ after => after.source.draws.toList

/-- Results that differ in the state of the source only have the same draws. -/
theorem Step.drawn_eq_of_mapSource_eq
    {result : EStateM.Result Interruption (Progress (Recorded σ)) α}
    {other : EStateM.Result Interruption (Progress (Recorded τ)) α}
    (h : mapSource Recorded.draws result = mapSource Recorded.draws other) :
    drawn result = drawn other := by
  have hdrawn {σ : Type} (result : EStateM.Result Interruption (Progress (Recorded σ)) α) :
      drawn result =
        match mapSource Recorded.draws result with
        | .ok _ after => after.source.toList
        | .error _ after => after.source.toList := by
    cases result with
    | ok value after => rfl
    | error interruption after => rfl
  rw [hdrawn, hdrawn, h]

/-- The same progress with a script in place of the source, of which so much is left. -/
def Progress.scripted (progress : Progress (Recorded σ)) (left : List Int) :
    Progress (Recorded Generator) :=
  progress.mapSource fun recorded ↦ ⟨.scripted left recorded.draws.size, recorded.draws⟩

/-- What the dice of all the rolls have shown, in order. -/
def Progress.faces (progress : Progress σ) : List Int :=
  progress.rolls.toList.flatMap DiceRoll.faces

theorem Progress.faces_mapSource (f : σ → β) (progress : Progress σ) :
    (progress.mapSource f).faces = progress.faces :=
  rfl

/-- How a step that draws from a script goes when the script begins with the values drawn on the way
from a certain progress to a result. -/
inductive Replayed (other : Step (Recorded Generator) α) (before : Progress (Recorded σ)) :
    EStateM.Result Interruption (Progress (Recorded σ)) α → Prop where
  | finished {value after} (made : List Draw) :
      after.source.draws.toList = before.source.draws.toList ++ made →
      (∀ left, other (before.scripted (made.map Draw.value ++ left)) =
        .ok value (after.scripted left)) →
      Replayed other before (.ok value after)
  | failed {interruption after} (made : List Draw) :
      after.source.draws.toList = before.source.draws.toList ++ made →
      (∀ left, other (before.scripted (made.map Draw.value ++ left)) =
        .error interruption (after.scripted left)) →
      interruption.IsOwn → Replayed other before (.error interruption after)
  | starved {error after} (made : List Draw) :
      after.source.draws.toList = before.source.draws.toList ++ made →
      other (before.scripted (made.map Draw.value)) =
        .error (.source (.exhausted after.source.draws.size)) (after.scripted []) →
      (∀ value left, ∃ low high, after.source.draws.toList ++ [⟨low, high, value⟩] <+:
        Step.drawn (other (before.scripted (made.map Draw.value ++ value :: left)))) →
      Replayed other before (.error (.source error) after)

/-- A step that draws from a script replays another step, and forgets nothing that was drawn. -/
structure Step.Replays (step : Step (Recorded σ) α) (other : Step (Recorded Generator) α) :
    Prop where
  replayed (before : Progress (Recorded σ)) : Replayed other before (step before)
  keeps (drawn : List Draw) : other.Keeps (Recorded.Extends drawn) fun _ ↦ Recorded.Extends drawn

/-- The draws of a result are those that it leaves in the record, however it came about. -/
theorem isPrefix_drawn_iff_leaves {result : EStateM.Result Interruption (Progress (Recorded σ)) α}
    {drawn : List Draw} :
    drawn <+: Step.drawn result ↔
      Leaves (Recorded.Extends drawn) (fun _ ↦ Recorded.Extends drawn) result := by
  cases result with
  | ok value after => exact Iff.rfl
  | error interruption after =>
      cases interruption with
      | evaluation | untold | source => exact Iff.rfl

/-- A script hands out its first value, if it has one. -/
theorem draw_replayed (source : Source σ) (low high : Int) (before : Progress (Recorded σ)) :
    Replayed (Step.draw Generator.source.recording low high) before
      (Step.draw source.recording low high before) := by
  unfold Step.draw Source.recording
  dsimp only
  cases source.draw low high before.source.state with
  | ok value state =>
      refine .finished [⟨low, high, value⟩] (Array.toList_push ..) fun left ↦ ?_
      simp [Progress.scripted, Progress.mapSource, Generator.source, Generator.draw]
  | error error state =>
      refine .starved [] (List.append_nil _).symm ?_ fun value left ↦ ⟨low, high, ?_⟩
      · rfl
      · simp [Progress.scripted, Progress.mapSource, Generator.source, Generator.draw, Step.drawn]

/-- One replayed step after another is replayed by their replays, one after the other. -/
theorem Replayed.bind {first : Step (Recorded σ) α} {next : α → Step (Recorded σ) β}
    {otherFirst : Step (Recorded Generator) α} {otherNext : α → Step (Recorded Generator) β}
    {before : Progress (Recorded σ)} (hfirst : Replayed otherFirst before (first before))
    (hnext : ∀ value, (next value).Replays (otherNext value)) :
    Replayed (otherFirst >>= otherNext) before ((first >>= next) before) := by
  rw [Step.bind_apply]
  cases hresult : first before with
  | error interruption after =>
      rw [hresult] at hfirst
      cases hfirst with
      | failed made hmade hother hown =>
          refine .failed made hmade (fun left ↦ ?_) hown
          rw [Step.bind_apply, hother left]
      | starved made hmade hother hmore =>
          refine .starved made hmade ?_ fun value left ↦ ?_
          · rw [Step.bind_apply, hother]
          · obtain ⟨low, high, hdrawn⟩ := hmore value left
            -- With one value more the first step may finish, and the next one only adds draws.
            refine ⟨low, high, isPrefix_drawn_iff_leaves.mpr ?_⟩
            exact (isPrefix_drawn_iff_leaves.mp hdrawn).bind fun value ↦ (hnext value).keeps _
  | ok value middle =>
      rw [hresult] at hfirst
      obtain ⟨made, hmade, hother⟩ := hfirst
      dsimp only
      -- For the next step, the script begins behind what the first one drew.
      have hvalues (later : List Draw) (left : List Int) :
          (made ++ later).map Draw.value ++ left =
            made.map Draw.value ++ (later.map Draw.value ++ left) := by
        rw [List.map_append, List.append_assoc]
      have hrest := (hnext value).replayed middle
      cases hfinal : next value middle with
      | ok total after =>
          rw [hfinal] at hrest
          obtain ⟨later, hlater, hotherRest⟩ := hrest
          refine .finished (made ++ later) ?_ fun left ↦ ?_
          · rw [hlater, hmade, List.append_assoc]
          · rw [hvalues, Step.bind_apply, hother]
            exact hotherRest left
      | error interruption after =>
          rw [hfinal] at hrest
          cases hrest with
          | failed later hlater hotherRest hown =>
              refine .failed (made ++ later) ?_ (fun left ↦ ?_) hown
              · rw [hlater, hmade, List.append_assoc]
              · rw [hvalues, Step.bind_apply, hother]
                exact hotherRest left
          | starved later hlater hotherRest hmore =>
              refine .starved (made ++ later) ?_ ?_ fun value left ↦ ?_
              · rw [hlater, hmade, List.append_assoc]
              · rw [List.map_append, Step.bind_apply, hother]
                exact hotherRest
              · obtain ⟨low, high, hdrawn⟩ := hmore value left
                refine ⟨low, high, ?_⟩
                rw [hvalues, Step.bind_apply, hother]
                exact hdrawn

/-- Replaying respects draws. -/
theorem respectsDraws_replays (source : Source σ) :
    RespectsDraws source.recording Generator.source.recording fun _ step other ↦
      step.Replays other where
  ofExcept := by
    intro _ result
    refine ⟨fun before ↦ ?_, fun drawn ↦ ?_⟩
    · cases result with
      | ok value => exact .finished [] (List.append_nil _).symm fun left ↦ rfl
      | error error =>
          exact .failed [] (List.append_nil _).symm (fun left ↦ rfl) error.isOwn_raised
    · exact (Generator.source.recording_keeps drawn).respectsDraws.ofExcept result
  note := by
    intro event
    refine ⟨fun before ↦ ?_, fun drawn ↦ ?_⟩
    · exact .finished [] (List.append_nil _).symm fun left ↦ rfl
    · exact (Generator.source.recording_keeps drawn).respectsDraws.note event
  record := by
    intro roll
    refine ⟨fun before ↦ ?_, fun drawn ↦ ?_⟩
    · exact .finished [] (List.append_nil _).symm fun left ↦ rfl
    · exact (Generator.source.recording_keeps drawn).respectsDraws.record roll
  draw := by
    intro sides hsides
    refine ⟨draw_replayed source 1 sides, fun drawn ↦ ?_⟩
    exact (Generator.source.recording_keeps drawn).respectsDraws.draw sides hsides
  bind := by
    intro _ _ first otherFirst next otherNext hfirst hnext
    refine ⟨fun before ↦ (hfirst.replayed before).bind hnext, fun drawn before hbefore ↦ ?_⟩
    exact (hfirst.keeps drawn before hbefore).bind fun value ↦ (hnext value).keeps drawn

/-- An evaluation with any source is replayed by that with a script. -/
theorem Evaluator.evaluate_replays (evaluator : Evaluator) (source : Source σ) {tier : Tier}
    (node : Node tier) :
    (evaluator.evaluate source.recording node).Replays
      (evaluator.evaluate Generator.source.recording node) :=
  (respectsDraws_replays source).evaluate_related evaluator node

/-- A recorded script is part of the way through these values: some were drawn, others are left. -/
def Recorded.Reads (values : List Int) (recorded : Recorded Generator) : Prop :=
  ∃ left, recorded.state = .scripted left recorded.draws.size ∧
    recorded.draws.toList.map Draw.value ++ left = values

/-- A recorded script was asked for more than these values. -/
structure Recorded.UsedUp (values : List Int) (error : SourceError)
    (recorded : Recorded Generator) : Prop where
  error_eq : error = .exhausted values.length
  drawn_eq : recorded.draws.toList.map Draw.value = values

/-- A script hands out its values in turn. -/
theorem script_preserves (values : List Int) :
    Generator.source.recording.Preserves (Recorded.Reads values) := by
  rintro low high ⟨state, draws⟩ ⟨left, hstate, hvalues⟩
  dsimp only at hstate hvalues
  subst hstate
  cases left with
  | nil => exact ⟨[], rfl, hvalues⟩
  | cons value left =>
      refine ⟨left, ?_, ?_⟩
      · rw [Array.size_push]
      · rw [Array.toList_push, List.map_append, List.append_assoc]
        exact hvalues

/-- A script hands out all of its values before it fails. -/
theorem script_keeps (values : List Int) :
    Generator.source.recording.Keeps (Recorded.Reads values) (Recorded.UsedUp values) := by
  rintro sides ⟨state, draws⟩ _ ⟨left, hstate, hvalues⟩
  dsimp only at hstate hvalues
  subst hstate
  cases left with
  | nil =>
      rw [List.append_nil] at hvalues
      refine ⟨?_, hvalues⟩
      rw [← hvalues, List.length_map, Array.length_toList]
  | cons value left =>
      have hreads : Recorded.Reads values ⟨.scripted (value :: left) draws.size, draws⟩ :=
        ⟨value :: left, rfl, hvalues⟩
      exact script_preserves values 1 sides _ hreads

/-- The values drawn for complete rolls are what their dice have shown. -/
theorem Progress.Balanced.faces_eq {limits : Limits} {state : σ}
    {progress : Progress (Recorded σ)} (h : progress.Balanced limits [] { state }) :
    progress.source.draws.toList.map Draw.value = progress.faces := by
  rw [h.draws_eq, List.append_nil]
  show List.map Draw.value (progress.rolls.toList.flatMap DiceRoll.draws) = _
  rw [List.map_flatMap, Progress.faces]
  simp only [DiceRoll.map_value_draws]

namespace Evaluator

variable (evaluator : Evaluator) (expression : Expression)

/-- Evaluates a tree with a script, and records what is drawn. -/
def runScript (values : List Int) :
    EStateM.Result Interruption (Progress (Recorded Generator)) Int :=
  evaluator.run Generator.source.recording expression { state := .ofScript values }

/-- An evaluation with a script draws its values in turn. -/
theorem runScript_leaves (values : List Int) :
    Leaves (Recorded.Reads values) (Recorded.UsedUp values)
      (evaluator.runScript expression values) :=
  evaluate_keeps (script_keeps values) evaluator expression
    { source := { state := .ofScript values } } ⟨values, rfl, rfl⟩

/-- An evaluation that succeeds is replayed from what its dice showed, all of which it uses. -/
theorem run_ofScript_faces {source : Source σ} {state : σ} {total : Int} {progress : Progress σ}
    (h : evaluator.run source expression state = .ok total progress) :
    evaluator.run Generator.source expression (.ofScript progress.faces) =
      .ok total (progress.mapSource fun _ ↦ .scripted [] progress.faces.length) := by
  have haudited := evaluator.run_audited source expression { state }
  have hreplayed := (evaluator.evaluate_replays source expression).replayed { source := { state } }
  rw [evaluator.run_recording source expression { state }] at h
  rw [← run] at hreplayed
  cases hrun : evaluator.run source.recording expression { state } with
  | error interruption after =>
      rw [hrun] at h
      contradiction
  | ok value after =>
      rw [hrun] at h haudited hreplayed
      cases h
      obtain ⟨rolls, hlength, haccount⟩ := haudited
      obtain ⟨made, hmade, hother⟩ := hreplayed
      have hfaces := haccount.balanced.2.faces_eq
      have hvalues : made.map Draw.value = after.faces := by
        rw [← hfaces, hmade]
        rfl
      have hsize : after.source.draws.size = after.faces.length := by
        rw [← Array.length_toList, ← hfaces, List.length_map]
      have hscripted : evaluator.run Generator.source.recording expression
          { state := .ofScript after.faces } = .ok total (after.scripted []) := by
        have hall := hother []
        rw [List.append_nil, hvalues] at hall
        exact hall
      have hrecording := evaluator.run_recording Generator.source expression
        { state := .ofScript after.faces }
      rw [hscripted] at hrecording
      rw [Progress.faces_mapSource, ← hsize]
      exact hrecording

/-- An evaluation with a script draws no more than there is. -/
theorem length_drawn_runScript_le (values : List Int) :
    (Step.drawn (evaluator.runScript expression values)).length ≤ values.length := by
  have hleaves := evaluator.runScript_leaves expression values
  have hreads {recorded : Recorded Generator} (h : recorded.Reads values) :
      recorded.draws.toList.length ≤ values.length := by
    obtain ⟨left, _, hvalues⟩ := h
    rw [← hvalues, List.length_append, List.length_map]
    omega
  cases hrun : evaluator.runScript expression values with
  | ok total progress =>
      rw [hrun] at hleaves
      exact hreads hleaves
  | error interruption progress =>
      rw [hrun] at hleaves
      cases interruption with
      | evaluation | untold => exact hreads hleaves
      | source error =>
          show progress.source.draws.toList.length ≤ values.length
          have hlength := congrArg List.length hleaves.drawn_eq
          rw [List.length_map] at hlength
          omega

/-- Unless it was used up, what lies behind a script makes no difference. -/
theorem runScript_append_of_finished (values more : List Int)
    (hfinished : ∀ error progress,
      evaluator.runScript expression values ≠ .error (.source error) progress) :
    Step.mapSource Recorded.draws (evaluator.runScript expression (values ++ more)) =
      Step.mapSource Recorded.draws (evaluator.runScript expression values) := by
  have hreplayed := (evaluator.evaluate_replays Generator.source expression).replayed
    { source := { state := .ofScript values } }
  have hleaves := evaluator.runScript_leaves expression values
  rw [← run, ← runScript] at hreplayed
  -- What the evaluation has left of the script is followed by what lies behind.
  have hsplit {made : List Draw} {progress : Progress (Recorded Generator)}
      (hmade : progress.source.draws.toList = [] ++ made)
      (hreads : progress.source.Reads values) :
      ∃ left, values ++ more = made.map Draw.value ++ left := by
    obtain ⟨left, _, hvalues⟩ := hreads
    rw [hmade] at hvalues
    exact ⟨left ++ more, by rw [← hvalues, List.nil_append, List.append_assoc]⟩
  cases hrun : evaluator.runScript expression values with
  | ok total progress =>
      rw [hrun] at hreplayed hleaves
      obtain ⟨made, hmade, hother⟩ := hreplayed
      obtain ⟨left, hvalues⟩ := hsplit hmade hleaves
      have hlonger : evaluator.runScript expression (made.map Draw.value ++ left) =
          .ok total (progress.scripted left) := hother left
      rw [hvalues, hlonger]
      rfl
  | error interruption progress =>
      rw [hrun] at hreplayed hleaves
      cases hreplayed with
      | starved => exact absurd hrun (hfinished _ progress)
      | failed made hmade hother hown =>
          obtain ⟨left, hvalues⟩ := hsplit hmade ((leaves_error_iff hown).1 hleaves)
          have hlonger : evaluator.runScript expression (made.map Draw.value ++ left) =
              .error interruption (progress.scripted left) := hother left
          rw [hvalues, hlonger]
          rfl

/-- If it was used up, all of it was drawn, and the next value behind it is drawn too. -/
theorem runScript_of_starved {values : List Int} {error : SourceError}
    {progress : Progress (Recorded Generator)}
    (hstarved : evaluator.runScript expression values = .error (.source error) progress) :
    error = .exhausted values.length ∧ progress.source.draws.toList.map Draw.value = values ∧
      ∀ value left, ∃ low high, progress.source.draws.toList ++ [⟨low, high, value⟩] <+:
        Step.drawn (evaluator.runScript expression (values ++ value :: left)) := by
  have hreplayed := (evaluator.evaluate_replays Generator.source expression).replayed
    { source := { state := .ofScript values } }
  have hleaves := evaluator.runScript_leaves expression values
  rw [← run, ← runScript] at hreplayed
  rw [hstarved] at hreplayed hleaves
  cases hreplayed with
  | failed made hmade hother hown => exact hown.elim
  | starved made hmade hother hmore =>
      have hvalues : made.map Draw.value = values := by
        rw [← hleaves.drawn_eq, hmade]
        rfl
      refine ⟨hleaves.error_eq, hleaves.drawn_eq, fun value left ↦ ?_⟩
      obtain ⟨low, high, hdrawn⟩ := hmore value left
      rw [hvalues] at hdrawn
      exact ⟨low, high, hdrawn⟩

/-- A script is used up just when all of it is drawn and more would be, if there were more. -/
theorem runScript_starves_iff (values : List Int) :
    (∃ error progress,
        evaluator.runScript expression values = .error (.source error) progress) ↔
      (Step.drawn (evaluator.runScript expression values)).length = values.length ∧
        ∀ value,
          (Step.drawn (evaluator.runScript expression (values ++ [value]))).length =
            values.length + 1 := by
  constructor
  · rintro ⟨error, progress, hstarved⟩
    obtain ⟨_, hdrawn, hmore⟩ := evaluator.runScript_of_starved expression hstarved
    have hlength : progress.source.draws.toList.length = values.length := by
      rw [← hdrawn, List.length_map]
    refine ⟨by rw [hstarved]; exact hlength, fun value ↦ ?_⟩
    have hle := evaluator.length_drawn_runScript_le expression (values ++ [value])
    obtain ⟨low, high, hprefix⟩ := hmore value []
    have hge := hprefix.length_le
    rw [List.length_append, List.length_singleton] at hle hge
    omega
  · rintro ⟨hall, hmore⟩
    by_cases hstarved : ∃ error progress,
        evaluator.runScript expression values = .error (.source error) progress
    · exact hstarved
    · have hsame := evaluator.runScript_append_of_finished expression values [0]
        fun error progress h ↦ hstarved ⟨error, progress, h⟩
      have hlength := hmore 0
      rw [Step.drawn_eq_of_mapSource_eq hsame, hall] at hlength
      omega

/-- Any evaluation can be replayed from its rolls, and a script is read only as far as needed. What
an evaluation with any source has come to, one with a script of what its dice showed comes to too,
and uses the script up to its end. Where an evaluation with a script comes to a result or to an
error of its own, it comes to the same, with the same draws, whatever lies behind the script. Where
it fails for want of a value, all the values were drawn, and they are the first to be drawn whatever
lies behind them; this is so just when all were drawn and one more would be. -/
theorem run_replays :
    (∀ {σ : Type} (source : Source σ) (state : σ) (total : Int) (progress : Progress σ),
      evaluator.run source expression state = .ok total progress →
      evaluator.run Generator.source expression (.ofScript progress.faces) =
        .ok total (progress.mapSource fun _ ↦ .scripted [] progress.faces.length)) ∧
    (∀ values more : List Int,
      match evaluator.runScript expression values with
      | .error (.source error) progress =>
          error = .exhausted values.length ∧
            progress.source.draws.toList.map Draw.value = values ∧
            progress.source.draws.toList <+:
              Step.drawn (evaluator.runScript expression (values ++ more))
      | result =>
          Step.mapSource Recorded.draws (evaluator.runScript expression (values ++ more)) =
            Step.mapSource Recorded.draws result) ∧
    ∀ values : List Int,
      (∃ error progress,
          evaluator.runScript expression values = .error (.source error) progress) ↔
        (Step.drawn (evaluator.runScript expression values)).length = values.length ∧
          ∀ value,
            (Step.drawn (evaluator.runScript expression (values ++ [value]))).length =
              values.length + 1 := by
  refine ⟨fun _ _ _ _ h ↦ evaluator.run_ofScript_faces expression h, fun values more ↦ ?_,
    evaluator.runScript_starves_iff expression⟩
  split
  · rename_i error progress hstarved
    obtain ⟨herror, hdrawn, hmore⟩ := evaluator.runScript_of_starved expression hstarved
    refine ⟨herror, hdrawn, ?_⟩
    cases more with
    | nil =>
        rw [List.append_nil, hstarved]
        exact List.prefix_refl _
    | cons value left =>
        obtain ⟨low, high, hprefix⟩ := hmore value left
        exact (List.prefix_append _ _).trans hprefix
  · rename_i hfinished
    exact evaluator.runScript_append_of_finished expression values more hfinished

/-- Two dice of six sides are replayed from what they showed. -/
theorem run_replays_dice :
    let dice : Expression :=
      .sum (.ofTerm (.ofFactor (.ofValue (.number 2)))) .roll (.ofFactor (.ofValue (.number 6)))
    let rolls := #[⟨2, 6, [4, 4], 8⟩]
    let trace := #[.rolling 2 6, .face 6 4, .face 6 4]
    run ⟨.empty, {}⟩ Generator.source dice (.fixed 4) = .ok 8 ⟨.fixed 4, rolls, trace⟩ ∧
      run ⟨.empty, {}⟩ Generator.source dice (.ofScript [4, 4]) =
        .ok 8 ⟨.scripted [] 2, rolls, trace⟩ := by
  intro dice rolls trace
  have hrun : run ⟨.empty, {}⟩ Generator.source dice (.fixed 4) =
      .ok 8 ⟨.fixed 4, rolls, trace⟩ := by
    have hnarrow : narrow 8 = .ok 8 := narrow_of_natAbs_lt (show 4 ≤ maxBits by decide) (by decide)
    simp only [run, dice, evaluate, apply, combine, Step.bind_apply, Step.pure_apply]
    show Step.ofExcept (narrow 8) _ = _
    rw [hnarrow]
    rfl
  have hfaces : Progress.faces ⟨Generator.fixed 4, rolls, trace⟩ = [4, 4] := rfl
  have hreplay := (run_replays ⟨.empty, {}⟩ dice).1 Generator.source (.fixed 4) 8 _ hrun
  rw [hfaces] at hreplay
  exact ⟨hrun, hreplay⟩

end Evaluator

end DiceArithmetic
