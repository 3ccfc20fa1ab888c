import DiceArithmetic.Proofs.Evaluation.Composition

/-!
# What an evaluation has to show for its draws

Every draw that an evaluation makes belongs to a roll: to one that it has completed and recorded, or
to the one in which its source failed. The lines of the trace follow the same rolls. `Audited` says
this of an evaluation from any progress on, and how many rolls there can be in each of the three
ways in which it can end; `Progress.Balanced` says it of an evaluation as a whole. Draws are seen by
recording them, which does not change the way that an evaluation goes.
-/

namespace DiceArithmetic

namespace DiceRoll

/-- The draws made for a roll, one for each die thrown. -/
def draws (roll : DiceRoll) : List Draw :=
  roll.faces.map fun face ↦ ⟨1, roll.sides, face⟩

theorem map_value_draws (roll : DiceRoll) : roll.draws.map Draw.value = roll.faces := by
  rw [draws, List.map_map]
  exact List.map_id _

/-- What a roll adds to the trace. -/
def events (roll : DiceRoll) : List TraceEvent :=
  .rolling roll.count roll.sides :: roll.faces.map (.face roll.sides)

/-- The lines that a roll prints: what is rolled, and what each die thrown shows. -/
def lines (roll : DiceRoll) : List String :=
  s!"Rolling {roll.count}d{roll.sides}" :: roll.faces.map fun face ↦ s!"  d{roll.sides}: {face}"

theorem map_line_events (roll : DiceRoll) : roll.events.map TraceEvent.line = roll.lines := by
  rw [events, lines, List.map_cons, List.map_map]
  rfl

/-- All the dice of an allowed roll were thrown, and they are added up. -/
structure Complete (limits : Limits) (roll : DiceRoll) : Prop where
  allowed : limits.Allow roll.count roll.sides
  length_eq : roll.faces.length = roll.count
  subtotal_eq : roll.subtotal = roll.faces.sum

/-- Some dice of an allowed roll were not thrown. -/
structure Cut (limits : Limits) (roll : DiceRoll) : Prop where
  allowed : limits.Allow roll.count roll.sides
  length_lt : roll.faces.length < roll.count

end DiceRoll

variable {σ : Type}

/-- The progress has grown by these rolls, draws and entries of the trace. -/
structure Progress.Grows (rolls : List DiceRoll) (draws : List Draw) (events : List TraceEvent)
    (before after : Progress (Recorded σ)) : Prop where
  rolls_eq : after.rolls.toList = before.rolls.toList ++ rolls
  draws_eq : after.source.draws.toList = before.source.draws.toList ++ draws
  trace_eq : after.trace.toList = before.trace.toList ++ events

namespace Progress.Grows

variable {rolls otherRolls : List DiceRoll} {draws otherDraws : List Draw}
  {events otherEvents : List TraceEvent} {before middle after : Progress (Recorded σ)}

theorem refl (progress : Progress (Recorded σ)) : Grows [] [] [] progress progress :=
  ⟨(List.append_nil _).symm, (List.append_nil _).symm, (List.append_nil _).symm⟩

theorem trans (hfirst : Grows rolls draws events before middle)
    (hnext : Grows otherRolls otherDraws otherEvents middle after) :
    Grows (rolls ++ otherRolls) (draws ++ otherDraws) (events ++ otherEvents) before after where
  rolls_eq := by rw [hnext.rolls_eq, hfirst.rolls_eq, List.append_assoc]
  draws_eq := by rw [hnext.draws_eq, hfirst.draws_eq, List.append_assoc]
  trace_eq := by rw [hnext.trace_eq, hfirst.trace_eq, List.append_assoc]

end Progress.Grows

open Progress (Grows)

namespace Step

/-- A note grows the trace only. -/
theorem note_grows (event : TraceEvent) (before : Progress (Recorded σ)) :
    Grows [] [] [event] before { before with trace := before.trace.push event } :=
  ⟨by simp, by simp, by simp⟩

/-- A record grows the rolls only. -/
theorem record_grows (roll : DiceRoll) (before : Progress (Recorded σ)) :
    Grows [roll] [] [] before { before with rolls := before.rolls.push roll } :=
  ⟨by simp, by simp, by simp⟩

/-- A draw is remembered when it succeeds, and only the source can stop it. -/
theorem draw_grows (source : Source σ) (low high : Int) (before : Progress (Recorded σ)) :
    match draw source.recording low high before with
    | .ok value after => Grows [] [⟨low, high, value⟩] [] before after
    | .error interruption after =>
        (∃ error, interruption = .source error) ∧ Grows [] [] [] before after := by
  unfold draw Source.recording
  dsimp only
  cases source.draw low high before.source.state with
  | ok value state => exact ⟨by simp, by simp, by simp⟩
  | error error state => exact ⟨⟨error, rfl⟩, by simp, by simp, by simp⟩

/-- As many dice are thrown as are wanted, or fewer if the source fails. -/
theorem throwDice_grows (source : Source σ) (sides : Int) (count : Nat) (thrown : Array Int)
    (before : Progress (Recorded σ)) :
    match throwDice source.recording sides count thrown before with
    | .ok all after =>
        ∃ faces : List Int, faces.length = count ∧ all.toList = thrown.toList ++ faces ∧
          Grows [] (faces.map (⟨1, sides, ·⟩)) (faces.map (.face sides)) before after
    | .error interruption after =>
        (∃ error, interruption = .source error) ∧
          ∃ faces : List Int, faces.length < count ∧
            Grows [] (faces.map (⟨1, sides, ·⟩)) (faces.map (.face sides)) before after := by
  induction count generalizing thrown before with
  | zero => exact ⟨[], rfl, (List.append_nil _).symm, .refl before⟩
  | succ count ih =>
      rw [throwDice, bind_apply]
      have hdraw := draw_grows source 1 sides before
      cases hfirst : draw source.recording 1 sides before with
      | error interruption after =>
          rw [hfirst] at hdraw
          exact ⟨hdraw.1, [], Nat.zero_lt_succ count, hdraw.2⟩
      | ok face drawn =>
          rw [hfirst] at hdraw
          dsimp only
          rw [bind_apply, note_apply]
          dsimp only
          have hfaced := hdraw.trans (note_grows (.face sides face) drawn)
          have hrest := ih (thrown.push face)
            { drawn with trace := drawn.trace.push (.face sides face) }
          split at hrest
          · rename_i all after hall
            obtain ⟨faces, hlength, heq, hgrows⟩ := hrest
            rw [hall]
            refine ⟨face :: faces, by rw [List.length_cons, hlength], ?_, hfaced.trans hgrows⟩
            rw [heq, Array.toList_push, List.append_assoc, List.singleton_append]
          · rename_i interruption after hstop
            obtain ⟨hsource, faces, hlength, hgrows⟩ := hrest
            rw [hstop]
            refine ⟨hsource, face :: faces, ?_, hfaced.trans hgrows⟩
            rw [List.length_cons]
            omega

end Step

/-- These rolls, all but the last of which are known to be complete, are what the progress has grown
by, down to each draw and each entry of the trace. -/
structure Account (limits : Limits) (rolls cut : List DiceRoll)
    (before after : Progress (Recorded σ)) : Prop where
  complete : ∀ roll ∈ rolls, roll.Complete limits
  grows : Grows rolls ((rolls ++ cut).flatMap DiceRoll.draws)
    ((rolls ++ cut).flatMap DiceRoll.events) before after

/-- What an evaluation may have come to after a certain progress if it can make so many rolls. One
that finishes has made them all; one that fails has made no part of a roll; one that is cut short by
its source has made a part of one roll. -/
inductive Audited (limits : Limits) (count : Nat) (before : Progress (Recorded σ)) :
    EStateM.Result Interruption (Progress (Recorded σ)) Int → Prop where
  | finished {value after} (rolls : List DiceRoll) :
      rolls.length = count → Account limits rolls [] before after →
      Audited limits count before (.ok value after)
  | failed {interruption after} (rolls : List DiceRoll) : interruption.IsOwn →
      rolls.length ≤ count → Account limits rolls [] before after →
      Audited limits count before (.error interruption after)
  | cut {error after} (rolls : List DiceRoll) (cut : DiceRoll) :
      rolls.length < count → cut.Cut limits → Account limits rolls [cut] before after →
      Audited limits count before (.error (.source error) after)

namespace Account

variable {limits : Limits} {rolls otherRolls cut : List DiceRoll}
  {before middle after : Progress (Recorded σ)}

/-- Nothing has happened. -/
theorem refl (progress : Progress (Recorded σ)) : Account limits [] [] progress progress where
  complete := fun _ hroll ↦ absurd hroll List.not_mem_nil
  grows := .refl progress

/-- Complete rolls, and whatever came after them. -/
theorem trans (hfirst : Account limits rolls [] before middle)
    (hnext : Account limits otherRolls cut middle after) :
    Account limits (rolls ++ otherRolls) cut before after where
  complete := by
    intro roll hroll
    rcases List.mem_append.mp hroll with hroll | hroll
    · exact hfirst.complete roll hroll
    · exact hnext.complete roll hroll
  grows := by
    have hgrows := hfirst.grows.trans hnext.grows
    rwa [List.append_nil, ← List.flatMap_append, ← List.flatMap_append, ← List.append_assoc]
      at hgrows

end Account

/-- A roll can be accounted for. -/
theorem Step.roll_audited (source : Source σ) (limits : Limits) (count sides : Int)
    (before : Progress (Recorded σ)) :
    Audited limits 1 before (roll source.recording limits count sides before) := by
  unfold roll
  cases hobjection : limits.objection? count sides with
  | some fault =>
      have hown := (EvaluationError.invalidDice fault).isOwn_raised
      exact .failed [] hown (Nat.zero_le 1) (.refl before)
  | none =>
      have hallow := Limits.objection?_eq_none_iff.mp hobjection
      have hcount : (count.toNat : Int) = count := Int.toNat_of_nonneg hallow.count_nonneg
      dsimp only
      rw [bind_apply, note_apply]
      dsimp only
      rw [bind_apply]
      have hnoted := note_grows (.rolling count sides) before
      have hthrown := throwDice_grows source sides count.toNat #[]
        { before with trace := before.trace.push (.rolling count sides) }
      split at hthrown
      -- All dice were thrown, and the roll is recorded.
      · rename_i all after hall
        obtain ⟨faces, hlength, heq, hgrows⟩ := hthrown
        rw [hall]
        dsimp only
        rw [bind_apply, record_apply]
        dsimp only
        rw [pure_apply, heq]
        have hrecorded :=
          (hnoted.trans hgrows).trans (record_grows ⟨count, sides, faces, faces.sum⟩ after)
        refine .finished [⟨count, sides, faces, faces.sum⟩] rfl ⟨?_, ?_⟩
        · intro roll hroll
          rw [List.mem_singleton.mp hroll]
          exact ⟨hallow, by rw [hlength, hcount], rfl⟩
        · simpa [DiceRoll.draws, DiceRoll.events] using hrecorded
      -- The source failed before all dice were thrown, and nothing is recorded.
      · rename_i interruption after hstop
        obtain ⟨⟨error, rfl⟩, faces, hlength, hgrows⟩ := hthrown
        rw [hstop]
        have hcut := hnoted.trans hgrows
        refine .cut [] ⟨count, sides, faces, faces.sum⟩ Nat.zero_lt_one ⟨hallow, ?_⟩ ⟨?_, ?_⟩
        · show (faces.length : Int) < count
          omega
        · exact fun _ hroll ↦ absurd hroll List.not_mem_nil
        · simpa [DiceRoll.draws, DiceRoll.events] using hcut

/-- One evaluation after another can be accounted for if both can. -/
theorem Audited.bind {limits : Limits} {count otherCount : Nat} {first : Step (Recorded σ) Int}
    {next : Int → Step (Recorded σ) Int} {before : Progress (Recorded σ)}
    (hfirst : Audited limits count before (first before))
    (hnext : ∀ value middle, Audited limits otherCount middle (next value middle)) :
    Audited limits (count + otherCount) before ((first >>= next) before) := by
  rw [Step.bind_apply]
  cases hresult : first before with
  | error interruption after =>
      rw [hresult] at hfirst
      cases hfirst with
      | failed rolls hown hlength haccount => exact .failed rolls hown (by omega) haccount
      | cut rolls cut hlength hcut haccount => exact .cut rolls cut (by omega) hcut haccount
  | ok value middle =>
      rw [hresult] at hfirst
      obtain ⟨rolls, hlength, haccount⟩ := hfirst
      dsimp only
      have hrest := hnext value middle
      cases hfinal : next value middle with
      | ok value after =>
          rw [hfinal] at hrest
          obtain ⟨rest, hrestLength, hrestAccount⟩ := hrest
          refine .finished (rolls ++ rest) ?_ (haccount.trans hrestAccount)
          rw [List.length_append, hlength, hrestLength]
      | error interruption after =>
          rw [hfinal] at hrest
          cases hrest with
          | failed rest hown hrestLength hrestAccount =>
              refine .failed (rolls ++ rest) hown ?_ (haccount.trans hrestAccount)
              rw [List.length_append]
              omega
          | cut rest cut hrestLength hcut hrestAccount =>
              refine .cut (rolls ++ rest) cut ?_ hcut (haccount.trans hrestAccount)
              rw [List.length_append]
              omega

/-- Being accountable respects how evaluations are put together. -/
theorem respectsRolls_audited (limits : Limits) (source : Source σ) :
    RespectsRolls limits limits source.recording source.recording fun count step _ ↦
      ∀ before, Audited limits count before (step before) where
  ofExcept := by
    intro result before
    cases result with
    | ok value => exact .finished [] rfl (.refl before)
    | error error => exact .failed [] error.isOwn_raised (Nat.le_refl 0) (.refl before)
  roll := fun count sides before ↦ Step.roll_audited source limits count sides before
  bind := fun hfirst hnext before ↦ (hfirst before).bind hnext

/-- The rolls of an evaluation are complete, and together with what may have been cut short they are
all that was drawn from the given state of the source on, and all that was printed, in order. -/
structure Progress.Balanced (limits : Limits) (cut : List DiceRoll) (state : Recorded σ)
    (progress : Progress (Recorded σ)) : Prop where
  complete : ∀ roll ∈ progress.rolls, roll.Complete limits
  draws_eq : progress.source.draws.toList =
    state.draws.toList ++ (progress.rolls.toList ++ cut).flatMap DiceRoll.draws
  lines_eq : progress.trace.toList.map TraceEvent.line =
    (progress.rolls.toList ++ cut).flatMap DiceRoll.lines

/-- An account that starts from nothing balances, and its rolls are those recorded. -/
theorem Account.balanced {limits : Limits} {rolls cut : List DiceRoll} {state : Recorded σ}
    {after : Progress (Recorded σ)} (h : Account limits rolls cut { source := state } after) :
    rolls.length = after.rolls.size ∧ after.Balanced limits cut state := by
  have hrolls : after.rolls.toList = rolls := h.grows.rolls_eq
  have htrace : after.trace.toList = (rolls ++ cut).flatMap DiceRoll.events := h.grows.trace_eq
  refine ⟨by rw [← hrolls, Array.length_toList], ?_, ?_, ?_⟩
  · intro roll hroll
    refine h.complete roll ?_
    rw [← hrolls]
    exact hroll.val
  · rw [hrolls]
    exact h.grows.draws_eq
  · rw [htrace, hrolls, List.map_flatMap]
    simp only [DiceRoll.map_line_events]

/-- Every evaluation can be accounted for, whatever its source. -/
theorem Evaluator.run_audited (evaluator : Evaluator) (source : Source σ)
    (expression : Expression) (state : Recorded σ) :
    Audited evaluator.limits expression.rollCount { source := state }
      (evaluator.run source.recording expression state) :=
  evaluate_related (respectsRolls_audited evaluator.limits source) rfl expression
    { source := state }

/-- Every evaluation balances, whatever its source. One that succeeds has made one roll for each
roll operator of the tree; one that fails of itself, with an error that can be told or not, has made
at most as many, and no part of a roll; one whose source fails has made fewer, and then a part of
one. -/
theorem Evaluator.run_balanced (evaluator : Evaluator) (source : Source σ)
    (expression : Expression) (state : Recorded σ) :
    match evaluator.run source.recording expression state with
    | .ok _ progress =>
        progress.rolls.size = expression.rollCount ∧
          progress.Balanced evaluator.limits [] state
    | .error (.evaluation _) progress | .error (.untold _) progress =>
        progress.rolls.size ≤ expression.rollCount ∧
          progress.Balanced evaluator.limits [] state
    | .error (.source _) progress =>
        progress.rolls.size < expression.rollCount ∧
          ∃ cut, cut.Cut evaluator.limits ∧ progress.Balanced evaluator.limits [cut] state := by
  have haudited := evaluator.run_audited source expression state
  cases hrun : evaluator.run source.recording expression state with
  | ok total progress =>
      rw [hrun] at haudited
      obtain ⟨rolls, hlength, haccount⟩ := haudited
      obtain ⟨hsize, hbalanced⟩ := haccount.balanced
      exact ⟨by omega, hbalanced⟩
  | error interruption progress =>
      rw [hrun] at haudited
      cases haudited with
      | failed rolls hown hlength haccount =>
          obtain ⟨hsize, hbalanced⟩ := haccount.balanced
          cases interruption with
          | evaluation | untold => exact ⟨by omega, hbalanced⟩
          | source => exact hown.elim
      | cut rolls cut hlength hcut haccount =>
          obtain ⟨hsize, hbalanced⟩ := haccount.balanced
          exact ⟨by omega, cut, hcut, hbalanced⟩

end DiceArithmetic
