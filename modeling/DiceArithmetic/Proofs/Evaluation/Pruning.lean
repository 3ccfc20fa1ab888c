import DiceArithmetic.Proofs.Evaluation.Replay
import DiceArithmetic.Proofs.Evaluation.Telling

/-!
# What limits do to an evaluation

Limits only cut evaluations short. Under wider limits an evaluation goes the same way, up to the
roll that exceeds the tighter ones; see `Pruned` and `Evaluator.evaluate_pruned`. So an evaluation
succeeds under limits just when it succeeds without them and keeps to them of itself, and a limit on
the dice of a roll bounds the draws of a whole evaluation; see `Audited.length_drawn_le`. Whether it
can be told that a limit is exceeded makes no difference to any of this.
-/

namespace DiceArithmetic

open Text

/-- The others do not bound, or bound no tighter than these limits do. -/
structure Limits.Within (limits others : Limits) : Prop where
  dice : ∀ bound ∈ others.maxDice, ∃ tighter ∈ limits.maxDice, tighter ≤ bound
  sides : ∀ bound ∈ others.maxSides, ∃ tighter ∈ limits.maxSides, tighter ≤ bound

/-- What is wrong with the roll is that it exceeds a limit. -/
def DiceFault.IsExcess : DiceFault → Prop
  | .tooManyDice .. | .tooManySides .. => True
  | .negativeCount _ | .noSides _ => False

/-- An evaluation has stopped at a roll that exceeds a limit, whether that could be told or not. -/
def Interruption.IsExcess : Interruption → Prop
  | .evaluation (.invalidDice fault) | .untold (.invalidDice fault) => fault.IsExcess
  | _ => False

theorem DiceFault.IsExcess.raised {fault : DiceFault} (h : fault.IsExcess) :
    (EvaluationError.invalidDice fault).raised.IsExcess := by
  unfold EvaluationError.raised
  split <;> exact h

namespace Limits

variable {limits wider : Limits} {count sides : Int}

/-- All limits lie within none. -/
theorem within_none (limits : Limits) : limits.Within {} :=
  ⟨nofun, nofun⟩

/-- What limits allow, wider ones allow too. -/
theorem Allow.mono (h : limits.Allow count sides) (hwithin : limits.Within wider) :
    wider.Allow count sides where
  count_nonneg := h.count_nonneg
  one_le_sides := h.one_le_sides
  count_le := by
    intro bound hbound
    obtain ⟨tighter, htighter, hle⟩ := hwithin.dice bound hbound
    exact Int.le_trans (h.count_le tighter htighter) hle
  sides_le := by
    intro bound hbound
    obtain ⟨tighter, htighter, hle⟩ := hwithin.sides bound hbound
    exact Int.le_trans (h.sides_le tighter htighter) hle

/-- An objection to other things than an excess does not depend on the limits. -/
theorem objection?_of_not_isExcess {fault : DiceFault}
    (h : limits.objection? count sides = some fault) (hfault : ¬ fault.IsExcess) (other : Limits) :
    other.objection? count sides = some fault := by
  unfold objection? at h ⊢
  split at h
  next hcount =>
      rw [if_pos hcount]
      exact h
  next hcount =>
      rw [if_neg hcount]
      split at h
      next hsides =>
          rw [if_pos hsides]
          exact h
      next =>
          split at h
          · cases h
            exact absurd trivial hfault
          · cases h
            exact absurd trivial hfault
          · cases h

end Limits

variable {σ : Type} {limits wider : Limits} {count : Nat}

/-- A roll is recorded with the dice and sides that were asked for. -/
theorem Step.exists_mem_rolls_of_roll_eq_ok {source : Source σ} {count sides value : Int}
    {before after : Progress σ} (h : roll source limits count sides before = .ok value after) :
    ∃ roll ∈ after.rolls, roll.count = count ∧ roll.sides = sides := by
  unfold roll at h
  cases hobjection : limits.objection? count sides with
  | some fault =>
      rw [hobjection] at h
      cases h
  | none =>
      rw [hobjection] at h
      obtain ⟨_, _, -, h⟩ := bind_eq_ok_iff.1 h
      obtain ⟨thrown, middle, -, h⟩ := bind_eq_ok_iff.1 h
      cases h
      exact ⟨_, Array.mem_push_self, rfl, rfl⟩

namespace Audited

variable {before after : Progress (Recorded σ)}
  {result : EStateM.Result Interruption (Progress (Recorded σ)) Int}

/-- What was drawn before an evaluation was drawn by its end. -/
theorem isPrefix_drawn (h : Audited limits count before result) :
    before.source.draws.toList <+: Step.drawn result := by
  cases h with
  | finished rolls _ haccount | failed rolls _ _ haccount | cut rolls cut _ _ haccount =>
      rw [Step.drawn, haccount.grows.draws_eq]
      exact List.prefix_append _ _

/-- The rolls made before an evaluation that finishes are still there. -/
theorem mem_rolls {value : Int} (h : Audited limits count before (.ok value after))
    {roll : DiceRoll} (hroll : roll ∈ before.rolls) : roll ∈ after.rolls := by
  obtain ⟨rolls, -, haccount⟩ := h
  rw [← Array.mem_toList_iff, haccount.grows.rolls_eq]
  exact List.mem_append_left _ (Array.mem_toList_iff.2 hroll)

/-- Rolls with at most so many draws each have at most so many for each of them. -/
theorem length_draws_le {bound : Nat} {rolls : List DiceRoll}
    (h : ∀ roll ∈ rolls, roll.faces.length ≤ bound) :
    (rolls.flatMap DiceRoll.draws).length ≤ bound * rolls.length := by
  induction rolls with
  | nil => exact Nat.zero_le _
  | cons roll rolls ih =>
      rw [List.forall_mem_cons] at h
      have hfirst : roll.draws.length = roll.faces.length := List.length_map _
      have hrest := ih h.2
      rw [List.flatMap_cons, List.length_append, List.length_cons, Nat.mul_succ, hfirst]
      omega

/-- An evaluation makes, for each roll that it can make, no more draws than the dice allowed. -/
theorem length_drawn_le {bound : Int} (hbound : bound ∈ limits.maxDice)
    (h : Audited limits count before result) :
    (Step.drawn result).length ≤ before.source.draws.size + bound.toNat * count := by
  have hcomplete {roll : DiceRoll} (h : roll.Complete limits) :
      roll.faces.length ≤ bound.toNat := by
    have hlength := h.length_eq
    have hle := h.allowed.count_le bound hbound
    omega
  have hcut {roll : DiceRoll} (h : roll.Cut limits) : roll.faces.length ≤ bound.toNat := by
    have hlength := h.length_lt
    have hle := h.allowed.count_le bound hbound
    omega
  have hdraws {rolls cut : List DiceRoll} {after : Progress (Recorded σ)}
      (haccount : Account limits rolls cut before after) (hcuts : ∀ roll ∈ cut, roll.Cut limits)
      (hlength : (rolls ++ cut).length ≤ count) :
      after.source.draws.toList.length ≤ before.source.draws.size + bound.toNat * count := by
    have hall : ∀ roll ∈ rolls ++ cut, roll.faces.length ≤ bound.toNat := by
      intro roll hroll
      rcases List.mem_append.1 hroll with hroll | hroll
      · exact hcomplete (haccount.complete roll hroll)
      · exact hcut (hcuts roll hroll)
    rw [haccount.grows.draws_eq, List.length_append, Array.length_toList]
    have hle := Nat.le_trans (length_draws_le hall) (Nat.mul_le_mul_left bound.toNat hlength)
    omega
  cases h with
  | finished rolls hlength haccount =>
      exact hdraws haccount nofun (by rw [List.append_nil]; omega)
  | failed rolls _ hlength haccount =>
      exact hdraws haccount nofun (by rw [List.append_nil]; omega)
  | cut rolls cut hlength hcut haccount =>
      refine hdraws haccount (List.forall_mem_singleton.2 hcut) ?_
      rw [List.length_append, List.length_singleton]
      omega

end Audited

/-- What a step comes to under limits, beside what it comes to under wider ones: the same, unless
the limits are exceeded. Then all that was drawn until that is drawn under the wider limits first,
where nothing can succeed but with a roll that exceeds the limits. -/
inductive Pruned (limits : Limits) :
    (result other : EStateM.Result Interruption (Progress (Recorded σ)) Int) → Prop where
  | same (result) : Pruned limits result result
  | excess {interruption after other} : interruption.IsExcess →
      after.source.draws.toList <+: Step.drawn other →
      (∀ value final, other = .ok value final →
        ∃ roll ∈ final.rolls, ¬ limits.Allow roll.count roll.sides) →
      Pruned limits (.error interruption after) other

/-- Rolls under wider limits go the same way unless the limits are exceeded. -/
theorem Step.roll_pruned (h : limits.Within wider) (source : Source σ) (count sides : Int)
    (before : Progress (Recorded σ)) :
    Pruned limits (roll source.recording limits count sides before)
      (roll source.recording wider count sides before) := by
  cases hobjection : limits.objection? count sides with
  | none =>
      have hallow := Limits.objection?_eq_none_iff.1 hobjection
      have hwider := Limits.objection?_eq_none_iff.2 (hallow.mono h)
      have hsame : roll source.recording limits count sides =
          roll source.recording wider count sides := by
        rw [roll, roll, hobjection, hwider]
      rw [hsame]
      exact .same _
  | some fault =>
      rw [roll_of_objection hobjection]
      by_cases hexcess : fault.IsExcess
      · refine .excess hexcess.raised (roll_audited source wider count sides before).isPrefix_drawn
          ?_
        intro value final hrolled
        obtain ⟨roll, hroll, rfl, rfl⟩ := exists_mem_rolls_of_roll_eq_ok hrolled
        refine ⟨roll, hroll, fun hallow ↦ ?_⟩
        rw [Limits.objection?_eq_none_iff.2 hallow] at hobjection
        cases hobjection
      · have hwider := Limits.objection?_of_not_isExcess hobjection hexcess wider
        rw [roll_of_objection hwider]
        exact .same _

/-- A step after another goes the same way under wider limits if both do, unless the limits are
exceeded. -/
theorem Pruned.bind {first otherFirst : Step (Recorded σ) Int}
    {next otherNext : Int → Step (Recorded σ) Int} {before : Progress (Recorded σ)}
    (hfirst : Pruned limits (first before) (otherFirst before))
    (hnext : ∀ value middle, Pruned limits (next value middle) (otherNext value middle))
    (haudited : ∀ value middle, Audited wider count middle (otherNext value middle)) :
    Pruned limits ((first >>= next) before) ((otherFirst >>= otherNext) before) := by
  rw [Step.bind_apply, Step.bind_apply]
  generalize first before = result at hfirst ⊢
  generalize otherFirst before = other at hfirst ⊢
  cases hfirst with
  | same =>
      cases result with
      | ok value middle => exact hnext value middle
      | error interruption after => exact .same _
  | excess hexcess hdrawn hroll =>
      cases other with
      | error interruption after => exact .excess hexcess hdrawn nofun
      | ok value middle =>
          -- Where the wider limits let the evaluation go on, it only adds draws and rolls.
          refine .excess hexcess (hdrawn.trans (haudited value middle).isPrefix_drawn) ?_
          intro total final hfinal
          obtain ⟨roll, hmem, hdenied⟩ := hroll value middle rfl
          have hkept := haudited value middle
          dsimp only at hfinal
          rw [hfinal] at hkept
          exact ⟨roll, hkept.mem_rolls hmem, hdenied⟩

/-- Being cut short respects how evaluations are put together. -/
theorem respectsRolls_pruned (h : limits.Within wider) (source : Source σ) :
    RespectsRolls limits wider source.recording source.recording fun count step other ↦
      (∀ before, Pruned limits (step before) (other before)) ∧
        ∀ before, Audited wider count before (other before) where
  ofExcept := fun result ↦
    ⟨fun _ ↦ .same _, (respectsRolls_audited wider source).ofExcept result⟩
  roll := fun count sides ↦
    ⟨Step.roll_pruned h source count sides, (respectsRolls_audited wider source).roll count sides⟩
  bind := by
    intro _ _ first otherFirst next otherNext hfirst hnext
    refine ⟨fun before ↦ ?_, fun before ↦ ?_⟩
    · exact (hfirst.1 before).bind (fun value ↦ (hnext value).1) fun value ↦ (hnext value).2
    · exact (hfirst.2 before).bind fun value ↦ (hnext value).2

namespace Evaluator

/-- An evaluation goes the same way under wider limits, unless the limits are exceeded. -/
theorem evaluate_pruned (h : limits.Within wider) (bindings : Bindings Int) (source : Source σ)
    {tier : Tier} (node : Node tier) (before : Progress (Recorded σ)) :
    Pruned limits (evaluate ⟨bindings, limits⟩ source.recording node before)
      (evaluate ⟨bindings, wider⟩ source.recording node before) := by
  let evaluator : Evaluator := ⟨bindings, limits⟩
  let other : Evaluator := ⟨bindings, wider⟩
  have hwithin : evaluator.limits.Within other.limits := h
  have hsame : evaluator.bindings = other.bindings := rfl
  exact (evaluate_related (respectsRolls_pruned hwithin source) hsame node).1 before

/-- An evaluation succeeds under limits just when it succeeds without any and all its rolls keep to
them. -/
theorem run_eq_ok_iff_unlimited (bindings : Bindings Int) (source : Source σ)
    (expression : Expression) (state : Recorded σ) (limits : Limits) {total : Int}
    {progress : Progress (Recorded σ)} :
    run ⟨bindings, limits⟩ source.recording expression state = .ok total progress ↔
      run ⟨bindings, {}⟩ source.recording expression state = .ok total progress ∧
        ∀ roll ∈ progress.rolls, (∀ bound ∈ limits.maxDice, roll.count ≤ bound) ∧
          ∀ bound ∈ limits.maxSides, roll.sides ≤ bound := by
  have hpruned := evaluate_pruned limits.within_none bindings source expression { source := state }
  have haudited (limits : Limits) := run_audited ⟨bindings, limits⟩ source expression state
  rw [← run, ← run] at hpruned
  constructor
  · intro hrun
    have hrolls := haudited limits
    rw [hrun] at hpruned hrolls
    generalize run ⟨bindings, {}⟩ source.recording expression state = other at hpruned ⊢
    obtain ⟨rolls, -, haccount⟩ := hrolls
    cases hpruned with
    | same =>
        refine ⟨rfl, fun roll hroll ↦ ?_⟩
        have hallowed := (haccount.balanced.2.complete roll hroll).allowed
        exact ⟨hallowed.count_le, hallowed.sides_le⟩
  · rintro ⟨hrun, hkept⟩
    have hrolls := haudited {}
    rw [hrun] at hpruned hrolls
    generalize run ⟨bindings, limits⟩ source.recording expression state = result at hpruned ⊢
    cases hpruned with
    | same => rfl
    | excess hexcess hdrawn hroll =>
        obtain ⟨roll, hmem, hdenied⟩ := hroll total progress rfl
        obtain ⟨rolls, -, haccount⟩ := hrolls
        have hallowed := (haccount.balanced.2.complete roll hmem).allowed
        obtain ⟨hdice, hsides⟩ := hkept roll hmem
        exact absurd ⟨hallowed.count_nonneg, hallowed.one_le_sides, hdice, hsides⟩ hdenied

/-- Limits only cut evaluations short. Under wider limits an evaluation comes to the same, with the
same rolls and draws, unless it stops at a roll that exceeds a limit; what it has drawn by then is
drawn first under the wider limits too. An evaluation succeeds just when it succeeds without limits
and none of its rolls exceeds one. Under a limit on the dice it makes at most so many draws for each
roll operator of the tree, however it ends. If all that it starts from can be written, so can every
error, a limit exceeded among them. -/
theorem run_pruned (bindings : Bindings Int) (source : Source σ) (expression : Expression)
    (state : Recorded σ) (limits : Limits) :
    (∀ wider, limits.Within wider →
      (∀ total progress,
        run ⟨bindings, limits⟩ source.recording expression state = .ok total progress →
        run ⟨bindings, wider⟩ source.recording expression state = .ok total progress) ∧
      ∀ interruption progress,
        run ⟨bindings, limits⟩ source.recording expression state = .error interruption progress →
        (¬ interruption.IsExcess →
          run ⟨bindings, wider⟩ source.recording expression state =
            .error interruption progress) ∧
        (interruption.IsExcess →
          progress.source.draws.toList <+:
            Step.drawn (run ⟨bindings, wider⟩ source.recording expression state))) ∧
    (∀ total progress,
      run ⟨bindings, limits⟩ source.recording expression state = .ok total progress ↔
        run ⟨bindings, {}⟩ source.recording expression state = .ok total progress ∧
          ∀ roll ∈ progress.rolls, (∀ bound ∈ limits.maxDice, roll.count ≤ bound) ∧
            ∀ bound ∈ limits.maxSides, roll.sides ≤ bound) ∧
    (∀ bound ∈ limits.maxDice,
      (Step.drawn (run ⟨bindings, limits⟩ source.recording expression state)).length ≤
        state.draws.size + bound.toNat * expression.rollCount) ∧
    ((∀ cap ∈ limits.caps, digitCount cap ≤ maxNumeralDigits) →
      (∀ name, ∀ value ∈ bindings.get? name, digitCount value ≤ maxNumeralDigits) →
      (∀ number ∈ expression.numbers, digitCount number ≤ maxNumeralDigits) →
      ∀ error progress, run ⟨bindings, limits⟩ source.recording expression state ≠
        .error (.untold error) progress) := by
  refine ⟨fun wider hwithin ↦ ?_, fun total progress ↦ ?_, fun bound hbound ↦ ?_,
    fun hcaps hvariables hnumbers error progress hstop ↦ ?_⟩
  · have hpruned := evaluate_pruned hwithin bindings source expression { source := state }
    rw [← run, ← run] at hpruned
    generalize run ⟨bindings, limits⟩ source.recording expression state = result at hpruned ⊢
    generalize run ⟨bindings, wider⟩ source.recording expression state = other at hpruned ⊢
    cases hpruned with
    | same =>
        refine ⟨fun _ _ ↦ id, fun interruption progress hstop ↦ ⟨fun _ ↦ hstop, fun _ ↦ ?_⟩⟩
        rw [hstop]
        exact List.prefix_refl _
    | excess hexcess hdrawn =>
        constructor
        · rintro _ _ ⟨⟩
        · rintro _ _ ⟨⟩
          exact ⟨fun hother ↦ absurd hexcess hother, fun _ ↦ hdrawn⟩
  · exact run_eq_ok_iff_unlimited bindings source expression state limits
  · exact (run_audited ⟨bindings, limits⟩ source expression state).length_drawn_le hbound
  · have htold := isTold_of_evaluate hcaps hvariables hnumbers hstop
    exact htold.ne_untold error rfl

/-- With at most two dice for a roll, `2 d 6 + (3 d 8)` stops behind its first roll, which goes the
same way with three; and it is told why it stops. -/
theorem run_pruned_dice :
    let dice (count sides : Int) : Expression :=
      .sum (.ofTerm (.ofFactor (.ofValue (.number count)))) .roll
        (.ofFactor (.ofValue (.number sides)))
    let expression : Expression :=
      .sum (dice 2 6) .add (.ofFactor (.ofValue (.parentheses (dice 3 8))))
    let state : Recorded Generator := { state := .ofScript [4, 2, 5, 6, 7] }
    let limits : Limits := { maxDice := some 2 }
    let wider : Limits := { maxDice := some 3 }
    let stopped : Progress (Recorded Generator) :=
      ⟨⟨.scripted [5, 6, 7] 2, #[⟨1, 6, 4⟩, ⟨1, 6, 2⟩]⟩, #[⟨2, 6, [4, 2], 6⟩],
        #[.rolling 2 6, .face 6 4, .face 6 2]⟩
    (limits.Within wider ∧
        run ⟨.empty, limits⟩ Generator.source.recording expression state =
          .error (.evaluation (.invalidDice (.tooManyDice 3 2))) stopped) ∧
      stopped.source.draws.toList <+:
        Step.drawn (run ⟨.empty, wider⟩ Generator.source.recording expression state) ∧
      (Step.drawn (run ⟨.empty, limits⟩ Generator.source.recording expression state)).length ≤
        2 * 2 ∧
      ∀ error progress, run ⟨.empty, limits⟩ Generator.source.recording expression state ≠
        .error (.untold error) progress := by
  intro dice expression state limits wider stopped
  have hwithin : limits.Within wider := by
    refine ⟨fun bound hbound ↦ ⟨2, rfl, ?_⟩, nofun⟩
    cases hbound
    decide
  have hnarrow : narrow 6 = .ok 6 := narrow_of_natAbs_lt (show 3 ≤ maxBits by decide) (by decide)
  have hfirst : evaluate ⟨.empty, limits⟩ Generator.source.recording (dice 2 6)
      { source := state } = .ok 6 stopped := by
    refine Step.bind_eq_ok_iff.2 ⟨2, _, rfl, Step.bind_eq_ok_iff.2 ⟨6, _, rfl, ?_⟩⟩
    exact Step.bind_eq_ok_iff.2 ⟨6, stopped, rfl, Step.ofExcept_eq_ok_iff.2 ⟨hnarrow, rfl⟩⟩
  have hsecond : evaluate ⟨.empty, limits⟩ Generator.source.recording (dice 3 8) stopped =
      .error (EvaluationError.invalidDice (.tooManyDice 3 2)).raised stopped := by
    refine Step.bind_eq_error_iff.2 (.inr ⟨3, stopped, rfl, ?_⟩)
    refine Step.bind_eq_error_iff.2 (.inr ⟨8, stopped, rfl, ?_⟩)
    exact Step.bind_eq_error_iff.2 (.inl rfl)
  rw [EvaluationError.raised_of_isTellable (by decide)] at hsecond
  have hrun : run ⟨.empty, limits⟩ Generator.source.recording expression state =
      .error (.evaluation (.invalidDice (.tooManyDice 3 2))) stopped := by
    refine Step.bind_eq_error_iff.2 (.inr ⟨6, stopped, hfirst, ?_⟩)
    exact Step.bind_eq_error_iff.2 (.inl hsecond)
  have hpruned := run_pruned .empty Generator.source expression state limits
  exact ⟨⟨hwithin, hrun⟩, ((hpruned.1 wider hwithin).2 _ _ hrun).2 trivial, hpruned.2.2.1 2 rfl,
    hpruned.2.2.2 (by decide) nofun (by decide)⟩

/-- A limit that is exceeded is not told if the sides asked for are too many to be written; without
it the die is thrown. -/
theorem run_untold_excess :
    let sides : Int := 10 ^ maxNumeralDigits
    let expression : Expression :=
      .sum (.ofTerm (.ofFactor (.ofValue (.number 1)))) .roll (.ofFactor (.ofValue (.number sides)))
    let state : Recorded Generator := { state := .fixed 1 }
    let limits : Limits := { maxSides := some 6 }
    let thrown : Progress (Recorded Generator) :=
      ⟨⟨.fixed 1, #[⟨1, sides, 1⟩]⟩, #[⟨1, sides, [1], 1⟩], #[.rolling 1 sides, .face sides 1]⟩
    limits.Within {} ∧
      run ⟨.empty, limits⟩ Generator.source.recording expression state =
        .error (.untold (.invalidDice (.tooManySides sides 6))) { source := state } ∧
      run ⟨.empty, {}⟩ Generator.source.recording expression state = .ok 1 thrown := by
  intro sides expression state limits thrown
  have hlong : ¬ digitCount sides ≤ maxNumeralDigits := not_digitCount_pow_le
  have hmany : 6 < sides := by
    have hpow : 10 ^ 1 ≤ 10 ^ maxNumeralDigits := Nat.pow_le_pow_right (by decide) (by decide)
    rw [show sides = (10 ^ maxNumeralDigits : Nat) from (Int.natCast_pow 10 _).symm]
    exact Int.ofNat_lt.2 (Nat.lt_of_lt_of_le (by decide : 6 < 10 ^ 1) hpow)
  clear_value sides
  have hobjection : limits.objection? 1 sides = some (.tooManySides sides 6) := by
    have hexceeded : Limits.exceeded? (some 6) sides = some 6 :=
      Option.filter_eq_some_iff.2 ⟨rfl, decide_eq_true hmany⟩
    rw [Limits.objection?, if_neg (by decide), if_neg (by omega), hexceeded]
    rfl
  have hraised : (EvaluationError.invalidDice (.tooManySides sides 6)).raised =
      .untold (.invalidDice (.tooManySides sides 6)) :=
    EvaluationError.raised_of_not_isTellable fun htellable ↦
      hlong (htellable sides (List.mem_cons_self ..))
  have hallowed : Limits.objection? {} 1 sides = none := by
    have hfree (value bound : Int) (hbound : bound ∈ (none : Option Int)) : value ≤ bound :=
      absurd hbound (Option.not_mem_none bound)
    exact Limits.objection?_eq_none_iff.2 ⟨by decide, by omega, hfree 1, hfree sides⟩
  have hnarrow : narrow 1 = .ok 1 := narrow_of_natAbs_lt (show 1 ≤ maxBits by decide) (by decide)
  refine ⟨limits.within_none, ?_, ?_⟩
  · refine Step.bind_eq_error_iff.2 (.inr ⟨1, _, rfl, ?_⟩)
    refine Step.bind_eq_error_iff.2 (.inr ⟨sides, _, rfl, Step.bind_eq_error_iff.2 (.inl ?_)⟩)
    exact hraised ▸ Step.roll_of_objection hobjection _
  · refine Step.bind_eq_ok_iff.2 ⟨1, _, rfl, Step.bind_eq_ok_iff.2 ⟨sides, _, rfl, ?_⟩⟩
    refine Step.bind_eq_ok_iff.2 ⟨1, thrown, ?_, Step.ofExcept_eq_ok_iff.2 ⟨hnarrow, rfl⟩⟩
    rw [combine, Step.roll, hallowed]
    rfl

end Evaluator

end DiceArithmetic
