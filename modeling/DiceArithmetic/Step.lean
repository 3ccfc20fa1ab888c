import DiceArithmetic.Random.Source
import DiceArithmetic.Roll

/-!
# Steps of an evaluation

A step may draw from the source, complete rolls and write to the trace. It may be interrupted, and
what it has done until then stays done. An error is told when it is raised, so one that cannot be
told interrupts a step in another way; see `EvaluationError.raised`. The lemmas say what each basic
step does to the progress made so far.
-/

namespace DiceArithmetic

/-- What an evaluation has done so far: the state of its source, the rolls it has completed, and its
trace. -/
structure Progress (σ : Type) where
  source : σ
  rolls : Array DiceRoll := #[]
  trace : Array TraceEvent := #[]

/-- What stops an evaluation: an error of its own; such an error that cannot be told, as it holds an
integer that is too long to be written; or a source that hands out nothing. -/
inductive Interruption where
  | evaluation (error : EvaluationError)
  | untold (error : EvaluationError)
  | source (error : SourceError)
  deriving DecidableEq, Repr

/-- The interruption that an error is raised as. -/
def EvaluationError.raised (error : EvaluationError) : Interruption :=
  if error.IsTellable then .evaluation error else .untold error

namespace EvaluationError

variable {error other : EvaluationError}

theorem raised_of_isTellable (h : error.IsTellable) : error.raised = .evaluation error :=
  if_pos h

theorem raised_of_not_isTellable (h : ¬ error.IsTellable) : error.raised = .untold error :=
  if_neg h

theorem raised_tooWide : raised .tooWide = .evaluation .tooWide :=
  raised_of_isTellable isTellable_tooWide

theorem raised_eq_evaluation_iff :
    error.raised = .evaluation other ↔ error = other ∧ error.IsTellable := by
  unfold raised
  split <;> simp_all

end EvaluationError

/-- A step of an evaluation. -/
abbrev Step (σ : Type) := EStateM Interruption (Progress σ)

namespace Step

variable {σ α β : Type}

/-- A value, or the error that is raised in place of it. -/
def ofExcept : Except EvaluationError α → Step σ α
  | .ok value => pure value
  | .error error => throw error.raised

/-- Adds a line to the trace. -/
def note (event : TraceEvent) : Step σ Unit :=
  modify fun progress ↦ { progress with trace := progress.trace.push event }

/-- Adds a completed roll. -/
def record (roll : DiceRoll) : Step σ Unit :=
  modify fun progress ↦ { progress with rolls := progress.rolls.push roll }

/-- Draws an integer from the source. -/
def draw (source : Source σ) (low high : Int) : Step σ Int := fun progress ↦
  match source.draw low high progress.source with
  | .ok value state => .ok value { progress with source := state }
  | .error error state => .error (.source error) { progress with source := state }

/-- Throws dice of the given sides one after the other, behind those thrown already. -/
def throwDice (source : Source σ) (sides : Int) :
    (count : Nat) → (thrown : Array Int) → Step σ (Array Int)
  | 0, thrown => pure thrown
  | count + 1, thrown => do
      let value ← draw source 1 sides
      note (.face sides value)
      throwDice source sides count (thrown.push value)

/-- Makes a roll, unless there is an objection to it, and records it. -/
def roll (source : Source σ) (limits : Limits) (count sides : Int) : Step σ Int :=
  match limits.objection? count sides with
  | some fault => ofExcept (.error (.invalidDice fault))
  | none => do
      note (.rolling count sides)
      let thrown ← throwDice source sides count.toNat #[]
      record ⟨count, sides, thrown.toList, thrown.toList.sum⟩
      pure thrown.toList.sum

@[simp] theorem pure_apply (value : α) (progress : Progress σ) :
    (pure value : Step σ α) progress = .ok value progress :=
  rfl

/-- A step after another goes on from the progress of the other, unless that was interrupted. -/
theorem bind_apply (first : Step σ α) (next : α → Step σ β) (progress : Progress σ) :
    (first >>= next) progress =
      match first progress with
      | .ok value progress => next value progress
      | .error interruption progress => .error interruption progress := by
  simp only [bind, EStateM.bind]
  split <;> simp_all

/-- A step after another succeeds just when both do. -/
theorem bind_eq_ok_iff {first : Step σ α} {next : α → Step σ β} {before after : Progress σ}
    {result : β} :
    (first >>= next) before = .ok result after ↔
      ∃ value middle, first before = .ok value middle ∧ next value middle = .ok result after := by
  rw [bind_apply]
  cases first before with
  | ok value middle =>
      constructor
      · intro h
        exact ⟨value, middle, rfl, h⟩
      · rintro ⟨_, _, ⟨⟩, h⟩
        exact h
  | error interruption middle => simp

/-- A step after another is interrupted just when the other is, or when it is itself. -/
theorem bind_eq_error_iff {first : Step σ α} {next : α → Step σ β} {before after : Progress σ}
    {interruption : Interruption} :
    (first >>= next) before = .error interruption after ↔
      first before = .error interruption after ∨
        ∃ value middle, first before = .ok value middle ∧
          next value middle = .error interruption after := by
  rw [bind_apply]
  cases first before with
  | ok value middle =>
      constructor
      · intro h
        exact .inr ⟨value, middle, rfl, h⟩
      · rintro (h | ⟨_, _, ⟨⟩, h⟩)
        · cases h
        · exact h
  | error interruption middle => simp

@[simp] theorem ofExcept_ok_apply (value : α) (progress : Progress σ) :
    (ofExcept (.ok value) : Step σ α) progress = .ok value progress :=
  rfl

@[simp] theorem ofExcept_error_apply (error : EvaluationError) (progress : Progress σ) :
    (ofExcept (.error error) : Step σ α) progress = .error error.raised progress :=
  rfl

/-- A value stands in a step just when no error does, and it changes nothing. -/
theorem ofExcept_eq_ok_iff {outcome : Except EvaluationError α} {before after : Progress σ}
    {value : α} :
    ofExcept outcome before = .ok value after ↔ outcome = .ok value ∧ before = after := by
  cases outcome <;> simp

/-- A step that stands for a value or an error is interrupted just when an error is raised, and it
changes nothing. -/
theorem ofExcept_eq_error_iff {outcome : Except EvaluationError α} {before after : Progress σ}
    {interruption : Interruption} :
    ofExcept outcome before = .error interruption after ↔
      ∃ error, outcome = .error error ∧ error.raised = interruption ∧ before = after := by
  cases outcome <;> simp

/-- It is interrupted by an error that is told just when that is the error, and can be told. -/
theorem ofExcept_eq_evaluation_iff {outcome : Except EvaluationError α} {before after : Progress σ}
    {error : EvaluationError} :
    ofExcept outcome before = .error (.evaluation error) after ↔
      outcome = .error error ∧ error.IsTellable ∧ before = after := by
  simp only [ofExcept_eq_error_iff, EvaluationError.raised_eq_evaluation_iff]
  constructor
  · rintro ⟨_, houtcome, ⟨rfl, htellable⟩, hsame⟩
    exact ⟨houtcome, htellable, hsame⟩
  · rintro ⟨houtcome, htellable, hsame⟩
    exact ⟨error, houtcome, ⟨rfl, htellable⟩, hsame⟩

@[simp] theorem note_apply (event : TraceEvent) (progress : Progress σ) :
    note event progress = .ok () { progress with trace := progress.trace.push event } :=
  rfl

@[simp] theorem record_apply (roll : DiceRoll) (progress : Progress σ) :
    record roll progress = .ok () { progress with rolls := progress.rolls.push roll } :=
  rfl

/-- An objection to a roll is raised before anything is drawn or traced. -/
theorem roll_of_objection {source : Source σ} {limits : Limits} {count sides : Int}
    {fault : DiceFault} (h : limits.objection? count sides = some fault) (progress : Progress σ) :
    roll source limits count sides progress =
      .error (EvaluationError.invalidDice fault).raised progress := by
  rw [roll, h]
  rfl

end Step

end DiceArithmetic
