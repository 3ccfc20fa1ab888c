import DiceArithmetic.Proofs.Variables
import DiceArithmetic.Session

/-!
# The evaluator of a session and the dictionary of its caller

The evaluator of a session has variables of its own: a copy of the dictionary as it was when the
evaluator was last built from it. `lastBuilt` follows the dictionary alone through the commands and
says which dictionary that is; `Session.steps_snapshot` says that the evaluator has a copy of it, and
that what is done to the dictionary later on makes no difference to what is answered.
-/

namespace DiceArithmetic

namespace Command

/-- What the command makes of the caller's dictionary. -/
def edit : Command → Bindings Scalar → Bindings Scalar
  | .set name value, dictionary => dictionary.set name value
  | .delete name, dictionary => dictionary.erase name
  | .total _, dictionary | .rolls _, dictionary | .draw .., dictionary | .rebuild, dictionary
  | .limit _, dictionary => dictionary

/-- The command is for the dictionary, or for building the evaluator from it. -/
def isDraft : Command → Bool
  | .set .. | .delete _ | .rebuild => true
  | .total _ | .rolls _ | .draw .. | .limit _ => false

/-- The command builds the evaluator from this dictionary. -/
def Builds (command : Command) (dictionary : Bindings Scalar) : Prop :=
  command = .rebuild ∧ dictionary.Acceptable

instance (command : Command) (dictionary : Bindings Scalar) :
    Decidable (command.Builds dictionary) :=
  inferInstanceAs (Decidable (_ ∧ _))

end Command

/-- The dictionary from which the evaluator was last built, if it was the given one before the
commands. -/
def lastBuilt (built dictionary : Bindings Scalar) : List Command → Bindings Scalar
  | [] => built
  | command :: later =>
      lastBuilt (if command.Builds dictionary then dictionary else built)
        (command.edit dictionary) later

/-- None of the commands, carried out in turn, builds the evaluator from the dictionary. -/
def NeverBuilt (dictionary : Bindings Scalar) : List Command → Prop
  | [] => True
  | command :: later =>
      ¬ command.Builds dictionary ∧ NeverBuilt (command.edit dictionary) later

instance decidableNeverBuilt (dictionary : Bindings Scalar) :
    (commands : List Command) → Decidable (NeverBuilt dictionary commands)
  | [] => .isTrue trivial
  | command :: later =>
      have := decidableNeverBuilt (command.edit dictionary) later
      inferInstanceAs (Decidable (_ ∧ _))

namespace Session

variable {σ : Type} (source : Source σ) {session : Session σ} {command : Command}

/-- A line is evaluated without a change of the dictionary or the evaluator. -/
theorem evaluate_frame (session : Session σ) (line : String) :
    match session.evaluate source line with
    | .ok _ after | .error _ after =>
        after.dictionary = session.dictionary ∧ after.evaluator = session.evaluator := by
  unfold evaluate
  cases Expression.ofString line with
  | error error => exact ⟨rfl, rfl⟩
  | ok expression =>
      dsimp only
      cases Evaluation.ofExpression session.evaluator source.recording session.recorded line
        expression <;> exact ⟨rfl, rfl⟩

/-- What is not for the dictionary neither depends on it nor changes it. -/
theorem step_withDictionary (h : command.isDraft = false) (session : Session σ)
    (dictionary : Bindings Scalar) :
    { session with dictionary }.step source command =
      ((session.step source command).1, { (session.step source command).2 with dictionary }) := by
  have hevaluate (line : String) :
      { session with dictionary }.evaluate source line =
        match session.evaluate source line with
        | .ok evaluation after => .ok evaluation { after with dictionary }
        | .error failure after => .error failure { after with dictionary } := by
    unfold evaluate
    cases Expression.ofString line with
    | error error => rfl
    | ok expression =>
        dsimp only
        cases Evaluation.ofExpression session.evaluator source.recording session.recorded line
          expression <;> rfl
  cases command with
  | total line | rolls line =>
      rw [step, step, hevaluate]
      cases session.evaluate source line <;> rfl
  | draw low high =>
      rw [step, step]
      dsimp only
      cases source.recording.draw low high session.recorded <;> rfl
  | limit limits =>
      rw [step, step]
      dsimp only
      cases session.evaluator.withLimits limits <;> rfl
  | set | delete | rebuild => cases h

/-- What is for the dictionary changes nothing else, unless it builds the evaluator. -/
theorem step_of_not_builds (h : command.isDraft) (hbuilds : ¬ command.Builds session.dictionary) :
    (session.step source command).2 =
      { session with dictionary := command.edit session.dictionary } := by
  cases command with
  | set | delete => rfl
  | rebuild =>
      rw [step]
      cases hprepare : Evaluator.prepare session.dictionary session.evaluator.limits with
      | error error => rfl
      | ok evaluator =>
          exact absurd ⟨rfl, Evaluator.exists_prepare_iff.1 ⟨evaluator, hprepare⟩⟩ hbuilds
  | total | rolls | draw | limit => cases h

/-- A command that builds the evaluator binds a copy of the dictionary and changes nothing else. -/
theorem step_of_builds (h : command.Builds session.dictionary) :
    ∃ evaluator : Evaluator, evaluator.bindings.IsCopyOf session.dictionary ∧
      (session.step source command).2 = { session with evaluator } := by
  obtain ⟨rfl, hacceptable⟩ := h
  have hexists : ∃ evaluator,
      Evaluator.prepare session.dictionary session.evaluator.limits = .ok evaluator :=
    Evaluator.exists_prepare_iff.2 hacceptable
  obtain ⟨evaluator, hprepare⟩ := hexists
  refine ⟨evaluator, (Evaluator.prepare_eq_ok_iff.1 hprepare).1, ?_⟩
  rw [step, hprepare]
  rfl

/-- The dictionary changes by the commands that are for it. -/
theorem step_dictionary (session : Session σ) (command : Command) :
    (session.step source command).2.dictionary = command.edit session.dictionary := by
  by_cases hbuilds : command.Builds session.dictionary
  · obtain ⟨evaluator, -, hstep⟩ := step_of_builds source hbuilds
    obtain ⟨rfl, -⟩ := hbuilds
    rw [hstep]
    rfl
  · cases hdraft : command.isDraft with
    | true => rw [step_of_not_builds source hdraft hbuilds]
    | false =>
        have hframe := congrArg (·.2.dictionary)
          (step_withDictionary source hdraft session session.dictionary)
        refine hframe.trans ?_
        cases command with
        | total | rolls | draw | limit => rfl
        | set | delete | rebuild => cases hdraft

/-- The evaluator cannot be built just when the dictionary is not acceptable. -/
theorem step_rebuild_failed_iff (session : Session σ) :
    (∃ failure, (session.step source .rebuild).1 = .failed failure) ↔
      ¬ session.dictionary.Acceptable := by
  have hexists := @Evaluator.exists_prepare_iff session.dictionary session.evaluator.limits
  rw [step, ← hexists]
  cases hprepare : Evaluator.prepare session.dictionary session.evaluator.limits with
  | error error => exact iff_of_true ⟨_, rfl⟩ nofun
  | ok evaluator => exact iff_of_false nofun fun hnone ↦ hnone ⟨evaluator, rfl⟩

/-- Under other limits the variables are what they were. -/
theorem step_limit (hnarrow : ∀ entry ∈ session.evaluator.bindings.entries, IsNarrow entry.2)
    (limits : Limits) :
    session.step source (.limit limits) =
      (session.bindings, { session with evaluator := { session.evaluator with limits } }) := by
  rw [step, Evaluator.withLimits_of_isNarrow hnarrow limits]
  rfl

/-- The variables are those of the dictionary from which the evaluator is built by the command, or
was built before. -/
theorem step_isCopyOf {built : Bindings Scalar}
    (h : session.evaluator.bindings.IsCopyOf built) (command : Command) :
    (session.step source command).2.evaluator.bindings.IsCopyOf
      (if command.Builds session.dictionary then session.dictionary else built) := by
  split
  next hbuilds =>
      obtain ⟨evaluator, hcopy, hstep⟩ := step_of_builds source hbuilds
      rw [hstep]
      exact hcopy
  next hbuilds =>
      cases hdraft : command.isDraft with
      | true =>
          rw [step_of_not_builds source hdraft hbuilds]
          exact h
      | false =>
          cases command with
          | limit limits =>
              rw [step_limit source h.isNarrow]
              exact h
          | draw low high =>
              rw [step]
              cases source.recording.draw low high session.recorded <;> exact h
          | total line | rolls line =>
              have hframe := evaluate_frame source session line
              rw [step]
              cases hresult : session.evaluate source line <;>
                rw [hresult] at hframe <;> exact hframe.2 ▸ h
          | set | delete | rebuild => cases hdraft

/-- Whatever the commands, the variables are those of the dictionary from which the evaluator was
last built, and the dictionary is what the caller has made of it. -/
theorem steps_isCopyOf {built : Bindings Scalar} (h : session.evaluator.bindings.IsCopyOf built)
    (commands : List Command) :
    (session.steps source commands).2.evaluator.bindings.IsCopyOf
        (lastBuilt built session.dictionary commands) ∧
      (session.steps source commands).2.dictionary =
        commands.foldl (fun dictionary command ↦ command.edit dictionary) session.dictionary := by
  induction commands generalizing session built with
  | nil => exact ⟨h, rfl⟩
  | cons command later ih =>
      have hlater := ih (step_isCopyOf source h command)
      rw [step_dictionary] at hlater
      exact hlater

theorem steps_cons_snd (session : Session σ) (command : Command) (later : List Command) :
    (session.steps source (command :: later)).2 =
      ((session.step source command).2.steps source later).2 :=
  rfl

/-- If nothing builds the evaluator, the commands for the dictionary can be left out. -/
theorem steps_filter {commands : List Command} (h : NeverBuilt session.dictionary commands)
    (dictionary : Bindings Scalar) :
    ({ session with dictionary }.steps source (commands.filter (!·.isDraft))).2 =
      { (session.steps source commands).2 with dictionary } := by
  induction commands generalizing session with
  | nil => rfl
  | cons command later ih =>
      obtain ⟨hbuilds, hlater⟩ := h
      rw [← step_dictionary source session command] at hlater
      have hrest := ih hlater
      cases hdraft : command.isDraft with
      | true =>
          rw [List.filter_cons_of_neg (by simp [hdraft]), steps_cons_snd,
            step_of_not_builds source hdraft hbuilds]
          rwa [step_of_not_builds source hdraft hbuilds] at hrest
      | false =>
          rw [List.filter_cons_of_pos (by simp [hdraft]), steps_cons_snd, steps_cons_snd,
            step_withDictionary source hdraft]
          exact hrest

/-- The evaluator of a session has a snapshot of the dictionary. Whatever the commands, its variables
are a copy of the dictionary as it was when the evaluator was last built from it, and are narrow. The
dictionary is what the commands for it have made of it, and the evaluator can be built from it again
just when it is acceptable. As long as that is not done, the commands for the dictionary make no
difference to what the others answer. Other limits can always be set, and change no variable. -/
theorem steps_snapshot {state : σ} {dictionary : Bindings Scalar} {limits : Limits}
    (hstart : start state dictionary limits = .ok session) (commands : List Command) :
    let after := (session.steps source commands).2
    (after.evaluator.bindings.IsCopyOf (lastBuilt dictionary dictionary commands) ∧
      ∀ entry ∈ after.evaluator.bindings.entries, IsNarrow entry.2) ∧
    (after.dictionary =
        commands.foldl (fun dictionary command ↦ command.edit dictionary) dictionary ∧
      ((∃ failure, (after.step source .rebuild).1 = .failed failure) ↔
        ¬ after.dictionary.Acceptable)) ∧
    (∀ later, NeverBuilt after.dictionary later → ∀ command, command.isDraft = false →
      ((after.steps source later).2.step source command).1 =
        ((after.steps source (later.filter (!·.isDraft))).2.step source command).1) ∧
    ∀ limits, after.step source (.limit limits) =
      (after.bindings, { after with evaluator := { after.evaluator with limits } }) := by
  intro after
  have hsession : session.evaluator.bindings.IsCopyOf dictionary ∧
      session.dictionary = dictionary := by
    unfold start at hstart
    split at hstart
    next => cases hstart
    next evaluator hprepare =>
        cases hstart
        exact ⟨(Evaluator.prepare_eq_ok_iff.1 hprepare).1, rfl⟩
  obtain ⟨hcopy, rfl⟩ := hsession
  obtain ⟨hafter, hdictionary⟩ := steps_isCopyOf source hcopy commands
  refine ⟨⟨hafter, hafter.isNarrow⟩, ⟨hdictionary, step_rebuild_failed_iff source after⟩, ?_,
    step_limit source hafter.isNarrow⟩
  intro later hnever command hdraft
  have hfilter := steps_filter source hnever after.dictionary
  have hanswer := step_withDictionary source hdraft (after.steps source later).2 after.dictionary
  rw [← hfilter] at hanswer
  exact (congrArg Prod.fst hanswer).symm

/-- A level of three stays what it is, though the caller writes seven over it, and then something
from which no evaluator can be built. -/
theorem steps_snapshot_level :
    let dictionary : Bindings Scalar := .ofList [("level", .integer 3)]
    let session : Session Generator :=
      ⟨{ state := .ofScript [4, 5, 6, 1] }, dictionary, ⟨.ofList [("level", 3)], {}⟩⟩
    let commands : List Command :=
      [.set "level" (.integer 7), .total "level d 6", .set "name" (.text "x"), .rebuild]
    let later : List Command := [.set "level" .missing, .draw 1 6, .rebuild]
    let after := (session.steps Generator.source commands).2
    (start (.ofScript [4, 5, 6, 1]) dictionary {} = .ok session ∧
        NeverBuilt after.dictionary later) ∧
      after.evaluator.bindings.IsCopyOf dictionary ∧
      ((after.steps Generator.source later).2.step Generator.source (.total "level")).1 =
        ((after.steps Generator.source [.draw 1 6]).2.step Generator.source (.total "level")).1 := by
  intro dictionary session commands later after
  have hnarrow : IsNarrow 3 :=
    (narrow_eq_ok_iff.1 (narrow_of_natAbs_lt (by decide : 2 ≤ maxBits) (by decide))).2
  have hprepare : Evaluator.prepare dictionary {} = .ok session.evaluator :=
    Evaluator.prepare_eq_ok_iff.2 ⟨.cons ⟨rfl, rfl, hnarrow⟩ .nil, rfl⟩
  have hstart : start (.ofScript [4, 5, 6, 1]) dictionary {} = .ok session := by
    rw [start, hprepare]
  have hsnapshot := steps_snapshot Generator.source hstart commands
  have hbuilt : lastBuilt dictionary dictionary commands = dictionary := by decide +kernel
  have hnever : NeverBuilt after.dictionary later := by
    rw [hsnapshot.2.1.1]
    decide +kernel
  refine ⟨⟨hstart, hnever⟩, hbuilt ▸ hsnapshot.1.1, ?_⟩
  exact hsnapshot.2.2.1 later hnever (.total "level") rfl

end Session

end DiceArithmetic
