import DiceArithmetic.Proofs.Evaluation.Exhaustion
import DiceArithmetic.Proofs.Variables
import DiceArithmetic.Session

/-!
# A script that a whole session draws from

A source may be shared: by the commands of a session, and by lines evaluated beside it with
variables and limits of their own. `Use` is any of these. `Session.uses_script` says that a script
which is shared in this way hands out its values in turn, loses none and repeats none, whatever fails
on the way; and that a script which is used up makes a difference only to what needs a draw.

What a use does depends on its source in one of three ways only, which `Use.demand` names: not at
all, by one draw, or by the draws of one evaluation.
-/

namespace DiceArithmetic

variable {σ τ α : Type}

/-- How a step leaves its source. -/
def Step.finalSource : EStateM.Result Interruption (Progress σ) α → σ
  | .ok _ after => after.source
  | .error _ after => after.source

/-- What an evaluation that comes to this is answered with. -/
def Answer.ofResult (answer : Int → List DiceRoll → Answer) :
    EStateM.Result Interruption (Progress σ) Int → Answer
  | .ok value progress => answer value progress.rolls.toList
  | .error interruption _ => .failed (.interrupted interruption)

theorem Step.drawn_eq_finalSource
    (result : EStateM.Result Interruption (Progress (Recorded σ)) α) :
    drawn result = (finalSource result).draws.toList := by
  cases result <;> rfl

/-- What is left true in any case is true in the end. -/
theorem Leaves.finalSource {holds : σ → Prop}
    {result : EStateM.Result Interruption (Progress σ) α}
    (h : Leaves holds (fun _ ↦ holds) result) : holds (Step.finalSource result) := by
  cases result with
  | ok value after => exact h
  | error interruption after =>
      cases interruption with
      | evaluation | untold | source => exact h

/-- The answer does not show the state of the source. -/
theorem Answer.ofResult_mapSource (answer : Int → List DiceRoll → Answer) (f : σ → τ)
    (result : EStateM.Result Interruption (Progress σ) Int) :
    ofResult answer (Step.mapSource f result) = ofResult answer result := by
  cases result <;> rfl

/-- What can be done with a source that is shared: a command of a session, or the evaluation of a
line beside the session, with variables and limits of its own. -/
inductive Use where
  | command (command : Command)
  | line (offered : Bindings Scalar) (limits : Limits) (line : String)

/-- What a use asks of its source: nothing, as it comes to its answer and may change the dictionary
and the evaluator without; one draw; or the draws of an evaluation, which makes the answer. -/
inductive Demand where
  | nothing (answer : Answer) (dictionary : Bindings Scalar) (evaluator : Evaluator)
  | draw (low high : Int)
  | draws (evaluator : Evaluator) (expression : Expression) (answer : Int → List DiceRoll → Answer)

namespace Demand

variable (dictionary : Bindings Scalar) (evaluator : Evaluator)

/-- The demand of a use that fails by itself. -/
def failing (failure : Failure) : Demand :=
  .nothing (.failed failure) dictionary evaluator

/-- The demand of a use that takes over a new evaluator if it could be built. -/
def adopting : Except EvaluationError Evaluator → Demand
  | .error error => failing dictionary evaluator (.interrupted (.evaluation error))
  | .ok built => .nothing (.bindings built.bindings.sorted) dictionary built

end Demand

namespace Use

/-- The line cannot be read, or something offered for a variable is not acceptable, so that the use
fails before it begins. A name that is bound to nothing is no such obstacle: an evaluation fails
when it comes to it, and what was drawn by then stays drawn. -/
def Refused (dictionary : Bindings Scalar) : Use → Prop
  | .command (.total text) | .command (.rolls text) =>
      ∃ error, Expression.ofString text = .error error
  | .command .rebuild => ¬ dictionary.Acceptable
  | .command (.draw ..) | .command (.set ..) | .command (.delete _) | .command (.limit _) => False
  | .line offered _ text =>
      (∃ error, Expression.ofString text = .error error) ∨ ¬ offered.Acceptable

/-- What the use asks of its source. -/
def demand (dictionary : Bindings Scalar) (evaluator : Evaluator) : Use → Demand
  | .command (.total text) =>
      match Expression.ofString text with
      | .error error => .failing dictionary evaluator (.reading error)
      | .ok expression => .draws evaluator expression fun total _ ↦ .total total
  | .command (.rolls text) =>
      match Expression.ofString text with
      | .error error => .failing dictionary evaluator (.reading error)
      | .ok expression => .draws evaluator expression .rolls
  | .command (.draw low high) => .draw low high
  | .command (.set name value) =>
      .nothing (.bindings evaluator.bindings.sorted) (dictionary.set name value) evaluator
  | .command (.delete name) =>
      .nothing (.bindings evaluator.bindings.sorted) (dictionary.erase name) evaluator
  | .command .rebuild =>
      .adopting dictionary evaluator (Evaluator.prepare dictionary evaluator.limits)
  | .command (.limit limits) => .adopting dictionary evaluator (evaluator.withLimits limits)
  | .line offered limits text =>
      match Expression.ofString text with
      | .error error => .failing dictionary evaluator (.reading error)
      | .ok expression =>
          match Evaluator.prepare offered limits with
          | .error error => .failing dictionary evaluator (.interrupted (.evaluation error))
          | .ok prepared => .draws prepared expression .rolls

/-- A use that is refused demands nothing and changes nothing. -/
theorem Refused.demand_eq {dictionary : Bindings Scalar} {use : Use}
    (h : use.Refused dictionary) (evaluator : Evaluator) :
    ∃ failure, use.demand dictionary evaluator = .failing dictionary evaluator failure := by
  have hprepare {offered : Bindings Scalar} (hoffered : ¬ offered.Acceptable) (limits : Limits) :
      ∃ error, Evaluator.prepare offered limits = .error error := by
    rw [← @Evaluator.exists_prepare_iff offered limits] at hoffered
    cases hresult : Evaluator.prepare offered limits with
    | error error => exact ⟨error, rfl⟩
    | ok prepared => exact absurd ⟨prepared, hresult⟩ hoffered
  cases use with
  | command command =>
      cases command with
      | total text | rolls text =>
          obtain ⟨error, hread⟩ := h
          rw [demand, hread]
          exact ⟨_, rfl⟩
      | rebuild =>
          obtain ⟨error, hfailed⟩ := hprepare h evaluator.limits
          rw [demand, hfailed]
          exact ⟨_, rfl⟩
      | draw | set | delete | limit => exact h.elim
  | line offered limits text =>
      rw [demand]
      cases hread : Expression.ofString text with
      | error error => exact ⟨_, rfl⟩
      | ok expression =>
          obtain ⟨error, hfailed⟩ | hoffered := h
          · rw [hread] at hfailed
            cases hfailed
          · obtain ⟨error, hfailed⟩ := hprepare hoffered limits
            dsimp only
            rw [hfailed]
            exact ⟨_, rfl⟩

end Use

namespace Session

/-- Makes a use of the source of a session. -/
def use (source : Source σ) (session : Session σ) : Use → Answer × Session σ
  | .command command => session.step source command
  | .line offered limits text =>
      match Evaluation.ofLine source.recording session.recorded offered limits text with
      | .ok evaluation progress =>
          (.rolls evaluation.total evaluation.rolls, { session with recorded := progress.source })
      | .error failure progress => (.failed failure, { session with recorded := progress.source })

/-- Makes uses in turn. -/
def uses (source : Source σ) (session : Session σ) (uses : List Use) : Session σ :=
  uses.foldl (fun session use ↦ (session.use source use).2) session

/-- Meets a demand from the source of a session. -/
def meet (source : Source σ) (session : Session σ) : Demand → Answer × Session σ
  | .nothing answer dictionary evaluator => (answer, { session with dictionary, evaluator })
  | .draw low high =>
      match source.recording.draw low high session.recorded with
      | .ok value recorded => (.drawn value, { session with recorded })
      | .error error recorded =>
          (.failed (.interrupted (.source error)), { session with recorded })
  | .draws evaluator expression answer =>
      let result := evaluator.run source.recording expression session.recorded
      (.ofResult answer result, { session with recorded := Step.finalSource result })

/-- The session with another source in place of its own, and the same draws on record. -/
def onSource (session : Session σ) (state : τ) : Session τ :=
  ⟨⟨state, session.recorded.draws⟩, session.dictionary, session.evaluator⟩

/-- The use needs a draw: it makes one, or its source fails. -/
def Asks (source : Source σ) (session : Session σ) (use : Use) : Prop :=
  session.used < (session.use source use).2.used ∨
    ∃ error, (session.use source use).1 = .failed (.interrupted (.source error))

/-- The commands of a session are uses of its source. -/
theorem uses_commands (source : Source σ) (session : Session σ) (commands : List Command) :
    session.uses source (commands.map .command) = (session.steps source commands).2 := by
  induction commands generalizing session with
  | nil => rfl
  | cons command later ih => exact ih (session.step source command).2

/-- A use meets its demand. -/
theorem use_eq_meet (source : Source σ) (session : Session σ) (use : Use) :
    session.use source use =
      session.meet source (use.demand session.dictionary session.evaluator) := by
  cases use with
  | line offered limits text =>
      rw [Session.use, Evaluation.ofLine, Use.demand]
      cases Expression.ofString text with
      | error error => rfl
      | ok expression =>
          dsimp only
          cases Evaluator.prepare offered limits with
          | error error => rfl
          | ok evaluator =>
              dsimp only
              rw [Evaluation.ofExpression, meet]
              cases evaluator.run source.recording expression session.recorded <;> rfl
  | command command =>
      cases command with
      | total text | rolls text =>
          rw [Session.use, step, evaluate, Use.demand]
          cases Expression.ofString text with
          | error error => rfl
          | ok expression =>
              dsimp only
              rw [Evaluation.ofExpression, meet]
              cases session.evaluator.run source.recording expression session.recorded <;> rfl
      | draw | set | delete => rfl
      | rebuild =>
          rw [Session.use, step, Use.demand]
          cases Evaluator.prepare session.dictionary session.evaluator.limits <;> rfl
      | limit limits =>
          rw [Session.use, step, Use.demand]
          cases session.evaluator.withLimits limits <;> rfl

/-- What draws preserve, a use leaves as it is. -/
theorem use_preserves {source : Source σ} {holds : Recorded σ → Prop}
    (hdraws : source.recording.Preserves holds) {session : Session σ}
    (h : holds session.recorded) (use : Use) : holds (session.use source use).2.recorded := by
  rw [use_eq_meet]
  cases use.demand session.dictionary session.evaluator with
  | nothing => exact h
  | draw low high =>
      have hafter := hdraws low high session.recorded h
      rw [meet]
      cases hresult : source.recording.draw low high session.recorded with
      | ok value recorded =>
          rw [hresult] at hafter
          exact hafter
      | error error recorded =>
          rw [hresult] at hafter
          exact hafter
  | draws evaluator expression answer =>
      exact (evaluator.evaluate_keeps hdraws.keeps expression { source := session.recorded }
        h).finalSource

/-- What draws preserve, any number of uses leave as it is. -/
theorem uses_preserves {source : Source σ} {holds : Recorded σ → Prop}
    (hdraws : source.recording.Preserves holds) {session : Session σ}
    (h : holds session.recorded) (uses : List Use) :
    holds (session.uses source uses).recorded := by
  induction uses generalizing session with
  | nil => exact h
  | cons use later ih => exact ih (use_preserves hdraws h use)

/-- A use that is refused fails and changes nothing. -/
theorem use_of_refused (source : Source σ) {session : Session σ} {use : Use}
    (h : use.Refused session.dictionary) :
    ∃ failure, session.use source use = (.failed failure, session) := by
  obtain ⟨failure, hdemand⟩ := h.demand_eq session.evaluator
  rw [use_eq_meet, hdemand]
  exact ⟨failure, rfl⟩

/-- With a script that is used up a use fails for want of a value and changes nothing, and then it
asks any source; or it has the same answer with any source, and draws nothing. -/
theorem use_spent {session : Session Generator}
    (hspent : session.recorded.state = .scripted [] session.used) (use : Use) :
    (session.use Generator.source use =
        (.failed (.interrupted (.source (.exhausted session.used))), session) ∧
      ∀ {τ : Type} (source : Source τ) (state : τ), (session.onSource state).Asks source use) ∨
    ∀ {τ : Type} (source : Source τ) (state : τ),
      ((session.onSource state).use source use).1 = (session.use Generator.source use).1 ∧
        ((session.onSource state).use source use).2.used = session.used := by
  obtain ⟨⟨state, draws⟩, dictionary, evaluator⟩ := session
  change state = .scripted [] draws.size at hspent
  subst hspent
  simp only [Asks, onSource, use_eq_meet]
  cases use.demand dictionary evaluator with
  | nothing => exact .inr fun source state ↦ ⟨rfl, rfl⟩
  | draw low high =>
      refine .inl ⟨rfl, fun source state ↦ ?_⟩
      unfold meet Source.recording
      dsimp only
      cases source.draw low high state with
      | ok value after =>
          left
          show draws.size < (draws.push ⟨low, high, value⟩).size
          rw [Array.size_push]
          exact Nat.lt_succ_self _
      | error error after => exact .inr ⟨error, rfl⟩
  | draws prepared expression answer =>
      unfold meet
      dsimp only
      obtain ⟨progress, hstarved, hspent, hasked⟩ | hsame := prepared.run_spent expression draws
      · rw [Recorded.spent] at hstarved hspent
        refine .inl ⟨?_, fun source state ↦ ?_⟩
        · rw [hstarved, Step.finalSource, hspent]
          rfl
        · obtain hmore | ⟨error, after, hfailed⟩ := hasked source state
          · left
            rw [Step.drawn_eq_finalSource, Array.length_toList] at hmore
            exact hmore
          · right
            rw [hfailed]
            exact ⟨error, rfl⟩
      · refine .inr fun source state ↦ ?_
        obtain ⟨hresult, hdrawn⟩ := hsame source state
        constructor
        · have hanswer := congrArg (Answer.ofResult answer) hresult
          rwa [Answer.ofResult_mapSource, Answer.ofResult_mapSource] at hanswer
        · rw [Step.drawn_eq_finalSource] at hdrawn
          exact congrArg List.length hdrawn

/-- A script that is shared hands out its values in turn, loses none and repeats none. Whatever it
has been used for, what was drawn are its first values, and the others are left. What was drawn
stays so, whatever the script is used for later on. A use whose line cannot be read, or whose
variables are not acceptable, fails and changes nothing. When all values are drawn, a use fails for
want of a value and changes nothing, and then it would ask any source; or it has the same answer as
with any source, and draws nothing. -/
theorem uses_script (values : List Int) (dictionary : Bindings Scalar) (evaluator : Evaluator)
    (earlier : List Use) :
    let session :=
      uses Generator.source ⟨{ state := .ofScript values }, dictionary, evaluator⟩ earlier
    (session.recorded.draws.toList.map Draw.value = values.take session.used ∧
      session.recorded.state = .scripted (values.drop session.used) session.used ∧
      session.used ≤ values.length) ∧
    (∀ later, session.recorded.draws.toList <+:
      (session.uses Generator.source later).recorded.draws.toList) ∧
    (∀ use, use.Refused session.dictionary →
      ∃ failure, session.use Generator.source use = (.failed failure, session)) ∧
    (session.used = values.length → ∀ use,
      (session.use Generator.source use =
          (.failed (.interrupted (.source (.exhausted values.length))), session) ∧
        ∀ {τ : Type} (source : Source τ) (state : τ), (session.onSource state).Asks source use) ∨
      ∀ {τ : Type} (source : Source τ) (state : τ),
        ((session.onSource state).use source use).1 = (session.use Generator.source use).1 ∧
          ((session.onSource state).use source use).2.used = session.used) := by
  intro session
  have hreads : session.recorded.Reads values :=
    uses_preserves (script_preserves values) ⟨values, rfl, rfl⟩ earlier
  obtain ⟨left, hstate, hvalues⟩ := hreads
  have hlength : (session.recorded.draws.toList.map Draw.value).length = session.used :=
    List.length_map _
  refine ⟨⟨?_, ?_, ?_⟩, fun later ↦ ?_, fun use ↦ use_of_refused _, fun hused use ↦ ?_⟩
  · rw [← hvalues, ← hlength, List.take_left]
  · rw [← hvalues, ← hlength, List.drop_left, hlength]
    exact hstate
  · rw [← hvalues, List.length_append, hlength]
    exact Nat.le_add_right _ _
  · exact uses_preserves (Generator.source.recording_preserves _) (List.prefix_refl _) later
  · have hnone : left = [] := by
      rw [← hvalues, List.length_append, hlength] at hused
      exact List.length_eq_zero_iff.1 (by omega)
    rw [hnone] at hstate
    rw [← hused]
    exact use_spent hstate use

/-- Two values are too few for three dice, and then there is none for one die. No dice can be rolled
all the same. -/
theorem uses_script_dice :
    let refused : Use := .line (.ofList [("level", .text "x")]) {} "level"
    let session := uses Generator.source ⟨{ state := .ofScript [4, 2] }, .empty, ⟨.empty, {}⟩⟩
      [.command (.total "3 d 6"), refused]
    (session.used = 2 ∧ refused.Refused session.dictionary) ∧
      session.recorded.draws.toList.map Draw.value = [4, 2] ∧
      (∃ failure, session.use Generator.source refused = (.failed failure, session)) ∧
      session.use Generator.source (.command (.total "1 d 6")) =
        (.failed (.interrupted (.source (.exhausted 2))), session) ∧
      ((session.onSource (.fixed 1)).use Generator.source (.command (.total "0 d 6"))).1 =
        (session.use Generator.source (.command (.total "0 d 6"))).1 := by
  intro refused session
  have hscript := uses_script [4, 2] .empty ⟨.empty, {}⟩ [.command (.total "3 d 6"), refused]
  have hused : session.used = 2 := by decide +kernel
  have hrefused : refused.Refused session.dictionary := .inr (by decide +kernel)
  refine ⟨⟨hused, hrefused⟩, hscript.1.1.trans (congrArg (List.take · [4, 2]) hused),
    hscript.2.2.1 refused hrefused, ?_, ?_⟩
  · obtain ⟨h, -⟩ | h := hscript.2.2.2 hused (.command (.total "1 d 6"))
    · exact h
    · have hdrawn : ((session.onSource (.fixed 1)).use Generator.source
          (.command (.total "1 d 6"))).2.used = 3 := by decide +kernel
      have hsame := (h Generator.source (.fixed 1)).2
      rw [hdrawn] at hsame
      cases hsame.trans hused
  · obtain ⟨h, -⟩ | h := hscript.2.2.2 hused (.command (.total "0 d 6"))
    · have hanswer : (session.use Generator.source (.command (.total "0 d 6"))).1 = .total 0 := by
        decide +kernel
      rw [h] at hanswer
      cases hanswer
    · exact (h Generator.source (.fixed 1)).1

end Session

end DiceArithmetic
