import DiceArithmetic.Proofs.Scalar
import DiceArithmetic.Random.Generator

/-!
# Variables are checked before anything is drawn

All that is offered is checked, in order, whether or not a tree needs it, and the first scalar that
cannot be bound is the error: `Evaluator.prepare_eq_error_iff`. A line is read before the check and
evaluated behind it. `Evaluation.ofLine_checks` says what this means for a line: neither the limits
nor the tree nor what is offered later can change such an error, nothing has been drawn by then, and
a float does as well as the integer of its value.
-/

namespace DiceArithmetic

namespace Bindings

/-- The scalar is offered for the name and cannot be bound, while all that is offered before it
can. -/
def IsFirstRefused (offered : Bindings Scalar) (name : String) (scalar : Scalar) : Prop :=
  ∃ earlier later, offered.entries = earlier ++ (name, scalar) :: later ∧
    (∀ entry ∈ earlier, entry.2.IsBindable) ∧ ¬ scalar.IsBindable

end Bindings

namespace Evaluator

variable {offered others : Bindings Scalar} {limits : Limits} {evaluator : Evaluator}

/-- The first scalar that cannot be bound is the error. -/
theorem prepare_eq_error_iff {error : EvaluationError} :
    prepare offered limits = .error error ↔
      ∃ name scalar, offered.IsFirstRefused name scalar ∧ error = scalar.refusal name := by
  have htraverse : prepare offered limits = .error error ↔
      offered.traverse accept = .error error := by
    unfold prepare
    cases offered.traverse accept <;> simp
  rw [htraverse, Bindings.traverse_eq_error_iff]
  simp only [exists_accept_iff, accept_eq_error_iff]
  constructor
  · rintro ⟨earlier, name, scalar, later, hentries, hearlier, hrefused, rfl⟩
    exact ⟨name, scalar, ⟨earlier, later, hentries, hearlier, hrefused⟩, rfl⟩
  · rintro ⟨name, scalar, ⟨earlier, later, hentries, hearlier, hrefused⟩, rfl⟩
    exact ⟨earlier, name, scalar, later, hentries, hearlier, hrefused, rfl⟩

/-- An evaluator is prepared just when all that is offered can be bound. -/
theorem exists_prepare_iff_isBindable :
    (∃ evaluator, prepare offered limits = .ok evaluator) ↔
      ∀ entry ∈ offered.entries, entry.2.IsBindable := by
  simp only [exists_prepare_iff, Bindings.Acceptable, Scalar.isBindable_iff,
    ← Scalar.toInt?_eq_some_iff, Option.mem_def]

/-- Names are bound to what the scalars offered for them are worth. -/
theorem forall₂_isWorth_of_prepare (h : prepare offered limits = .ok evaluator) :
    List.Forall₂ (fun bound entry ↦ bound.1 = entry.1 ∧ entry.2.IsWorth bound.2)
      evaluator.bindings.entries offered.entries := by
  obtain ⟨hcopy, -⟩ := prepare_eq_ok_iff.1 h
  exact hcopy.imp fun _ _ hentry ↦ ⟨hentry.1, Scalar.toInt?_eq_some_iff.1 hentry.2.1⟩

/-- An evaluator is prepared with floats like with the integers that they have replaced. -/
theorem prepare_congr
    (h : List.Forall₂ (fun entry other ↦ entry.1 = other.1 ∧ entry.2.BecomesFloat other.2)
      offered.entries others.entries) (limits : Limits) :
    prepare offered limits = prepare others limits := by
  have htraverse : offered.traverse accept = others.traverse accept := by
    refine Bindings.traverse_congr (h.imp fun entry other hentry ↦ ⟨hentry.1, ?_⟩)
    rw [hentry.1]
    exact accept_of_becomesFloat _ hentry.2
  unfold prepare
  rw [htraverse]

end Evaluator

namespace Evaluation

/-- The check of variables succeeds or fails as a whole. A line that cannot be read fails as such,
whatever is offered. A line that can be read is evaluated just when all that is offered can be
bound, with each name bound to what is offered for it. Otherwise some scalar is the first that
cannot be bound, and with it the line fails before anything is drawn. An integer may always be
offered as a float. -/
theorem ofLine_checks {σ : Type} (source : Source σ) (state : σ) (offered : Bindings Scalar)
    (limits : Limits) (line : String) :
    (∀ error, Expression.ofString line = .error error →
      ofLine source state offered limits line = .error (.reading error) { source := state }) ∧
    (∀ expression, Expression.ofString line = .ok expression →
      ((∃ evaluator, Evaluator.prepare offered limits = .ok evaluator) ↔
        ∀ entry ∈ offered.entries, entry.2.IsBindable) ∧
      (∀ evaluator, Evaluator.prepare offered limits = .ok evaluator →
        evaluator.limits = limits ∧
          List.Forall₂ (fun bound entry ↦ bound.1 = entry.1 ∧ entry.2.IsWorth bound.2)
            evaluator.bindings.entries offered.entries ∧
          ofLine source state offered limits line =
            ofExpression evaluator source state line expression) ∧
      ((∃ entry ∈ offered.entries, ¬ entry.2.IsBindable) →
        ∃ name scalar, offered.IsFirstRefused name scalar) ∧
      ∀ name scalar, offered.IsFirstRefused name scalar →
        ofLine source state offered limits line =
          .error (.interrupted (.evaluation (scalar.refusal name))) { source := state }) ∧
    ∀ others : Bindings Scalar,
      List.Forall₂ (fun entry other ↦ entry.1 = other.1 ∧ entry.2.BecomesFloat other.2)
        offered.entries others.entries →
      ofLine source state others limits line = ofLine source state offered limits line := by
  refine ⟨?_, ?_, ?_⟩
  · intro error hread
    rw [ofLine, hread]
  · intro expression hread
    refine ⟨Evaluator.exists_prepare_iff_isBindable, ?_, ?_, ?_⟩
    · intro evaluator hprepare
      exact ⟨(Evaluator.prepare_eq_ok_iff.1 hprepare).2,
        Evaluator.forall₂_isWorth_of_prepare hprepare, ofLine_of_ok hread hprepare⟩
    · intro hrefused
      cases hprepare : Evaluator.prepare offered limits with
      | ok evaluator =>
          obtain ⟨entry, hmem, hentry⟩ := hrefused
          exact absurd (Evaluator.exists_prepare_iff_isBindable.1 ⟨evaluator, hprepare⟩ entry hmem)
            hentry
      | error error =>
          obtain ⟨name, scalar, hfirst, -⟩ := Evaluator.prepare_eq_error_iff.1 hprepare
          exact ⟨name, scalar, hfirst⟩
    · intro name scalar hfirst
      have hprepare : Evaluator.prepare offered limits = .error (scalar.refusal name) :=
        Evaluator.prepare_eq_error_iff.2 ⟨name, scalar, hfirst, rfl⟩
      rw [ofLine, hread]
      dsimp only
      rw [hprepare]
  · intro others hfloats
    unfold ofLine
    rw [Evaluator.prepare_congr hfloats limits]

/-- With a float, a truth value and nothing offered, `1 +` cannot be read, and `1 / 0` fails with
the truth value and not with the division. `a` is six from a float as from the integer. -/
theorem ofLine_checks_truth :
    let six : Binary64 := ⟨0x4018000000000000⟩
    let integer : Bindings Scalar := .ofList [("a", .integer 6)]
    let float : Bindings Scalar := .ofList [("a", .float six)]
    let mixed : Bindings Scalar :=
      .ofList [("a", .float six), ("b", .boolean true), ("c", .missing)]
    let error : SyntaxError := ⟨⟨3, 1, 4⟩, .unexpected .operand none⟩
    let named : Expression := .ofTerm (.ofFactor (.ofValue (.named "a")))
    let progress : Progress Generator := { source := .fixed 1 }
    let evaluate (offered : Bindings Scalar) (line : String) :=
      ofLine Generator.source (.fixed 1) offered {} line
    evaluate mixed "1 +" = .error (.reading (.grammatical error)) progress ∧
      evaluate mixed "1 / 0" =
        .error (.interrupted (.evaluation (.invalidVariable "b" (.boolean true)))) progress ∧
      evaluate float "a" = evaluate integer "a" ∧
      evaluate float "a" = .ok ⟨"a", named, 6, []⟩ progress := by
  intro six integer float mixed error named progress evaluate
  have hsix : six.toRat? = some ((6 : Int) : ℚ) :=
    Binary64.toInt?_eq_some_iff.1 (by decide +kernel)
  have hfirst : mixed.IsFirstRefused "b" (.boolean true) := by
    refine ⟨[("a", .float six)], [("c", .missing)], by decide +kernel, ?_, id⟩
    exact List.forall_mem_singleton.2 ⟨6, hsix⟩
  have hunread : Expression.ofString "1 +" = .error (.grammatical error) := by decide +kernel
  have hquotient : Expression.ofString "1 / 0" =
      .ok (.ofTerm (.product (.ofFactor (.ofValue (.number 1))) .divide
        (.ofValue (.number 0)))) := by
    decide +kernel
  have hnamed : Expression.ofString "a" = .ok named := by decide +kernel
  have hprepare : Evaluator.prepare float {} = .ok ⟨.ofList [("a", 6)], {}⟩ := by decide +kernel
  refine ⟨?_, ?_, ?_, ?_⟩
  · exact (ofLine_checks _ _ mixed {} "1 +").1 _ hunread
  · exact ((ofLine_checks _ _ mixed {} "1 / 0").2.1 _ hquotient).2.2.2 _ _ hfirst
  · exact (ofLine_checks _ _ integer {} "a").2.2 float (.cons ⟨rfl, .float 6 six hsix⟩ .nil)
  · exact (((ofLine_checks _ _ float {} "a").2.1 _ hnamed).2.1 _ hprepare).2.2

end Evaluation

end DiceArithmetic
