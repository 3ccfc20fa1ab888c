import DiceArithmetic.Proofs.Variables

/-!
# An evaluation and the names in its tree

No operand is skipped, so an evaluation that succeeds has looked up every name in its tree
(`Evaluator.mem_names_of_evaluate`), and one that finds a name not bound has come to the first such
name (`Evaluator.find?_names_of_evaluate`). It looks up nothing else: evaluators that agree on the
names of a tree evaluate it alike (`Evaluator.evaluate_congr`). `Evaluator.run_names` says all this
of variables as they are offered.
-/

namespace DiceArithmetic

/-- The names in a tree, each as often as it occurs, in the order in which they are looked up. -/
def Node.names {tier : Tier} : Node tier → List String
  | .number _ => []
  | .named name => [name]
  | .parentheses inner => inner.names
  | .ofValue value => value.names
  | .power base exponent => base.names ++ exponent.names
  | .ofFactor factor => factor.names
  | .product left _ right => left.names ++ right.names
  | .ofTerm term => term.names
  | .sum left _ right => left.names ++ right.names

theorem EvaluationError.fault_eq_undefinedVariable_iff {error : EvaluationError} :
    error.fault = .undefinedVariable ↔ ∃ name, error = .undefinedVariable name := by
  cases error <;> simp [fault]

namespace Bindings

variable {bindings : Bindings Int} {offered : Bindings Scalar}

/-- A copy has the same names. -/
theorem IsCopyOf.names_eq (h : bindings.IsCopyOf offered) : bindings.names = offered.names :=
  map_fst_eq (h.imp fun _ _ ↦ And.left)

/-- A copy has for a name the integer that the scalar offered for it stands for. -/
theorem IsCopyOf.get?_eq (h : bindings.IsCopyOf offered) (name : String) :
    bindings.get? name = (offered.get? name).bind Scalar.toInt? := by
  unfold IsCopyOf at h
  unfold get?
  generalize bindings.entries = bound, offered.entries = entries at h
  induction h with
  | nil => rfl
  | @cons bound entry _ _ hentry _ ih =>
      obtain ⟨key, value⟩ := bound
      obtain ⟨_, scalar⟩ := entry
      obtain ⟨⟨⟩, hvalue, -⟩ := hentry
      rw [List.lookup_cons, List.lookup_cons]
      cases name == key with
      | true => exact hvalue.symm
      | false => exact ih

end Bindings

namespace Step

variable {σ α β γ : Type} {before after : Progress σ} {interruption : Interruption}

/-- If what is made of two operands is not interrupted in this way, one of the operands is: the
first, or else the second. -/
theorem operand_of_eq_error {first : Step σ α} {second : Step σ β} {next : α → β → Step σ γ}
    (hnext : ∀ left right ready, next left right ready ≠ .error interruption after)
    (h : (first >>= fun left ↦ second >>= next left) before = .error interruption after) :
    first before = .error interruption after ∨
      ∃ left middle, first before = .ok left middle ∧
        second middle = .error interruption after := by
  rcases bind_eq_error_iff.1 h with h | ⟨left, middle, hleft, h⟩
  · exact .inl h
  rcases bind_eq_error_iff.1 h with h | ⟨right, ready, -, h⟩
  · exact .inr ⟨left, middle, hleft, h⟩
  · exact absurd h (hnext left right ready)

end Step

namespace Evaluator

variable {σ : Type} {evaluator : Evaluator} {source : Source σ} {before after : Progress σ}

theorem lookUp_eq_error_iff {name : String} {error : EvaluationError} :
    evaluator.lookUp name = .error error ↔
      error = .undefinedVariable name ∧ name ∉ evaluator.bindings.names := by
  rw [← Bindings.get?_eq_none_iff]
  unfold lookUp
  cases evaluator.bindings.get? name <;> simp [eq_comm]

/-- No power is short of a name. -/
theorem fault_of_power {base exponent : Int} {error : EvaluationError}
    (h : power base exponent = .error error) : error.fault ≠ .undefinedVariable := by
  unfold power at h
  split at h
  next =>
      obtain ⟨rfl, -⟩ := narrow_eq_error_iff.1 h
      nofun
  next =>
      cases h
      nofun

/-- No operator is short of a name. -/
theorem fault_of_apply {op : Operator} {left right : Int} {error : EvaluationError}
    (h : evaluator.apply source op left right before = .error (.evaluation error) after) :
    error.fault ≠ .undefinedVariable := by
  rcases Step.bind_eq_error_iff.1 h with h | ⟨_, _, -, h⟩
  · rcases fault_of_combine h with hfault | hfault <;> rw [hfault] <;> nofun
  · obtain ⟨hnarrow, -⟩ := Step.ofExcept_eq_evaluation_iff.1 h
    obtain ⟨rfl, -⟩ := narrow_eq_error_iff.1 hnarrow
    nofun

/-- If a tree has a value, all names in it are bound. -/
theorem mem_names_of_evaluate {tier : Tier} {node : Node tier} {value : Int}
    (h : evaluator.evaluate source node before = .ok value after) :
    ∀ name ∈ node.names, name ∈ evaluator.bindings.names := by
  induction node generalizing before after value with
  | number => nofun
  | named name =>
      obtain ⟨hlookUp, -⟩ := Step.ofExcept_eq_ok_iff.1 h
      refine List.forall_mem_singleton.2 ?_
      by_contra hmem
      rw [lookUp_eq_error_iff.2 ⟨rfl, hmem⟩] at hlookUp
      cases hlookUp
  | parentheses _ ih | ofValue _ ih | ofFactor _ ih | ofTerm _ ih => exact ih h
  | power _ _ ihFirst ihSecond | product _ _ _ ihFirst ihSecond | sum _ _ _ ihFirst ihSecond =>
      obtain ⟨_, _, hfirst, h⟩ := Step.bind_eq_ok_iff.1 h
      obtain ⟨_, _, hsecond, -⟩ := Step.bind_eq_ok_iff.1 h
      exact List.forall_mem_append.2 ⟨ihFirst hfirst, ihSecond hsecond⟩

/-- The first unbound name of two operands, if an evaluation is short of it and what is made of the
operands is not. The second operand matters only when the first has a value, and so no unbound
names. -/
theorem find?_append_of_operands {firstTier secondTier : Tier} {first : Node firstTier}
    {second : Node secondTier} {next : Int → Int → Step σ Int} {name : String}
    (hfirst : evaluator.evaluate source first before =
        .error (.evaluation (.undefinedVariable name)) after →
      first.names.find? (· ∉ evaluator.bindings.names) = some name)
    (hsecond : ∀ middle, evaluator.evaluate source second middle =
        .error (.evaluation (.undefinedVariable name)) after →
      second.names.find? (· ∉ evaluator.bindings.names) = some name)
    (hnext : ∀ left right ready,
      next left right ready ≠ .error (.evaluation (.undefinedVariable name)) after)
    (h : (evaluator.evaluate source first >>= fun left ↦
        evaluator.evaluate source second >>= next left) before =
      .error (.evaluation (.undefinedVariable name)) after) :
    (first.names ++ second.names).find? (· ∉ evaluator.bindings.names) = some name := by
  rw [List.find?_append]
  rcases Step.operand_of_eq_error hnext h with h | ⟨left, middle, hleft, h⟩
  · rw [hfirst h, Option.some_or]
  · have hbound : first.names.find? (· ∉ evaluator.bindings.names) = none :=
      List.find?_eq_none.2 fun name hmem ↦ by simpa using mem_names_of_evaluate hleft name hmem
    rw [hbound, hsecond middle h, Option.none_or]

/-- The name that the evaluation of a tree is short of is the first in the tree that is not bound.
-/
theorem find?_names_of_evaluate {tier : Tier} {node : Node tier} {name : String}
    (h : evaluator.evaluate source node before =
      .error (.evaluation (.undefinedVariable name)) after) :
    node.names.find? (· ∉ evaluator.bindings.names) = some name := by
  induction node generalizing before after with
  | number => cases h
  | named other =>
      obtain ⟨hlookUp, -⟩ := Step.ofExcept_eq_evaluation_iff.1 h
      obtain ⟨⟨⟩, hunbound⟩ := lookUp_eq_error_iff.1 hlookUp
      exact List.find?_cons_of_pos (decide_eq_true hunbound)
  | parentheses _ ih | ofValue _ ih | ofFactor _ ih | ofTerm _ ih => exact ih h
  | power _ _ ihBase ihExponent =>
      refine find?_append_of_operands ihBase (fun _ ↦ ihExponent) (fun _ _ _ hpower ↦ ?_) h
      exact fault_of_power (Step.ofExcept_eq_evaluation_iff.1 hpower).1 rfl
  | product _ _ _ ihLeft ihRight | sum _ _ _ ihLeft ihRight =>
      refine find?_append_of_operands ihLeft (fun _ ↦ ihRight) (fun _ _ _ happly ↦ ?_) h
      exact fault_of_apply happly rfl

/-- Evaluators with the same limits that agree on the names in a tree evaluate it alike. -/
theorem evaluate_congr {other : Evaluator} (source : Source σ)
    (hlimits : evaluator.limits = other.limits) {tier : Tier} {node : Node tier}
    (hagree : ∀ name ∈ node.names, evaluator.bindings.get? name = other.bindings.get? name) :
    evaluator.evaluate source node = other.evaluate source node := by
  -- Of an evaluator, operators use the limits only.
  have happly (op : Operator) (left right : Int) :
      evaluator.apply source op left right = other.apply source op left right := by
    cases op <;> simp only [apply, combine, hlimits]
  induction node with
  | number => rfl
  | named name =>
      rw [evaluate, evaluate, lookUp, lookUp, hagree name (List.mem_singleton_self name)]
  | parentheses _ ih | ofValue _ ih | ofFactor _ ih | ofTerm _ ih => exact ih hagree
  | power _ _ ihBase ihExponent =>
      obtain ⟨hbase, hexponent⟩ := List.forall_mem_append.1 hagree
      rw [evaluate, evaluate, ihBase hbase, ihExponent hexponent]
  | product _ _ _ ihLeft ihRight | sum _ _ _ ihLeft ihRight =>
      obtain ⟨hleft, hright⟩ := List.forall_mem_append.1 hagree
      simp only [evaluate, ihLeft hleft, ihRight hright, happly]

/-- Take variables that are accepted, and any tree, source and limits. If the evaluation of the tree
is short of a name, that is the first name in the tree for which nothing is offered. If something is
offered for all names in the tree, the evaluation is short of none; if nothing is offered for one of
them, it has no value. Variables that stand for the same integers as far as the names in the tree
go, and are accepted too, lead to the same outcome, with the same rolls and the same draws. -/
theorem run_names {offered : Bindings Scalar} {limits : Limits}
    (hprepare : prepare offered limits = .ok evaluator) (source : Source σ)
    (expression : Expression) (state : σ) :
    (∀ error progress,
      evaluator.run source expression state = .error (.evaluation error) progress →
      error.fault = .undefinedVariable →
      ∃ name ∈ expression.names, name ∉ offered.names ∧ error.name? = some name ∧
        expression.names.find? (· ∉ offered.names) = some name) ∧
    ((∀ name ∈ expression.names, name ∈ offered.names) →
      ∀ error progress,
        evaluator.run source expression state = .error (.evaluation error) progress →
        error.fault ≠ .undefinedVariable) ∧
    ((∃ name ∈ expression.names, name ∉ offered.names) →
      ∀ total progress, evaluator.run source expression state ≠ .ok total progress) ∧
    ∀ others other, prepare others limits = .ok other →
      (∀ name ∈ expression.names,
        (offered.get? name).bind Scalar.toInt? = (others.get? name).bind Scalar.toInt?) →
      evaluator.run source expression state = other.run source expression state ∧
        evaluator.run source.recording expression ⟨state, #[]⟩ =
          other.run source.recording expression ⟨state, #[]⟩ := by
  obtain ⟨hcopy, hlimits⟩ := prepare_eq_ok_iff.1 hprepare
  have hfirst (error : EvaluationError) (progress : Progress σ)
      (hrun : evaluator.run source expression state = .error (.evaluation error) progress)
      (hfault : error.fault = .undefinedVariable) :
      ∃ name ∈ expression.names, name ∉ offered.names ∧ error.name? = some name ∧
        expression.names.find? (· ∉ offered.names) = some name := by
    obtain ⟨name, rfl⟩ := EvaluationError.fault_eq_undefinedVariable_iff.1 hfault
    have hfind := find?_names_of_evaluate hrun
    rw [hcopy.names_eq] at hfind
    have hunbound : name ∉ offered.names := by simpa using List.find?_some hfind
    exact ⟨name, List.mem_of_find?_eq_some hfind, hunbound, rfl, hfind⟩
  refine ⟨hfirst, fun hbound error progress hrun hfault ↦ ?_, ?_,
    fun others other hother hagree ↦ ?_⟩
  · obtain ⟨name, hmem, hunbound, -⟩ := hfirst error progress hrun hfault
    exact hunbound (hbound name hmem)
  · rintro ⟨name, hmem, hunbound⟩ total progress hrun
    exact hunbound (hcopy.names_eq ▸ mem_names_of_evaluate hrun name hmem)
  · obtain ⟨hotherCopy, hotherLimits⟩ := prepare_eq_ok_iff.1 hother
    have hbindings (name : String) (hmem : name ∈ expression.names) :
        evaluator.bindings.get? name = other.bindings.get? name := by
      rw [hcopy.get?_eq, hotherCopy.get?_eq, hagree name hmem]
    have hsame := hlimits.trans hotherLimits.symm
    exact ⟨congrFun (evaluate_congr source hsame hbindings) _,
      congrFun (evaluate_congr source.recording hsame hbindings) _⟩

/-- With six offered for `x`, the evaluation of `0 * X` has no value but is short of `X`. The one of
`2 d x` goes as it does with other names before and behind `x`, and with the float that is six. -/
theorem run_names_letters :
    let few : Bindings Scalar := .ofList [("x", .integer 6)]
    let more : Bindings Scalar :=
      .ofList [("y", .integer 0), ("x", .float ⟨0x4018000000000000⟩), ("Y", .integer (-1))]
    let evaluator : Evaluator := ⟨.ofList [("x", 6)], {}⟩
    let other : Evaluator := ⟨.ofList [("y", 0), ("x", 6), ("Y", -1)], {}⟩
    let product : Expression :=
      .ofTerm (.product (.ofFactor (.ofValue (.number 0))) .multiply (.ofValue (.named "X")))
    let dice : Expression :=
      .sum (.ofTerm (.ofFactor (.ofValue (.number 2)))) .roll (.ofFactor (.ofValue (.named "x")))
    (prepare few {} = .ok evaluator ∧ prepare more {} = .ok other) ∧
      (∀ total progress,
        evaluator.run Generator.source product (.fixed 1) ≠ .ok total progress) ∧
      (∃ error progress,
        evaluator.run Generator.source product (.fixed 1) = .error (.evaluation error) progress ∧
          error.fault = .undefinedVariable ∧ ∃ name ∈ product.names, error.name? = some name) ∧
      ∀ state,
        evaluator.run Generator.source dice state = other.run Generator.source dice state := by
  intro few more evaluator other product dice
  have hfew : prepare few {} = .ok evaluator := by decide +kernel
  have hmore : prepare more {} = .ok other := by decide +kernel
  have hshort : evaluator.run Generator.source product (.fixed 1) =
      .error (.evaluation (.undefinedVariable "X")) { source := .fixed 1 } := rfl
  have hproduct := run_names hfew Generator.source product (.fixed 1)
  obtain ⟨name, hmem, -, hname, -⟩ := hproduct.1 _ _ hshort rfl
  refine ⟨⟨hfew, hmore⟩, hproduct.2.2.1 ⟨"X", by decide, by decide⟩,
    ⟨_, _, hshort, rfl, name, hmem, hname⟩, fun state ↦ ?_⟩
  exact ((run_names hfew Generator.source dice state).2.2.2 more other hmore (by decide +kernel)).1

end Evaluator

end DiceArithmetic
