import Mathlib.Data.List.Forall2
import DiceArithmetic.Proofs.Evaluation.Width

/-!
# Variables as they are offered and as they are bound

A caller offers scalars and an evaluator binds integers. `Bindings.IsCopyOf` says what the one has to
do with the other, without a word on how the scalars are checked; `Evaluator.prepare_eq_ok_iff` says
that an evaluator is prepared with such a copy, and `Evaluator.exists_prepare_iff` when there is one.
The variables of an evaluator are a copy of themselves, so offering them anew changes nothing; see
`Evaluator.withLimits_of_isNarrow`.
-/

namespace DiceArithmetic

namespace Bindings

section Traverse

variable {α β ε : Type} {f : String → α → Except ε β} {error : ε}

theorem map_fst_eq {results : List (String × β)} {entries : List (String × α)}
    (h : List.Forall₂ (fun result entry ↦ result.1 = entry.1) results entries) :
    results.map Prod.fst = entries.map Prod.fst := by
  rwa [← List.forall₂_eq_eq_eq, List.forall₂_map_left_iff, List.forall₂_map_right_iff]

/-- A fallible function gives these results just when it gives each of them for its entry. -/
theorem traverseEntries_eq_ok_iff {entries : List (String × α)}
    {results : { results : List (String × β) // results.map Prod.fst = entries.map Prod.fst }} :
    traverseEntries f entries = .ok results ↔
      List.Forall₂ (fun result entry ↦ result.1 = entry.1 ∧ f entry.1 entry.2 = .ok result.2)
        results.val entries := by
  induction entries with
  | nil =>
      obtain ⟨results, hsame⟩ := results
      obtain rfl : results = [] := List.map_eq_nil_iff.1 hsame
      exact iff_of_true rfl .nil
  | cons entry rest ih =>
      obtain ⟨name, value⟩ := entry
      obtain ⟨_ | ⟨⟨bound, result⟩, results⟩, hsame⟩ := results
      · cases hsame
      · rw [List.forall₂_cons, traverseEntries]
        obtain ⟨rfl, hrest⟩ := List.cons.inj hsame
        constructor
        · intro h
          split at h
          next => cases h
          next first hfirst =>
              split at h
              next => cases h
              next behind hbehind hrests =>
                  cases h
                  exact ⟨⟨rfl, hfirst⟩, ih.1 hrests⟩
        · rintro ⟨⟨-, hfirst⟩, hrests⟩
          have hbehind : traverseEntries f rest = .ok ⟨results, hrest⟩ := ih.2 hrests
          rw [hfirst, hbehind]

/-- A fallible function gives results for all entries just when it gives one for each. -/
theorem exists_traverseEntries_iff {entries : List (String × α)} :
    (∃ results, traverseEntries f entries = .ok results) ↔
      ∀ entry ∈ entries, ∃ result, f entry.1 entry.2 = .ok result := by
  induction entries with
  | nil => exact iff_of_true ⟨_, rfl⟩ nofun
  | cons entry rest ih =>
      obtain ⟨name, value⟩ := entry
      rw [List.forall_mem_cons, ← ih, traverseEntries]
      constructor
      · rintro ⟨results, h⟩
        split at h
        next => cases h
        next first hfirst =>
            split at h
            next => cases h
            next hrests => exact ⟨⟨first, hfirst⟩, _, hrests⟩
      · rintro ⟨⟨first, hfirst⟩, ⟨results, hsame⟩, hrests⟩
        dsimp only at hfirst
        rw [hfirst, hrests]
        exact ⟨_, rfl⟩

theorem traverse_eq_ok_iff {bindings : Bindings α} {results : Bindings β} :
    bindings.traverse f = .ok results ↔
      List.Forall₂ (fun result entry ↦ result.1 = entry.1 ∧ f entry.1 entry.2 = .ok result.2)
        results.entries bindings.entries := by
  unfold traverse
  constructor
  · intro h
    split at h
    next => cases h
    next hresults =>
        cases h
        exact traverseEntries_eq_ok_iff.1 hresults
  · intro h
    have hsame : results.entries.map Prod.fst = bindings.entries.map Prod.fst :=
      map_fst_eq (h.imp fun _ _ ↦ And.left)
    have hresults : traverseEntries f bindings.entries = .ok ⟨results.entries, hsame⟩ :=
      traverseEntries_eq_ok_iff.2 h
    rw [hresults]

theorem exists_traverse_iff {bindings : Bindings α} :
    (∃ results, bindings.traverse f = .ok results) ↔
      ∀ entry ∈ bindings.entries, ∃ result, f entry.1 entry.2 = .ok result := by
  rw [← exists_traverseEntries_iff]
  unfold traverse
  constructor
  · rintro ⟨results, h⟩
    split at h
    next => cases h
    next hresults => exact ⟨_, hresults⟩
  · rintro ⟨⟨results, hsame⟩, h⟩
    rw [h]
    exact ⟨_, rfl⟩

/-- A fallible function fails on entries just when it fails on one of them and on none before. -/
theorem traverseEntries_eq_error_iff {entries : List (String × α)} :
    traverseEntries f entries = .error error ↔
      ∃ earlier name value later, entries = earlier ++ (name, value) :: later ∧
        (∀ entry ∈ earlier, ∃ result, f entry.1 entry.2 = .ok result) ∧
        f name value = .error error := by
  induction entries with
  | nil =>
      constructor
      · intro h
        cases h
      · rintro ⟨earlier, name, value, later, h, -⟩
        exact absurd h.symm (List.append_ne_nil_of_right_ne_nil _ (List.cons_ne_nil _ _))
  | cons entry rest ih =>
      obtain ⟨first, offered⟩ := entry
      rw [traverseEntries]
      constructor
      · intro h
        split at h
        next failure hfailure =>
            cases h
            exact ⟨[], first, offered, rest, rfl, List.forall_mem_nil _, hfailure⟩
        next result hresult =>
            split at h
            next failure hrest =>
                cases h
                obtain ⟨earlier, name, value, later, rfl, hearlier, hvalue⟩ := ih.1 hrest
                exact ⟨(first, offered) :: earlier, name, value, later, rfl,
                  List.forall_mem_cons.2 ⟨⟨result, hresult⟩, hearlier⟩, hvalue⟩
            next => cases h
      · rintro ⟨earlier, name, value, later, hentries, hearlier, hvalue⟩
        rcases List.cons_eq_append_iff.1 hentries with ⟨rfl, h⟩ | ⟨earlier, rfl, rfl⟩
        · obtain ⟨⟨rfl, rfl⟩, rfl⟩ := List.cons.inj h
          rw [hvalue]
        · obtain ⟨⟨result, hresult⟩, hearlier⟩ := List.forall_mem_cons.1 hearlier
          dsimp only at hresult
          rw [hresult, ih.2 ⟨earlier, name, value, later, rfl, hearlier, hvalue⟩]

theorem traverse_eq_error_iff {bindings : Bindings α} :
    bindings.traverse f = .error error ↔
      ∃ earlier name value later, bindings.entries = earlier ++ (name, value) :: later ∧
        (∀ entry ∈ earlier, ∃ result, f entry.1 entry.2 = .ok result) ∧
        f name value = .error error := by
  rw [← traverseEntries_eq_error_iff]
  unfold traverse
  cases traverseEntries f bindings.entries with
  | error => simp
  | ok => simp

/-- A fallible function that does not tell entries of the same name apart has the same outcome on
them. -/
theorem map_val_traverseEntries_congr {entries others : List (String × α)}
    (h : List.Forall₂ (fun entry other ↦ entry.1 = other.1 ∧ f entry.1 entry.2 = f other.1 other.2)
      entries others) :
    (traverseEntries f entries).map Subtype.val = (traverseEntries f others).map Subtype.val := by
  induction h with
  | nil => rfl
  | @cons entry other entries others hentry _ ih =>
      obtain ⟨name, value⟩ := entry
      obtain ⟨_, replaced⟩ := other
      obtain ⟨rfl, hvalue⟩ := hentry
      dsimp only at hvalue
      rw [traverseEntries, traverseEntries, hvalue]
      cases f name replaced with
      | error => rfl
      | ok result =>
          dsimp only
          revert ih
          cases traverseEntries f entries <;> cases traverseEntries f others <;> intro ih
          case error.error =>
              cases ih
              rfl
          case ok.ok =>
              have hresults := Except.ok.inj ih
              exact congrArg (fun results ↦ Except.ok ((name, result) :: results)) hresults
          all_goals cases ih

theorem traverse_congr {bindings others : Bindings α}
    (h : List.Forall₂ (fun entry other ↦ entry.1 = other.1 ∧ f entry.1 entry.2 = f other.1 other.2)
      bindings.entries others.entries) :
    bindings.traverse f = others.traverse f := by
  have hsame := map_val_traverseEntries_congr h
  unfold traverse
  revert hsame
  cases traverseEntries f bindings.entries <;> cases traverseEntries f others.entries <;>
    intro hsame
  case error.error =>
      cases hsame
      rfl
  case ok.ok results replaced =>
      obtain ⟨results, hresults⟩ := results
      obtain ⟨replaced, hreplaced⟩ := replaced
      obtain rfl : results = replaced := Except.ok.inj hsame
      rfl
  all_goals cases hsame

end Traverse

/-- The bindings have the names for which something is offered, in the same order, and the integers
that the scalars stand for, all of which are narrow. -/
def IsCopyOf (bindings : Bindings Int) (offered : Bindings Scalar) : Prop :=
  List.Forall₂ (fun bound entry ↦
      bound.1 = entry.1 ∧ entry.2.toInt? = some bound.2 ∧ IsNarrow bound.2)
    bindings.entries offered.entries

/-- All scalars offered stand for narrow integers. -/
def Acceptable (offered : Bindings Scalar) : Prop :=
  ∀ entry ∈ offered.entries, ∃ value ∈ entry.2.toInt?, IsNarrow value

instance (offered : Bindings Scalar) : Decidable offered.Acceptable :=
  inferInstanceAs (Decidable (∀ _ ∈ _, _))

variable {bindings : Bindings Int} {offered : Bindings Scalar}

/-- A copy is narrow. -/
theorem IsCopyOf.isNarrow (h : bindings.IsCopyOf offered) :
    ∀ entry ∈ bindings.entries, IsNarrow entry.2 := by
  have hnarrow : List.Forall₂ (fun bound entry ↦ IsNarrow bound.2 ∧ bound.1 = entry.1)
      bindings.entries offered.entries := h.imp fun _ _ h ↦ ⟨h.2.2, h.1⟩
  exact ((List.forall₂_and_left _ _).1 hnarrow).1

/-- Narrow integers are a copy of themselves. -/
theorem isCopyOf_map_integer (h : ∀ entry ∈ bindings.entries, IsNarrow entry.2) :
    bindings.IsCopyOf (bindings.map .integer) := by
  unfold IsCopyOf map
  rw [List.forall₂_map_right_iff, List.forall₂_same]
  exact fun entry hmem ↦ ⟨rfl, rfl, h entry hmem⟩

end Bindings

namespace Evaluator

variable {offered : Bindings Scalar} {limits : Limits} {evaluator : Evaluator}

theorem accept_eq_ok_iff {name : String} {scalar : Scalar} {value : Int} :
    accept name scalar = .ok value ↔ scalar.toInt? = some value ∧ IsNarrow value := by
  unfold accept
  cases scalar.toInt? with
  | none => exact ⟨nofun, nofun⟩
  | some integer =>
      rw [Option.some.injEq]
      exact narrow_eq_ok_iff

/-- An evaluator is prepared with a copy of what is offered and with the limits given. -/
theorem prepare_eq_ok_iff :
    prepare offered limits = .ok evaluator ↔
      evaluator.bindings.IsCopyOf offered ∧ evaluator.limits = limits := by
  have hcopy (bindings : Bindings Int) :
      offered.traverse accept = .ok bindings ↔ bindings.IsCopyOf offered := by
    simp only [Bindings.traverse_eq_ok_iff, accept_eq_ok_iff]
    rfl
  unfold prepare
  constructor
  · intro h
    split at h
    next bindings htraverse =>
        cases h
        exact ⟨(hcopy bindings).1 htraverse, rfl⟩
    next => cases h
  · rintro ⟨hbindings, rfl⟩
    rw [(hcopy _).2 hbindings]

/-- An evaluator is prepared just when all that is offered is acceptable. -/
theorem exists_prepare_iff :
    (∃ evaluator, prepare offered limits = .ok evaluator) ↔ offered.Acceptable := by
  have haccept (entry : String × Scalar) :
      (∃ value, accept entry.1 entry.2 = .ok value) ↔
        ∃ value ∈ entry.2.toInt?, IsNarrow value :=
    exists_congr fun value ↦ accept_eq_ok_iff
  have htraverse : (∃ bindings, offered.traverse accept = .ok bindings) ↔ offered.Acceptable := by
    rw [Bindings.exists_traverse_iff]
    simp only [haccept]
    rfl
  refine Iff.trans ?_ htraverse
  unfold prepare
  constructor
  · rintro ⟨evaluator, h⟩
    split at h
    next bindings hbindings => exact ⟨bindings, hbindings⟩
    next => cases h
  · rintro ⟨bindings, h⟩
    rw [h]
    exact ⟨_, rfl⟩

/-- Under other limits an evaluator with narrow variables keeps them. -/
theorem withLimits_of_isNarrow (h : ∀ entry ∈ evaluator.bindings.entries, IsNarrow entry.2)
    (limits : Limits) : evaluator.withLimits limits = .ok { evaluator with limits } :=
  prepare_eq_ok_iff.2 ⟨Bindings.isCopyOf_map_integer h, rfl⟩

end Evaluator

end DiceArithmetic
