import Mathlib.Algebra.Order.BigOperators.Group.List
import DiceArithmetic.Proofs.Evaluation.Accounts
import DiceArithmetic.Proofs.Evaluation.Sources
import DiceArithmetic.Proofs.Random.Rejection
import DiceArithmetic.Random.Generator

/-!
# What dice show

A source keeps to the range if it meets every request for an integer from a range that is not empty
with one from that range, whatever was asked of it before. Dice thrown with such a source show their
faces: `Evaluator.run_faces`. A seeded twister is one, see `Generator.seeded_keepsToRange`; and it
does not keep to the range by giving up, see `Generator.draw_seeded`.
-/

namespace DiceArithmetic

variable {σ : Type} {source : Source σ} {state : σ}

namespace Source

/-- The state after a request, met or not. -/
def next (source : Source σ) (state : σ) (request : Int × Int) : σ :=
  match source.draw request.1 request.2 state with
  | .ok _ after => after
  | .error _ after => after

/-- The state after all these requests. -/
def after (source : Source σ) (state : σ) (requests : List (Int × Int)) : σ :=
  requests.foldl source.next state

/-- Whatever was asked of the source from this state on, it meets every request for an integer from
a range with one from that range. -/
def KeepsToRange (source : Source σ) (state : σ) : Prop :=
  ∀ requests low high, low ≤ high →
    ∃ value following, source.draw low high (source.after state requests) = .ok value following ∧
      low ≤ value ∧ value ≤ high

/-- A source that keeps to the range goes on doing so. -/
theorem KeepsToRange.exists_draw (h : source.KeepsToRange state) {low high : Int}
    (hrange : low ≤ high) :
    ∃ value following, source.draw low high state = .ok value following ∧
      low ≤ value ∧ value ≤ high ∧ source.KeepsToRange following := by
  obtain ⟨value, following, hdraw, hlow, hhigh⟩ := h [] low high hrange
  refine ⟨value, following, hdraw, hlow, hhigh, fun requests ↦ ?_⟩
  have hafter : source.after state ((low, high) :: requests) = source.after following requests := by
    rw [after, List.foldl_cons, next, show source.draw low high state = _ from hdraw]
    rfl
  rw [← hafter]
  exact h ((low, high) :: requests)

end Source

/-- A die was thrown and shows one of its faces. -/
structure Draw.IsFace (draw : Draw) : Prop where
  low_eq : draw.low = 1
  one_le : 1 ≤ draw.value
  le_high : draw.value ≤ draw.high

/-- Only faces were handed out, and the source goes on keeping to the range. -/
structure Recorded.HasFaces (source : Source σ) (recorded : Recorded σ) : Prop where
  keepsToRange : source.KeepsToRange recorded.state
  isFace : ∀ draw ∈ recorded.draws.toList, draw.IsFace

/-- A source that keeps to the range does not fail to throw a die, and the die shows a face. -/
theorem Source.recording_keeps_hasFaces (source : Source σ) :
    source.recording.Keeps (Recorded.HasFaces source) fun _ _ ↦ False := by
  intro sides recorded hsides hrecorded
  obtain ⟨value, following, hdraw, hlow, hhigh, hkeeps⟩ :=
    hrecorded.keepsToRange.exists_draw hsides
  simp only [recording, hdraw]
  refine ⟨hkeeps, fun draw hmem ↦ ?_⟩
  rw [Array.toList_push] at hmem
  rcases List.mem_append.1 hmem with hmem | hmem
  · exact hrecorded.isFace draw hmem
  · rw [List.mem_singleton.1 hmem]
    exact ⟨rfl, hlow, hhigh⟩

/-- Every die shows one of its faces, and all the dice together lie in between. -/
structure DiceRoll.ShowsFaces (roll : DiceRoll) : Prop where
  faces : ∀ face ∈ roll.faces, 1 ≤ face ∧ face ≤ roll.sides
  count_le : roll.count ≤ roll.subtotal
  le_product : roll.subtotal ≤ roll.count * roll.sides

/-- A complete roll whose draws are faces shows them. -/
theorem DiceRoll.Complete.showsFaces {limits : Limits} {roll : DiceRoll} (h : roll.Complete limits)
    (hdraws : ∀ draw ∈ roll.draws, draw.IsFace) : roll.ShowsFaces := by
  have hfaces (face : Int) (hface : face ∈ roll.faces) : 1 ≤ face ∧ face ≤ roll.sides := by
    have hdraw := hdraws ⟨1, roll.sides, face⟩ (List.mem_map.2 ⟨face, hface, rfl⟩)
    exact ⟨hdraw.one_le, hdraw.le_high⟩
  refine ⟨hfaces, ?_, ?_⟩
  · rw [h.subtotal_eq, ← h.length_eq]
    simpa using List.card_nsmul_le_sum roll.faces 1 fun face hface ↦ (hfaces face hface).1
  · rw [h.subtotal_eq, ← h.length_eq]
    simpa using List.sum_le_card_nsmul roll.faces roll.sides fun face hface ↦ (hfaces face hface).2

namespace Evaluator

/-- Dice thrown with a source that keeps to the range show their faces. -/
theorem run_faces (evaluator : Evaluator) (expression : Expression)
    (h : source.KeepsToRange state) :
    match evaluator.run source.recording expression { state := state } with
    | .ok _ progress =>
        (∀ roll ∈ progress.rolls, roll.ShowsFaces) ∧
          ∀ draw ∈ progress.source.draws.toList, draw.IsFace
    | .error (.evaluation _) progress | .error (.untold _) progress =>
        ∀ draw ∈ progress.source.draws.toList, draw.IsFace
    | .error (.source _) _ => False := by
  have hleaves := evaluator.evaluate_keeps source.recording_keeps_hasFaces expression
    { source := { state := state } } ⟨h, nofun⟩
  have hbalanced := evaluator.run_balanced source expression { state := state }
  unfold run at hbalanced ⊢
  cases hrun : evaluator.evaluate source.recording expression { source := { state := state } } with
  | ok total progress =>
      rw [hrun] at hleaves hbalanced
      refine ⟨fun roll hroll ↦ ?_, hleaves.isFace⟩
      obtain ⟨-, hcomplete, hdraws, -⟩ := hbalanced
      refine (hcomplete roll hroll).showsFaces fun draw hdraw ↦ hleaves.isFace draw ?_
      rw [hdraws]
      refine List.mem_append_right _ (List.mem_flatMap.2 ⟨roll, ?_, hdraw⟩)
      exact List.mem_append_left _ hroll.val
  | error interruption progress =>
      rw [hrun] at hleaves
      cases interruption with
      | evaluation | untold => exact hleaves.isFace
      | source => exact hleaves

end Evaluator

namespace Generator

/-- What a seeded twister hands out lies in the range, and it stays a seeded twister. -/
theorem exists_draw_seeded (twister : Twister) {low high : Int} (hrange : low ≤ high) :
    ∃ value following, draw low high (.seeded twister) = .ok value (.seeded following) ∧
      low ≤ value ∧ value ≤ high := by
  have hbelow := @Twister.below_lt (high - low + 1).toNat (by omega) twister
  refine ⟨_, _, if_neg (by omega), ?_, ?_⟩
  · exact Int.le_add_of_nonneg_right (Int.natCast_nonneg _)
  · show low + ((Twister.below (high - low + 1).toNat twister).1 : Int) ≤ high
    omega

/-- What a seeded twister hands out is the first candidate that is accepted, if there is any. -/
theorem draw_seeded {twister : Twister} {low high : Int} {n : Nat} (hrange : low ≤ high)
    (hfirst : Twister.IsFirst (high - low + 1).toNat twister n) :
    draw low high (.seeded twister) =
      .ok (low + Twister.candidate (high - low + 1).toNat twister n)
        (.seeded (Twister.afterCandidates (high - low + 1).toNat twister (n + 1))) := by
  rw [draw, if_neg (by omega)]
  show EStateM.Result.ok (low + ((Twister.below (high - low + 1).toNat twister).1 : Int))
    (Generator.seeded (Twister.below (high - low + 1).toNat twister).2) = _
  rw [hfirst.below_eq]

/-- In no range as wide as the numbers of a line does a seeded twister reject for ever. -/
theorem exists_isFirst_seeded (twister : Twister) {low high : Int} (hrange : low ≤ high)
    (hwidth : high - low < 10 ^ Reading.maxDigits) :
    ∃ n, Twister.IsFirst (high - low + 1).toNat twister n := by
  have hlongest : 10 ^ Reading.maxDigits < 2 ^ 14336 := by decide +kernel
  refine Twister.exists_isFirst (by omega) (lt_of_le_of_lt ?_ hlongest) twister
  have hcast : ((10 ^ Reading.maxDigits : Nat) : Int) = 10 ^ Reading.maxDigits := by push_cast; rfl
  omega

/-- No request makes a seeded twister anything else. -/
theorem exists_seeded_of_after (twister : Twister) (requests : List (Int × Int)) :
    ∃ following, Generator.source.after (.seeded twister) requests = .seeded following := by
  induction requests generalizing twister with
  | nil => exact ⟨twister, rfl⟩
  | cons request requests ih =>
      obtain ⟨following, hnext⟩ :
          ∃ following, Generator.source.next (.seeded twister) request = .seeded following := by
        rcases lt_or_ge request.2 request.1 with hempty | hrange
        · refine ⟨twister, ?_⟩
          have hdraw : Generator.source.draw request.1 request.2 (.seeded twister) =
              .error .emptyRange (.seeded twister) := if_pos hempty
          rw [Source.next, hdraw]
        · obtain ⟨value, following, hdraw, -⟩ := exists_draw_seeded twister hrange
          refine ⟨following, ?_⟩
          have hsource : Generator.source.draw request.1 request.2 (.seeded twister) =
              .ok value (.seeded following) := hdraw
          rw [Source.next, hsource]
      rw [Source.after, List.foldl_cons, hnext]
      exact ih following

/-- A seeded twister keeps to the range. -/
theorem seeded_keepsToRange (twister : Twister) :
    Generator.source.KeepsToRange (.seeded twister) := by
  intro requests low high hrange
  obtain ⟨following, hafter⟩ := exists_seeded_of_after twister requests
  rw [hafter]
  obtain ⟨value, next, hdraw, hvalue⟩ := exists_draw_seeded following hrange
  exact ⟨value, .seeded next, hdraw, hvalue⟩

end Generator

/-- Dice stay on their faces with every source that keeps to the range, and a twister seeded with an
integer, a text or bytes is one, however wide the range. It hands out the first candidate that is
accepted, and there is one unless the range is wider than the numbers of a line. -/
theorem dice_show_faces :
    (∀ (σ : Type) (source : Source σ) (state : σ), source.KeepsToRange state →
      ∀ (evaluator : Evaluator) (expression : Expression),
        match evaluator.run source.recording expression { state := state } with
        | .ok _ progress =>
            (∀ roll ∈ progress.rolls, roll.ShowsFaces) ∧
              ∀ draw ∈ progress.source.draws.toList, draw.IsFace
        | .error (.evaluation _) progress | .error (.untold _) progress =>
            ∀ draw ∈ progress.source.draws.toList, draw.IsFace
        | .error (.source _) _ => False) ∧
      (∀ seed, Generator.source.KeepsToRange (.seeded (.ofInt seed))) ∧
      (∀ seed, Generator.source.KeepsToRange (.seeded (.ofString seed))) ∧
      (∀ seed, Generator.source.KeepsToRange (.seeded (.ofBytes seed))) ∧
      ∀ (twister : Twister) (low high : Int), low ≤ high →
        (∀ n, Twister.IsFirst (high - low + 1).toNat twister n →
          Generator.source.draw low high (.seeded twister) =
            .ok (low + Twister.candidate (high - low + 1).toNat twister n)
              (.seeded (Twister.afterCandidates (high - low + 1).toNat twister (n + 1)))) ∧
        (high - low < 10 ^ Reading.maxDigits →
          ∃ n, Twister.IsFirst (high - low + 1).toNat twister n) :=
  ⟨fun _ _ _ h evaluator expression ↦ evaluator.run_faces expression h,
    fun seed ↦ Generator.seeded_keepsToRange (.ofInt seed),
    fun seed ↦ Generator.seeded_keepsToRange (.ofString seed),
    fun seed ↦ Generator.seeded_keepsToRange (.ofBytes seed),
    fun twister _ _ hrange ↦ ⟨fun _ ↦ Generator.draw_seeded hrange,
      Generator.exists_isFirst_seeded twister hrange⟩⟩

end DiceArithmetic
