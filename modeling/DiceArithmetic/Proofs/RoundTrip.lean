import DiceArithmetic.Proofs.Decimal
import DiceArithmetic.Proofs.Grammar.Acceptance
import DiceArithmetic.Proofs.NormalForm

/-!
# Writing and reading are inverse

A tree is readable if a line of text can hold it: its numbers are not negative and not too long, its
names are made of letters, and its operators stand at their tiers. The trees that lines are read as
are the readable ones whose parentheses nest within the limit, and each of them is read back from
its own normal form.
-/

namespace DiceArithmetic

namespace Node

/-- A line of text can hold the tree. -/
def Readable {tier : Tier} : Node tier → Prop
  | .number value => 0 ≤ value ∧ value.natAbs < 10 ^ Reading.maxDigits
  | .named name => name.toList ≠ [] ∧ ∀ character ∈ name.toList, character.isAlpha
  | .parentheses inner => inner.Readable
  | .ofValue value => value.Readable
  | .power base exponent => base.Readable ∧ exponent.Readable
  | .ofFactor factor => factor.Readable
  | .product left op right => left.Readable ∧ op.isMultiplicative ∧ right.Readable
  | .ofTerm term => term.Readable
  | .sum left op right => left.Readable ∧ op.isAdditive ∧ right.Readable

end Node

namespace Lexeme

/-- The lexeme can be cut off a line, says something, and is written as in a normal form. -/
def Canonical (lexeme : Lexeme) : Prop :=
  lexeme.WellFormed ∧ lexeme.isSignificant ∧ lexeme.normal = lexeme

theorem canonical_punctuation {symbol : Char} (h : symbol ∈ symbols) :
    (punctuation symbol).Canonical :=
  ⟨h, rfl, rfl⟩

theorem canonical_operator (op : Operator) : op.lexeme.Canonical :=
  ⟨op.lexeme_wellFormed, by cases op <;> rfl, normal_operator op⟩

end Lexeme

namespace Node.Readable

open Lexeme

/-- A readable number is derived from its decimal digits. -/
theorem number {value : Int} (h : (Node.number value).Readable) :
    Derives [.number (toString value)] (Node.number value) ∧
      (Lexeme.number (toString value)).Canonical := by
  obtain ⟨hnonnegative, hsmall⟩ := h
  obtain ⟨magnitude, rfl⟩ := Int.eq_ofNat_of_zero_le hnonnegative
  have hread : Reading.decimalValue (toString (magnitude : Int)) = magnitude :=
    Reading.decimalValue_toString magnitude
  have hlength : (toString (magnitude : Int)).length ≤ Reading.maxDigits :=
    Reading.length_toString_le (by decide) hsmall
  refine ⟨?_, ⟨?_, ?_⟩, rfl, ?_⟩
  · simpa only [hread] using Derives.number (toString (magnitude : Int)) hlength
  · show (toString magnitude).toList ≠ []
    rw [Nat.toString_eq_repr, Nat.toList_repr]
    exact Nat.toDigits_ne_nil
  · exact Reading.isDigit_of_mem_toString
  · rw [normal, hread]
    rfl

/-- Canonical lexemes on either side of a canonical one. -/
theorem canonical_join {first second : List Lexeme} {between : Lexeme}
    (hfirst : ∀ lexeme ∈ first, lexeme.Canonical) (hbetween : between.Canonical)
    (hsecond : ∀ lexeme ∈ second, lexeme.Canonical) :
    ∀ lexeme ∈ first ++ between :: second, lexeme.Canonical := by
  intro lexeme hmem
  rcases List.mem_append.1 hmem with hmem | hmem
  · exact hfirst lexeme hmem
  · exact List.forall_mem_cons.2 ⟨hbetween, hsecond⟩ lexeme hmem

/-- A readable tree is derived from canonical lexemes. -/
theorem exists_derives {tier : Tier} {node : Node tier} (h : node.Readable) :
    ∃ lexemes, Derives lexemes node ∧ ∀ lexeme ∈ lexemes, lexeme.Canonical := by
  induction node with
  | number value => exact ⟨_, h.number.1, List.forall_mem_singleton.2 h.number.2⟩
  | named name => exact ⟨_, .named name, List.forall_mem_singleton.2 ⟨h, rfl, rfl⟩⟩
  | parentheses inner ih =>
      obtain ⟨lexemes, hderives, hcanonical⟩ := ih h
      have hopening : (Lexeme.punctuation '(').Canonical := canonical_punctuation (by decide)
      have hclosing : (Lexeme.punctuation ')').Canonical := canonical_punctuation (by decide)
      exact ⟨_, hderives.parentheses,
        List.forall_mem_cons.2 ⟨hopening, canonical_join hcanonical hclosing nofun⟩⟩
  | ofValue value ih =>
      obtain ⟨lexemes, hderives, hcanonical⟩ := ih h
      exact ⟨lexemes, hderives.ofValue, hcanonical⟩
  | power base exponent ihBase ihExponent =>
      obtain ⟨first, hfirst, hfirstCanonical⟩ := ihBase h.1
      obtain ⟨second, hsecond, hsecondCanonical⟩ := ihExponent h.2
      exact ⟨_, hfirst.power hsecond, canonical_join hfirstCanonical
        (canonical_punctuation (by decide)) hsecondCanonical⟩
  | ofFactor factor ih =>
      obtain ⟨lexemes, hderives, hcanonical⟩ := ih h
      exact ⟨lexemes, hderives.ofFactor, hcanonical⟩
  | product left op right ihLeft ihRight =>
      obtain ⟨first, hfirst, hfirstCanonical⟩ := ihLeft h.1
      obtain ⟨second, hsecond, hsecondCanonical⟩ := ihRight h.2.2
      exact ⟨_, hfirst.product h.2.1 hsecond, canonical_join hfirstCanonical
        (canonical_operator op) hsecondCanonical⟩
  | ofTerm term ih =>
      obtain ⟨lexemes, hderives, hcanonical⟩ := ih h
      exact ⟨lexemes, hderives.ofTerm, hcanonical⟩
  | sum left op right ihLeft ihRight =>
      obtain ⟨first, hfirst, hfirstCanonical⟩ := ihLeft h.1
      obtain ⟨second, hsecond, hsecondCanonical⟩ := ihRight h.2.2
      exact ⟨_, hfirst.sum h.2.1 hsecond, canonical_join hfirstCanonical
        (canonical_operator op) hsecondCanonical⟩

end Node.Readable

/-- A tree that is derived from well-formed lexemes is readable. -/
theorem Derives.readable {tier : Tier} {lexemes : List Lexeme} {node : Node tier}
    (h : Derives lexemes node) (hformed : ∀ lexeme ∈ lexemes, lexeme.WellFormed) :
    node.Readable := by
  induction h with
  | number digits hdigits =>
      have hall := (List.forall_mem_singleton.1 hformed).2
      refine ⟨Int.natCast_nonneg _, ?_⟩
      rw [Int.natAbs_natCast]
      exact (Reading.decimalValue_lt hall).trans_le (Nat.pow_le_pow_right (by decide) hdigits)
  | named name => exact hformed _ List.mem_cons_self
  | parentheses _ ih =>
      exact ih fun lexeme hmem ↦ hformed lexeme (.tail _ (List.mem_append_left _ hmem))
  | ofValue _ ih | ofFactor _ ih | ofTerm _ ih => exact ih hformed
  | power _ _ ihBase ihExponent =>
      obtain ⟨hbase, hexponent⟩ := List.forall_mem_append.1 hformed
      exact ⟨ihBase hbase, ihExponent (List.forall_mem_cons.1 hexponent).2⟩
  | product _ hop _ ihLeft ihRight | sum _ hop _ ihLeft ihRight =>
      obtain ⟨hleft, hright⟩ := List.forall_mem_append.1 hformed
      exact ⟨ihLeft hleft, hop, ihRight (List.forall_mem_cons.1 hright).2⟩

namespace Expression

/-- A readable tree is read back from its normal form. -/
theorem ofLine_render {allowance : Allowance} {expression : Expression}
    (h : expression.Readable) (hadmits : allowance.Admits expression.nesting) :
    ofLine allowance expression.render = .ok expression := by
  obtain ⟨lexemes, hderives, hcanonical⟩ := h.exists_derives
  have hnormal : lexemes.map Lexeme.normal = lexemes :=
    calc lexemes.map Lexeme.normal
        = lexemes.map id := List.map_congr_left fun lexeme hmem ↦ (hcanonical lexeme hmem).2.2
      _ = lexemes := List.map_id lexemes
  have hsays : (Lexed.ofString expression.render).Says lexemes := by
    rw [Lexed.ofString, hderives.render_eq_spaced, hnormal]
    exact Lexed.scan_spaced lexemes (fun lexeme hmem ↦
      ⟨(hcanonical lexeme hmem).1, (hcanonical lexeme hmem).2.1⟩) .start
  obtain ⟨tokens, hsignificant, htokens⟩ := Lexed.says_iff.1 hsays
  exact ofLine_eq_ok_iff.2 ⟨tokens, hsignificant, htokens ▸ hderives, hadmits⟩

/-- A tree that a line is read as is readable. -/
theorem readable_of_ofLine {allowance : Allowance} {line : String} {expression : Expression}
    (h : ofLine allowance line = .ok expression) :
    expression.Readable ∧ allowance.Admits expression.nesting := by
  obtain ⟨tokens, hsignificant, hderives, hadmits⟩ := ofLine_eq_ok_iff.1 h
  refine ⟨hderives.readable ?_, hadmits⟩
  intro lexeme hmem
  obtain ⟨token, htoken, rfl⟩ := List.mem_map.1 hmem
  exact (Lexed.significant_wellFormed hsignificant token htoken).1

end Expression

/-- Every readable tree within the limit on nesting is read back from its normal form; lines are
read as these trees and no others; and reading a normal form and writing it again changes
nothing. -/
theorem ofString_render :
    (∀ expression : Expression,
      expression.Readable ∧ expression.nesting ≤ Reading.maxNesting →
      Expression.ofString expression.render = .ok expression) ∧
    (∀ expression : Expression,
      (∃ line, Expression.ofString line = .ok expression) ↔
        expression.Readable ∧ expression.nesting ≤ Reading.maxNesting) ∧
    (∀ (line : String) (expression : Expression),
      Expression.ofString line = .ok expression →
      (Expression.ofString expression.render).map Node.render = .ok expression.render) := by
  have hwritten (expression : Expression)
      (h : expression.Readable ∧ expression.nesting ≤ Reading.maxNesting) :
      Expression.ofString expression.render = .ok expression :=
    Expression.ofLine_render h.1 h.2
  have hread (line : String) (expression : Expression)
      (h : Expression.ofString line = .ok expression) :
      expression.Readable ∧ expression.nesting ≤ Reading.maxNesting :=
    Expression.readable_of_ofLine h
  refine ⟨hwritten, ?_, ?_⟩
  · intro expression
    constructor
    · rintro ⟨line, h⟩
      exact hread line expression h
    · intro h
      exact ⟨expression.render, hwritten expression h⟩
  · intro line expression h
    rw [hwritten expression (hread line expression h)]
    rfl

/-- The tree of `2 ^ (d - 07) d x`, as the line is read and as its normal form is. -/
theorem ofString_render_dice :
    let expression : Expression :=
      .sum
        (.ofTerm (.ofFactor (.power (.number 2) (.parentheses
          (.sum (.ofTerm (.ofFactor (.ofValue (.named "d")))) .subtract
            (.ofFactor (.ofValue (.number 7))))))))
        .roll (.ofFactor (.ofValue (.named "x")))
    (expression.Readable ∧ expression.nesting ≤ Reading.maxNesting) ∧
      Expression.ofString expression.render = .ok expression ∧
      Expression.ofString "2^(d-07)d x" = .ok expression ∧
      (Expression.ofString expression.render).map Node.render = .ok expression.render := by
  intro expression
  have hread : Expression.ofString "2^(d-07)d x" = .ok expression := by decide +kernel
  have hreadable : expression.Readable ∧ expression.nesting ≤ Reading.maxNesting := by
    have hname : "d".toList ≠ [] ∧ ∀ character ∈ "d".toList, character.isAlpha :=
      ⟨by decide, List.all_eq_true.mp rfl⟩
    have hother : "x".toList ≠ [] ∧ ∀ character ∈ "x".toList, character.isAlpha :=
      ⟨by decide, List.all_eq_true.mp rfl⟩
    have hdigit (digit : Nat) (h : digit < 10 ^ 1) : digit < 10 ^ Reading.maxDigits :=
      h.trans_le (Nat.pow_le_pow_right (by decide) (by decide))
    exact ⟨⟨⟨⟨by decide, hdigit 2 (by decide)⟩, hname, rfl, by decide, hdigit 7 (by decide)⟩,
      rfl, hother⟩, by decide⟩
  exact ⟨hreadable, ofString_render.1 expression hreadable, hread,
    ofString_render.2.2 _ expression hread⟩

end DiceArithmetic
