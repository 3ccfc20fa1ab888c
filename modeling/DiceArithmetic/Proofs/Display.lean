import DiceArithmetic.Proofs.Evaluation.Width
import DiceArithmetic.Proofs.NormalForm.Lexemes
import DiceArithmetic.Text.Numeral

/-!
# What a display says

The display of an evaluation is its line in normal form and its total, with an equals sign between
them. No expression is written with an equals sign, although it is a symbol that a line may have;
see `Node.Readable.mem_render`. So a display can be taken apart in one way only, and both of its
parts can be read back: `Evaluation.display_unambiguous`.
-/

namespace DiceArithmetic

/-- The text is a canonical numeral of the integer's magnitude, with a minus sign in front if the
integer is negative. -/
def Text.IsDecimal (text : String) (value : Int) : Prop :=
  ∃ numeral, IsCanonical numeral ∧ Nat.ofDigitChars 10 numeral 0 = value.natAbs ∧
    text.toList = if value < 0 then '-' :: numeral else numeral

/-- An integer is written in decimal. -/
theorem Text.isDecimal_toString (value : Int) : IsDecimal (toString value) value :=
  ⟨Nat.toDigits 10 value.natAbs, isCanonical_toDigits value.natAbs, Nat.ofDigitChars_ten_toDigits,
    Reading.toList_toString value⟩

/-- A text is the decimal form of one integer only. -/
theorem Text.IsDecimal.unique {text : String} {value other : Int} (h : IsDecimal text value)
    (hother : IsDecimal text other) : value = other := by
  obtain ⟨numeral, hnumeral, hvalue, htext⟩ := h
  obtain ⟨digits, hdigits, hvalueOther, htextOther⟩ := hother
  rw [htext] at htextOther
  -- No digit is a minus sign, so both integers have the same sign.
  have hminus {numeral : List Char} (hnumeral : IsCanonical numeral) (digits : List Char) :
      numeral ≠ '-' :: digits := by
    intro hsame
    have hdigit := hnumeral.2.1 '-' (hsame ▸ List.mem_cons_self)
    exact absurd hdigit (by decide)
  split at htextOther
  next hnegative =>
      split at htextOther
      next hotherNegative =>
          rw [(List.cons.inj htextOther).2, hvalueOther] at hvalue
          omega
      next => exact absurd htextOther.symm (hminus hdigits numeral)
  next hnonnegative =>
      split at htextOther
      next => exact absurd htextOther (hminus hnumeral digits)
      next hotherNonnegative =>
          rw [htextOther, hvalueOther] at hvalue
          omega

/-- A tree is written with spaces, letters, digits and the symbols of expressions. -/
theorem Node.Readable.mem_render {tier : Tier} {node : Node tier} (h : node.Readable)
    {character : Char} (hmem : character ∈ node.render.toList) :
    character = ' ' ∨ character.isAlpha ∨ character.isDigit ∨
      character ∈ Lexeme.expressionSymbols := by
  obtain ⟨lexemes, hderives, hcanonical⟩ := h.exists_derives
  have hnormal : lexemes.map Lexeme.normal = lexemes :=
    (List.map_congr_left fun lexeme hlexeme ↦ (hcanonical lexeme hlexeme).2.2).trans
      (List.map_id lexemes)
  rw [hderives.render_eq_spaced, hnormal] at hmem
  rcases Lexeme.mem_spaced hmem with hspace | ⟨lexeme, hlexeme, hmem⟩
  · exact .inl hspace
  obtain ⟨hformed, hsignificant, -⟩ := hcanonical lexeme hlexeme
  cases lexeme with
  | identifier name => exact .inr (.inl (hformed.2 character hmem))
  | number digits => exact .inr (.inr (.inl (hformed.2 character hmem)))
  | punctuation symbol =>
      rw [Lexeme.text, String.toList_singleton] at hmem
      obtain rfl := List.mem_singleton.1 hmem
      exact .inr (.inr (.inr (hderives.mem_expressionSymbols hlexeme)))
  | comment | whitespace => cases hsignificant

/-- No tree is written with an equals sign. -/
theorem Node.Readable.equals_not_mem_render {tier : Tier} {node : Node tier} (h : node.Readable) :
    '=' ∉ node.render.toList := by
  intro hmem
  rcases h.mem_render hmem with hspace | halpha | hdigit | hsymbol
  · exact absurd hspace (by decide)
  · exact absurd halpha (by decide)
  · exact absurd hdigit (by decide)
  · exact absurd hsymbol (by decide)

/-- No integer is written with an equals sign. -/
theorem equals_not_mem_toString (value : Int) : '=' ∉ (toString value).toList := by
  have hdigits : '=' ∉ Nat.toDigits 10 value.natAbs := fun hmem ↦
    absurd (Nat.isDigit_of_mem_toDigits (by decide) (by decide) hmem) (by decide)
  rw [Reading.toList_toString]
  split
  next => exact List.not_mem_cons_of_ne_of_not_mem (by decide) hdigits
  next => exact hdigits

/-- A text with nothing but a separator between two parts that do not have it can be taken apart at
a separator in one way only. -/
theorem eq_of_append_separator {separator : Char} {first second front behind : List Char}
    (hfirst : separator ∉ first) (hsecond : separator ∉ second)
    (h : front ++ separator :: behind = first ++ separator :: second) :
    front = first ∧ behind = second := by
  have hcount : (front ++ separator :: behind).count separator = 1 := by
    rw [h, List.count_append, List.count_cons_self, List.count_eq_zero_of_not_mem hfirst,
      List.count_eq_zero_of_not_mem hsecond]
  rw [List.count_append, List.count_cons_self] at hcount
  have hfront : separator ∉ front := List.count_eq_zero.1 (by omega)
  have hparts {front behind : List Char} (hfront : separator ∉ front) :
      (front ++ separator :: behind).takeWhile (· ≠ separator) = front := by
    refine Lexeme.takeWhile_run ?_ ?_
    · intro character hmem
      exact decide_eq_true fun hsame ↦ hfront (hsame ▸ hmem)
    · intro character hmem
      obtain rfl := Option.mem_some_iff.1 hmem
      exact decide_eq_false fun hne ↦ hne rfl
  have hsame : front = first := by rw [← hparts hfront, h, hparts hfirst]
  subst hsame
  exact ⟨rfl, (List.cons.inj (List.append_cancel_left h)).2⟩

namespace Evaluation

/-- The display has its equals sign between the normal form and the total, each with a space
beside it. -/
theorem toList_display (evaluation : Evaluation) :
    evaluation.display.toList =
      (evaluation.normalized ++ " ").toList ++
        '=' :: (" " ++ toString evaluation.total).toList := by
  simp [display]

variable {σ : Type} {source : Source σ} {state : σ} {offered : Bindings Scalar} {limits : Limits}
  {line : String} {evaluation : Evaluation} {progress : Progress σ}

/-- The line of an evaluation is read as its tree, which can be written on a line. -/
theorem read_of_ofLine (h : ofLine source state offered limits line = .ok evaluation progress) :
    Expression.ofString line = .ok evaluation.expression ∧ evaluation.expression.Readable := by
  obtain ⟨expression, evaluator, total, hread, -, -, rfl⟩ := ofLine_eq_ok_iff.1 h
  exact ⟨hread, (Expression.readable_of_ofLine hread).1⟩

/-- Neither part of a display has an equals sign. -/
theorem equals_not_mem_parts (h : evaluation.expression.Readable) :
    '=' ∉ (evaluation.normalized ++ " ").toList ∧
      '=' ∉ (" " ++ toString evaluation.total).toList := by
  rw [String.toList_append, String.toList_append, List.mem_append, List.mem_append, not_or, not_or]
  exact ⟨⟨h.equals_not_mem_render, by decide⟩, by decide, equals_not_mem_toString _⟩

/-- However a display is taken apart at an equals sign between spaces, the parts are the normal form
and the total. -/
theorem eq_of_display_eq (h : evaluation.expression.Readable) {front behind : String}
    (hdisplay : evaluation.display = front ++ " = " ++ behind) :
    front = evaluation.normalized ∧ behind = toString evaluation.total := by
  obtain ⟨hnormalized, htotal⟩ := equals_not_mem_parts h
  have hparts : (front ++ " ").toList ++ '=' :: (" " ++ behind).toList =
      (evaluation.normalized ++ " ").toList ++
        '=' :: (" " ++ toString evaluation.total).toList := by
    rw [← toList_display, hdisplay]
    simp
  obtain ⟨hfront, hbehind⟩ := eq_of_append_separator hnormalized htotal hparts
  rw [String.toList_inj] at hfront hbehind
  exact ⟨(String.append_left_inj _).1 hfront, (String.append_right_inj _).1 hbehind⟩

/-- The part of a display before the equals sign is read as the tree of the line. -/
theorem read_normalized (h : ofLine source state offered limits line = .ok evaluation progress) :
    Expression.ofString evaluation.normalized = .ok evaluation.expression := by
  obtain ⟨hread, hreadable⟩ := read_of_ofLine h
  exact Expression.ofLine_render hreadable (Expression.readable_of_ofLine hread).2

/-- A display is unambiguous. It has exactly one equals sign, and it can be taken apart at ` = `.
However that is done, the part before is read as the tree of the line, and the part behind is the
decimal form of the total. So evaluations with the same display, of whatever lines with whatever
variables, limits and sources, have the same tree and the same total. -/
theorem display_unambiguous :
    (∀ {σ : Type} (source : Source σ) (state : σ) (offered : Bindings Scalar) (limits : Limits)
        (line : String) (evaluation : Evaluation) (progress : Progress σ),
      ofLine source state offered limits line = .ok evaluation progress →
      evaluation.display.toList.count '=' = 1 ∧
        (∃ front behind, evaluation.display = front ++ " = " ++ behind) ∧
        ∀ front behind, evaluation.display = front ++ " = " ++ behind →
          Expression.ofString line = .ok evaluation.expression ∧
            Expression.ofString front = .ok evaluation.expression ∧
            Text.IsDecimal behind evaluation.total) ∧
    ∀ {σ τ : Type} (source : Source σ) (otherSource : Source τ) (state : σ) (otherState : τ)
        (offered otherOffered : Bindings Scalar) (limits otherLimits : Limits)
        (line otherLine : String) (evaluation other : Evaluation) (progress : Progress σ)
        (otherProgress : Progress τ),
      ofLine source state offered limits line = .ok evaluation progress →
      ofLine otherSource otherState otherOffered otherLimits otherLine =
        .ok other otherProgress →
      evaluation.display = other.display →
      evaluation.expression = other.expression ∧ evaluation.total = other.total := by
  refine ⟨?_, ?_⟩
  · intro σ source state offered limits line evaluation progress h
    obtain ⟨hread, hreadable⟩ := read_of_ofLine h
    obtain ⟨hnormalized, htotal⟩ := equals_not_mem_parts hreadable
    refine ⟨?_, ⟨_, _, rfl⟩, ?_⟩
    · rw [toList_display, List.count_append, List.count_cons_self,
        List.count_eq_zero_of_not_mem hnormalized, List.count_eq_zero_of_not_mem htotal]
    · intro front behind hdisplay
      obtain ⟨rfl, rfl⟩ := eq_of_display_eq hreadable hdisplay
      exact ⟨hread, read_normalized h, Text.isDecimal_toString _⟩
  · intro σ τ source otherSource state otherState offered otherOffered limits otherLimits line
      otherLine evaluation other progress otherProgress h hother hdisplay
    obtain ⟨-, hreadable⟩ := read_of_ofLine h
    -- The parts of the other display are parts of this one.
    obtain ⟨hnormalized, htotal⟩ := eq_of_display_eq hreadable hdisplay
    have hread := read_normalized h
    have hotherRead := read_normalized hother
    rw [hnormalized, hread] at hotherRead
    have hdecimal := Text.isDecimal_toString other.total
    rw [htotal] at hdecimal
    exact ⟨Except.ok.inj hotherRead, (Text.isDecimal_toString evaluation.total).unique hdecimal⟩

/-- `1d4`, and `01 d 4;=` with a limit of one die and with a variable that is not used, have the
same display, which ends with the decimal form of four. -/
theorem display_unambiguous_dice :
    let expression : Expression :=
      .sum (.ofTerm (.ofFactor (.ofValue (.number 1)))) .roll (.ofFactor (.ofValue (.number 4)))
    let evaluation (line : String) : Evaluation := ⟨line, expression, 4, [⟨1, 4, [4], 4⟩]⟩
    let progress : Progress Generator :=
      ⟨.fixed 4, #[⟨1, 4, [4], 4⟩], #[.rolling 1 4, .face 4 4]⟩
    let offered : Bindings Scalar := .ofList [("x", .integer 5)]
    (ofLine Generator.source (.fixed 4) .empty {} "1d4" = .ok (evaluation "1d4") progress ∧
      ofLine Generator.source (.fixed 4) offered ⟨some 1, none⟩ "01 d 4;=" =
        .ok (evaluation "01 d 4;=") progress ∧
      (evaluation "1d4").display = "1 d 4" ++ " = " ++ "4" ∧
      (evaluation "1d4").display = (evaluation "01 d 4;=").display) ∧
      Expression.ofString "1 d 4" = .ok expression ∧ Text.IsDecimal "4" 4 ∧
      (evaluation "1d4").expression = (evaluation "01 d 4;=").expression := by
  intro expression evaluation progress offered
  have hsmall : IsNarrow 4 :=
    (narrow_eq_ok_iff.1 (narrow_of_natAbs_lt (show 3 ≤ maxBits by decide) (by decide))).2
  have hrun (evaluator : Evaluator) (hallowed : evaluator.limits.objection? 1 4 = none) :
      evaluator.run Generator.source expression (.fixed 4) = .ok 4 progress := by
    refine Step.bind_eq_ok_iff.2 ⟨1, _, rfl, Step.bind_eq_ok_iff.2 ⟨4, _, rfl, ?_⟩⟩
    refine Evaluator.apply_eq_ok_iff.2 ⟨?_, hsmall⟩
    show Step.roll _ _ 1 4 _ = _
    rw [Step.roll, hallowed]
    rfl
  have hline : ofLine Generator.source (.fixed 4) .empty {} "1d4" =
      .ok (evaluation "1d4") progress :=
    ofLine_eq_ok_iff.2 ⟨expression, _, 4, by decide +kernel, rfl, hrun _ rfl, rfl⟩
  have hotherLine : ofLine Generator.source (.fixed 4) offered ⟨some 1, none⟩ "01 d 4;=" =
      .ok (evaluation "01 d 4;=") progress :=
    ofLine_eq_ok_iff.2 ⟨expression, ⟨.ofList [("x", 5)], ⟨some 1, none⟩⟩, 4, by decide +kernel,
      by decide +kernel, hrun _ rfl, rfl⟩
  have hdisplay : (evaluation "1d4").display = "1 d 4" ++ " = " ++ "4" := by decide +kernel
  obtain ⟨-, -, hparts⟩ := display_unambiguous.1 _ _ _ _ _ _ _ hline
  obtain ⟨-, hread, hdecimal⟩ := hparts "1 d 4" "4" hdisplay
  have hsame := display_unambiguous.2 _ _ _ _ _ _ _ _ _ _ _ _ _ _ hline hotherLine rfl
  exact ⟨⟨hline, hotherLine, hdisplay, rfl⟩, hread, hdecimal, hsame.1⟩

end Evaluation

end DiceArithmetic
