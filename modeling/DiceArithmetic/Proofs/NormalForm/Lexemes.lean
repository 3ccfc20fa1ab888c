import DiceArithmetic.Proofs.RoundTrip

/-!
# The normal form of a line from its lexemes

The normal form of a line that is read can be written without the tree: its lexemes that say
something are spaced, once the leading zeros of the numbers among them are taken away. So two lines
have the same tree just when these lexemes are the same, and a line is its own normal form just when
it is spaced already and nothing has to be taken away.
-/

namespace DiceArithmetic

namespace Lexeme

/-- The lexeme without the leading zeros of its number, if it is one. -/
def stripped : Lexeme → Lexeme
  | .number digits => .number (String.ofList (Reading.withoutLeadingZeros digits.toList))
  | lexeme => lexeme

/-- A number in decimal is the number without its leading zeros. -/
theorem WellFormed.normal_eq_stripped {lexeme : Lexeme} (h : lexeme.WellFormed) :
    lexeme.normal = lexeme.stripped := by
  cases lexeme with
  | number digits => rw [normal, stripped, Reading.toString_decimalValue h.2]
  | identifier | punctuation | comment | whitespace => rfl

theorem WellFormed.stripped {lexeme : Lexeme} (h : lexeme.WellFormed) :
    lexeme.stripped.WellFormed := by
  cases lexeme with
  | number digits =>
      rw [Lexeme.stripped, WellFormed, String.toList_ofList]
      exact ⟨Reading.withoutLeadingZeros_ne_nil _, Reading.isDigit_of_mem_withoutLeadingZeros h.2⟩
  | identifier | punctuation | comment | whitespace => exact h

theorem isSignificant_stripped (lexeme : Lexeme) :
    lexeme.stripped.isSignificant = lexeme.isSignificant := by
  cases lexeme <;> rfl

end Lexeme

namespace Lexed

open Lexeme

/-- What a line says is determined by the line. -/
theorem Says.unique {lexed : Lexed} {lexemes others : List Lexeme} (h : lexed.Says lexemes)
    (hother : lexed.Says others) : lexemes = others :=
  h.2.symm.trans hother.2

/-- What a line says is well formed. -/
theorem Says.wellFormed {line : String} {lexemes : List Lexeme}
    (h : (ofString line).Says lexemes) :
    ∀ lexeme ∈ lexemes, lexeme.WellFormed ∧ lexeme.isSignificant := by
  obtain ⟨tokens, hsignificant, rfl⟩ := says_iff.1 h
  intro lexeme hmem
  obtain ⟨token, htoken, rfl⟩ := List.mem_map.1 hmem
  exact significant_wellFormed hsignificant token htoken

/-- A line that is spaced has no comment. -/
theorem Says.ne_comment {line : String} {lexemes : List Lexeme}
    (h : (ofString line).Says lexemes) (hspaced : line.toList = spaced lexemes) :
    ∀ token ∈ (ofString line).tokens, ∀ text, token.lexeme ≠ .comment text := by
  intro token hmem text htext
  -- A comment would bring a semicolon into the line.
  obtain ⟨body, hbody, -⟩ : (Lexeme.comment text).WellFormed :=
    htext ▸ wellFormed_of_mem_scan token hmem
  have hsemicolon : ';' ∈ line.toList := by
    refine mem_of_mem_scan token hmem ';' ?_
    rw [htext, Lexeme.text, hbody]
    exact List.mem_cons_self
  rw [hspaced] at hsemicolon
  rcases mem_spaced hsemicolon with hspace | ⟨lexeme, hlexeme, hsemicolon⟩
  · exact absurd hspace (by decide)
  · obtain ⟨hformed, hsignificant⟩ := h.wellFormed lexeme hlexeme
    exact hformed.semicolon_not_mem hsignificant hsemicolon

end Lexed

namespace Expression

open Lexeme

/-- The normal form of a line is written from the lexemes that the line says, and says them itself,
both without leading zeros. -/
theorem says_of_ofString {line : String} {expression : Expression}
    (h : ofString line = .ok expression) :
    ∃ lexemes, (Lexed.ofString line).Says lexemes ∧
      expression.render = String.ofList (spaced (lexemes.map stripped)) ∧
      (Lexed.ofString expression.render).Says (lexemes.map stripped) := by
  obtain ⟨tokens, hsignificant, hderives, -⟩ := ofLine_eq_ok_iff.1 h
  have hsaid : (Lexed.ofString line).Says (tokens.map Token.lexeme) :=
    Lexed.says_iff.2 ⟨tokens, hsignificant, rfl⟩
  have hnormal : (tokens.map Token.lexeme).map normal = (tokens.map Token.lexeme).map stripped :=
    List.map_congr_left fun lexeme hmem ↦ (hsaid.wellFormed lexeme hmem).1.normal_eq_stripped
  have hrender : expression.render.toList = spaced ((tokens.map Token.lexeme).map stripped) := by
    rw [hderives.render_eq_spaced, hnormal]
  refine ⟨_, hsaid, by rw [← hrender, String.ofList_toList], ?_⟩
  rw [Lexed.ofString, hrender]
  refine Lexed.scan_spaced _ ?_ .start
  intro lexeme hmem
  obtain ⟨original, horiginal, rfl⟩ := List.mem_map.1 hmem
  obtain ⟨hformed, hsaid⟩ := hsaid.wellFormed original horiginal
  exact ⟨hformed.stripped, by rw [isSignificant_stripped, hsaid]⟩

/-- Trees that lines are read as are the same if their normal forms are. -/
theorem eq_of_render_eq {line other : String} {expression otherExpression : Expression}
    (h : ofString line = .ok expression) (hother : ofString other = .ok otherExpression)
    (hrender : expression.render = otherExpression.render) : expression = otherExpression := by
  have hread {line : String} {expression : Expression} (h : ofString line = .ok expression) :
      ofString expression.render = .ok expression :=
    ofLine_render (readable_of_ofLine h).1 (readable_of_ofLine h).2
  have hsame := hread h
  rw [hrender, hread hother] at hsame
  exact (Except.ok.inj hsame).symm

end Expression

open Lexeme in
/-- The normal form of a line that is read has the lexemes that the line says, without leading zeros
and in the same order, and nothing but the spaces between them. Two lines have the same tree just
when they say the same but for leading zeros. A line is its own normal form just when it is read, is
spaced already, and has no comment and no leading zeros. -/
theorem render_eq_spaced_stripped :
    (∀ (line : String) (expression : Expression), Expression.ofString line = .ok expression →
      ∃ lexemes, (Lexed.ofString line).Says lexemes ∧
        expression.render = String.ofList (spaced (lexemes.map stripped)) ∧
        (Lexed.ofString expression.render).Says (lexemes.map stripped)) ∧
    (∀ (line other : String) (expression otherExpression : Expression)
        (lexemes others : List Lexeme),
      Expression.ofString line = .ok expression →
      Expression.ofString other = .ok otherExpression →
      (Lexed.ofString line).Says lexemes → (Lexed.ofString other).Says others →
      (expression = otherExpression ↔ lexemes.map stripped = others.map stripped)) ∧
    (∀ line : String,
      (∃ expression, Expression.ofString line = .ok expression ∧ expression.render = line) ↔
        (∃ expression, Expression.ofString line = .ok expression) ∧
          (∀ token ∈ (Lexed.ofString line).tokens, ∀ text, token.lexeme ≠ .comment text) ∧
          ∃ lexemes, (Lexed.ofString line).Says lexemes ∧
            line = String.ofList (spaced lexemes) ∧
            ∀ lexeme ∈ lexemes, lexeme.stripped = lexeme) := by
  refine ⟨fun _ _ ↦ Expression.says_of_ofString, ?_, fun line ↦ ⟨?_, ?_⟩⟩
  · intro line other expression otherExpression lexemes others hread hother hsaid hothers
    obtain ⟨_, hline, hrender, hagain⟩ := Expression.says_of_ofString hread
    obtain rfl := hline.unique hsaid
    obtain ⟨_, hline, hotherRender, hotherAgain⟩ := Expression.says_of_ofString hother
    obtain rfl := hline.unique hothers
    constructor
    · rintro rfl
      exact hagain.unique hotherAgain
    · intro hsame
      refine Expression.eq_of_render_eq hread hother ?_
      rw [hrender, hsame, hotherRender]
  · rintro ⟨expression, hread, hfixed⟩
    obtain ⟨lexemes, hsaid, hrender, hagain⟩ := Expression.says_of_ofString hread
    rw [hfixed] at hrender hagain
    have hsame : lexemes.map stripped = lexemes := hagain.unique hsaid
    rw [hsame] at hrender
    have hspaced : line.toList = spaced lexemes := by rw [hrender, String.toList_ofList]
    refine ⟨⟨expression, hread⟩, hsaid.ne_comment hspaced, lexemes, hsaid, hrender, ?_⟩
    rw [← List.map_id lexemes, List.map_map, List.map_inj_left] at hsame
    exact hsame
  · rintro ⟨⟨expression, hread⟩, -, lexemes, hsaid, hspaced, hstripped⟩
    obtain ⟨_, hline, hrender, -⟩ := Expression.says_of_ofString hread
    obtain rfl := hline.unique hsaid
    refine ⟨expression, hread, ?_⟩
    rw [hrender, List.map_congr_left hstripped, List.map_id', ← hspaced]

open Lexeme in
/-- `007d( x );seven` says the same as `7 d (x)`, which is its normal form. -/
theorem render_eq_spaced_stripped_dice :
    let expression : Expression :=
      .sum (.ofTerm (.ofFactor (.ofValue (.number 7)))) .roll
        (.ofFactor (.ofValue (.parentheses (.ofTerm (.ofFactor (.ofValue (.named "x")))))))
    let behind : List Lexeme :=
      [.identifier "d", .punctuation '(', .identifier "x", .punctuation ')']
    (Expression.ofString "007d( x );seven" = .ok expression ∧
        Expression.ofString "7 d (x)" = .ok expression ∧
        (Lexed.ofString "007d( x );seven").Says (.number "007" :: behind) ∧
        (Lexed.ofString "7 d (x)").Says (.number "7" :: behind)) ∧
      (.number "007" :: behind).map stripped = (.number "7" :: behind).map stripped ∧
      (∃ lexemes, (Lexed.ofString "007d( x );seven").Says lexemes ∧
        expression.render = String.ofList (spaced (lexemes.map stripped)) ∧
        (Lexed.ofString expression.render).Says (lexemes.map stripped)) ∧
      ∃ expression, Expression.ofString "7 d (x)" = .ok expression ∧
        expression.render = "7 d (x)" := by
  intro expression behind
  have hread : Expression.ofString "007d( x );seven" = .ok expression := by decide +kernel
  have hother : Expression.ofString "7 d (x)" = .ok expression := by decide +kernel
  have hsaid : (Lexed.ofString "007d( x );seven").Says (.number "007" :: behind) :=
    ⟨by decide +kernel, by decide +kernel⟩
  have hothers : (Lexed.ofString "7 d (x)").Says (.number "7" :: behind) :=
    ⟨by decide +kernel, by decide +kernel⟩
  have hcomment : ∀ token ∈ (Lexed.ofString "7 d (x)").tokens, ∀ text,
      token.lexeme ≠ .comment text :=
    hothers.ne_comment (by decide +kernel)
  exact ⟨⟨hread, hother, hsaid, hothers⟩,
    (render_eq_spaced_stripped.2.1 _ _ _ _ _ _ hread hother hsaid hothers).1 rfl,
    render_eq_spaced_stripped.1 _ _ hread,
    (render_eq_spaced_stripped.2.2 _).2
      ⟨⟨expression, hother⟩, hcomment, _, hothers, by decide +kernel, by decide +kernel⟩⟩

end DiceArithmetic
