import DiceArithmetic.Proofs.Whitespace

/-!
# Comments

A comment can only end an expression. It goes on up to a comma, and a comma is a token that no
expression has; so in a line that is read, whatever stands behind the first semicolon is one
comment. `Lexed.scan_comment` says what a comment at the end of a line does to its tokens, and
`Expression.ofString_eq_of_comment` what it does to reading: it changes nothing but where the line
ends.
-/

namespace DiceArithmetic

/-- Of all lexemes only the comma has a comma. -/
theorem Lexeme.WellFormed.eq_comma_of_mem {lexeme : Lexeme} (hformed : lexeme.WellFormed)
    (hmem : ',' ∈ lexeme.text.toList) : lexeme = .punctuation ',' := by
  cases lexeme with
  | identifier name => exact absurd (hformed.2 ',' hmem) (by decide)
  | number digits => exact absurd (hformed.2 ',' hmem) (by decide)
  | punctuation symbol =>
      rw [text, String.toList_singleton] at hmem
      rw [List.mem_singleton.1 hmem]
  | comment text => exact absurd hmem hformed.comma_not_mem
  | whitespace text => exact absurd (hformed.2 ',' hmem) (by decide)

/-- Whether a text begins with a lexeme depends on its first character only. -/
theorem Lexeme.first?_cons_eq_none_iff {head : Char} {tail : List Char} :
    first? (head :: tail) = none ↔ head ≠ ';' ∧ ¬ IsPlain head := by
  constructor
  · intro h
    refine ⟨?_, ?_⟩
    · rintro rfl
      rw [first?_semicolon] at h
      cases h
    · obtain ⟨character, hstands, -, hplain⟩ := offends_of_first? h
      cases hstands
      exact hplain
  · rintro ⟨hsemicolon, hplain⟩
    unfold IsPlain at hplain
    simp only [not_or, Bool.not_eq_true] at hplain
    simp [first?, hsemicolon, hplain]

/-- The obstacle is the end of the line, or nesting that is too deep, which is reported there. -/
def Obstacle.isAtEnd : Obstacle → Bool
  | .unexpected _ none | .deepNesting => true
  | .unexpected _ (some _) | .longNumber _ => false

namespace Lexed

variable {position : Position} {front body : List Char} {line longer : String} {token : Token}

/-- One more token behind the others, if the text could be cut up to there. -/
def closedBy (lexed : Lexed) (token : Token) : Lexed :=
  match lexed.error? with
  | none => { lexed with tokens := lexed.tokens ++ [token] }
  | some _ => lexed

theorem tokens_closedBy {lexed : Lexed} (h : lexed.error? = none) :
    (lexed.closedBy token).tokens = lexed.tokens ++ [token] := by
  rw [closedBy, h]

theorem error?_closedBy (lexed : Lexed) (token : Token) :
    (lexed.closedBy token).error? = lexed.error? := by
  obtain ⟨tokens, error?⟩ := lexed
  cases error? <;> rfl

theorem cons_closedBy (lexed : Lexed) (first last : Token) :
    (lexed.closedBy last).cons first = (lexed.cons first).closedBy last := by
  obtain ⟨tokens, error?⟩ := lexed
  cases error? <;> rfl

/-- A last token that says nothing makes no difference to what is said. -/
theorem saying_closedBy (lexed : Lexed) (hsignificant : token.lexeme.isSignificant = false) :
    (lexed.closedBy token).saying = lexed.saying := by
  obtain ⟨tokens, error?⟩ := lexed
  cases error? with
  | none => simp [closedBy, saying, hsignificant]
  | some error => rfl

/-- A comment behind a text without one is cut off as one more token. -/
theorem scan_comment (hfront : ';' ∉ front) (hbody : ',' ∉ body) :
    scan position (front ++ ';' :: body) =
      (scan position front).closedBy
        ⟨.comment (String.ofList (';' :: body)), position.advance front⟩ := by
  fun_induction scan position front with
  | case1 position front lexeme rest hfirst hshorter ih =>
      obtain ⟨hformed, hends, rfl⟩ := Lexeme.first?_eq_some_iff.1 hfirst
      rw [List.mem_append, not_or] at hfront
      -- Only a comment would go on over the semicolon.
      have hbefore : lexeme.EndsBefore (rest ++ ';' :: body) := by
        cases rest with
        | cons head tail => exact hends
        | nil =>
            rintro character ⟨⟩
            cases lexeme with
            | identifier | number | punctuation | whitespace => rfl
            | comment text =>
                obtain ⟨_, htext, -⟩ := hformed
                refine absurd ?_ hfront.1
                rw [Lexeme.text, htext]
                exact List.mem_cons_self
      rw [List.append_assoc, scan_append hformed hbefore, ih hfront.2, cons_closedBy,
        Position.advance_append]
  | case2 position front hnone =>
      cases front with
      | nil =>
          have hcomment : (Lexeme.comment (String.ofList (';' :: body))).WellFormed := by
            refine ⟨body, String.toList_ofList, fun character hmem ↦ decide_eq_true ?_⟩
            rintro rfl
            exact hbody hmem
          have hscan := @scan_append position _ [] hcomment (Lexeme.endsBefore_nil _)
          rw [Lexeme.text, String.toList_ofList, List.append_nil, scan_nil] at hscan
          exact hscan
      | cons head tail =>
          have hlonger : Lexeme.first? (head :: tail ++ ';' :: body) = none :=
            Lexeme.first?_cons_eq_none_iff.2 (Lexeme.first?_cons_eq_none_iff.1 hnone)
          rw [scan_of_first?_eq_none hlonger]
          rfl

theorem ofString_comment (hline : ';' ∉ line.toList) (hbody : ',' ∉ body)
    (hlonger : longer.toList = line.toList ++ ';' :: body) :
    ofString longer =
      (ofString line).closedBy ⟨.comment (String.ofList (';' :: body)), .after line.toList⟩ := by
  rw [ofString, hlonger, scan_comment hline hbody, Position.advance_start]
  rfl

/-- No token begins at the end of the line. -/
theorem start_ne_after (hmem : token ∈ (ofString line).tokens) :
    token.start ≠ .after line.toList := by
  obtain ⟨front, rest, hline, hstart⟩ := exists_around_of_mem_scan token hmem
  obtain ⟨head, tail, htext, -⟩ := (wellFormed_of_mem_scan token hmem).exists_head
  rw [hstart, Position.advance_start, hline, htext]
  intro hsame
  have hlength := congrArg Position.offset hsame
  rw [Position.offset_after, Position.offset_after] at hlength
  simp at hlength

/-- No error stands at the end of the line. -/
theorem position_ne_after {error : LexicalError} (herror : (ofString line).error? = some error) :
    error.position ≠ .after line.toList := by
  intro hsame
  obtain ⟨-, -, hstands⟩ := error_isOf herror
  obtain ⟨hoffset, -⟩ := List.getElem?_eq_some_iff.1 hstands
  rw [hsame, Position.offset_after] at hoffset
  exact Nat.lt_irrefl _ hoffset

/-- What a line says does not change if places other than its end stay where they are. -/
theorem saying_mapPosition_of_ne_after {f : Position → Position}
    (h : ∀ position, position ≠ .after line.toList → f position = position) :
    (ofString line).saying.mapPosition f = (ofString line).saying := by
  have htokens : (ofString line).saying.tokens.map (Token.mapStart f) =
      (ofString line).saying.tokens := by
    refine (List.map_congr_left fun token hmem ↦ ?_).trans (List.map_id _)
    rw [Token.mapStart, h _ (start_ne_after (List.mem_filter.1 hmem).1)]
    rfl
  have herror : (ofString line).error?.map (LexicalError.mapPosition f) =
      (ofString line).error? := by
    cases herror : (ofString line).error? with
    | none => rfl
    | some error =>
        rw [Option.map_some, LexicalError.mapPosition, h _ (position_ne_after herror)]
  rw [mapPosition, htokens]
  show Lexed.mk _ ((ofString line).error?.map _) = _
  rw [herror]
  rfl

/-- A line that can be cut as a whole and has a comma has it as a token. -/
theorem comma_mem_of_mem (herror : (ofString line).error? = none) (hmem : ',' ∈ line.toList) :
    ∃ token ∈ (ofString line).tokens, token.lexeme = .punctuation ',' := by
  have htokenize := (@tokenize_iff_scan .start _ _).2 ⟨herror, rfl⟩
  rw [← htokenize.flatMap_eq] at hmem
  obtain ⟨lexeme, hlexeme, hcomma⟩ := List.mem_flatMap.1 hmem
  obtain ⟨token, htoken, rfl⟩ := List.mem_map.1 hlexeme
  exact ⟨token, htoken, (htokenize.wellFormed _ hlexeme).eq_comma_of_mem hcomma⟩

end Lexed

/-- A syntax error is at the end of the line just when its obstacle is the end or the nesting. -/
theorem SyntaxError.position_eq_after_iff {line : String} {error : SyntaxError}
    (herror : Expression.ofString line = .error (.grammatical error)) :
    error.position = .after line.toList ↔ error.obstacle.isAtEnd := by
  by_cases hnesting : error.obstacle = .deepNesting
  · exact iff_of_true (position_of_deepNesting herror hnesting) (by rw [hnesting]; rfl)
  obtain ⟨tokens, stop, hsignificant, -⟩ := Expression.ofLine_eq_error_iff.1 herror
  obtain ⟨before, remaining, stage, rfl, -, hrefuses, hobstacle, hposition⟩ :=
    exists_begins hsignificant herror hnesting
  rw [hobstacle, hposition]
  cases remaining with
  | nil =>
      refine iff_of_true rfl ?_
      unfold Stage.objection
      cases stage.due <;> rfl
  | cons token rest =>
      obtain ⟨-, htokens⟩ := Lexed.significant_eq_ok_iff.1 hsignificant
      have hmem : token ∈ before ++ token :: rest := by simp
      rw [htokens] at hmem
      refine iff_of_false (Lexed.start_ne_after (List.mem_filter.1 hmem).1) ?_
      rw [Stage.obstacle_objection hrefuses]
      split <;> exact Bool.false_ne_true

namespace Expression

/-- A line that is read has no comma. -/
theorem comma_not_mem {line : String} {expression : Expression}
    (h : ofString line = .ok expression) : ',' ∉ line.toList := by
  obtain ⟨tokens, hsignificant, hderives, -⟩ := ofLine_eq_ok_iff.1 h
  obtain ⟨herror, rfl⟩ := Lexed.significant_eq_ok_iff.1 hsignificant
  intro hmem
  obtain ⟨token, htoken, hcomma⟩ := Lexed.comma_mem_of_mem herror hmem
  have hsaid : token ∈ (Lexed.ofString line).tokens.filter (·.lexeme.isSignificant) :=
    List.mem_filter.2 ⟨htoken, by rw [hcomma]; rfl⟩
  have hlexeme := List.mem_map_of_mem (f := Token.lexeme) hsaid
  rw [hcomma] at hlexeme
  exact absurd (hderives.mem_expressionSymbols hlexeme) (by decide)

section Behind

variable {line longer : String} {body : List Char}

/-- A line with a comment behind it is read as without, but what is at the end of the one is at the
end of the other. -/
theorem ofString_eq_of_comment (hline : ';' ∉ line.toList) (hbody : ',' ∉ body)
    (hlonger : longer.toList = line.toList ++ ';' :: body) :
    ofString longer = (ofString line).mapError fun error ↦
      error.at (if error.position = .after line.toList then .after longer.toList
        else error.position) := by
  refine ofLine_of_saying (f := fun position ↦
    if position = .after line.toList then .after longer.toList else position) ?_ (if_pos rfl)
  rw [Lexed.saying_mapPosition_of_ne_after fun position hne ↦ if_neg hne,
    Lexed.ofString_comment hline hbody hlonger]
  exact Lexed.saying_closedBy _ rfl

theorem ofString_eq_ok_iff_of_comment (hline : ';' ∉ line.toList) (hbody : ',' ∉ body)
    (hlonger : longer.toList = line.toList ++ ';' :: body) {expression : Expression} :
    ofString longer = .ok expression ↔ ofString line = .ok expression := by
  rw [ofString_eq_of_comment hline hbody hlonger]
  cases ofString line <;> simp [Except.mapError]

theorem ofString_eq_lexical_iff_of_comment (hline : ';' ∉ line.toList) (hbody : ',' ∉ body)
    (hlonger : longer.toList = line.toList ++ ';' :: body) {error : LexicalError} :
    ofString longer = .error (.lexical error) ↔ ofString line = .error (.lexical error) := by
  unfold ofString
  rw [ofLine_eq_lexical_iff, ofLine_eq_lexical_iff, Lexed.ofString_comment hline hbody hlonger,
    Lexed.error?_closedBy]

/-- A syntax error stays where it is unless it is at the end. -/
theorem ofString_eq_grammatical_of_comment (hline : ';' ∉ line.toList) (hbody : ',' ∉ body)
    (hlonger : longer.toList = line.toList ++ ';' :: body) {error : SyntaxError}
    (herror : ofString line = .error (.grammatical error)) :
    ofString longer = .error (.grammatical
      (if error.obstacle.isAtEnd then { error with position := .after longer.toList }
        else error)) := by
  have hplace := SyntaxError.position_eq_after_iff herror
  rw [ofString_eq_of_comment hline hbody hlonger, herror]
  show Except.error (ReadingError.grammatical { error with
    position := if error.position = .after line.toList then .after longer.toList
      else error.position }) = _
  simp only [hplace]
  split <;> rfl

end Behind

/-- A comment can only end an expression. A line that is read has no comma, so from its first
semicolon on it is one comment, which is its last token, and what is before that is read as the same
tree. Conversely, take any line without a semicolon, and behind it a semicolon and any text without
a comma. The longer line is read as the same tree, or has the same lexical error, or the same syntax
error; only an error about the end of the line or about the nesting is at the end of the longer
one. -/
theorem ofString_commented :
    (∀ (line : String) (expression : Expression), ofString line = .ok expression →
      ',' ∉ line.toList ∧
        ∀ (shorter : String) (body : List Char), line.toList = shorter.toList ++ ';' :: body →
          ';' ∉ shorter.toList →
          (Lexed.ofString line).tokens = (Lexed.ofString shorter).tokens ++
              [⟨.comment (String.ofList (';' :: body)), .after shorter.toList⟩] ∧
            ofString shorter = .ok expression) ∧
    ∀ line comment : String, ';' ∉ line.toList → ',' ∉ comment.toList →
      let longer := line ++ ";" ++ comment
      (∀ expression, ofString longer = .ok expression ↔ ofString line = .ok expression) ∧
        (∀ error, ofString longer = .error (.lexical error) ↔
          ofString line = .error (.lexical error)) ∧
        ∀ error, ofString line = .error (.grammatical error) →
          ofString longer = .error (.grammatical
            (if error.obstacle.isAtEnd then { error with position := .after longer.toList }
              else error)) := by
  refine ⟨fun line expression hread ↦ ?_, fun line comment hline hcomment ↦ ?_⟩
  · have hcomma := comma_not_mem hread
    refine ⟨hcomma, fun shorter body hbehind hshorter ↦ ?_⟩
    rw [hbehind, List.mem_append, List.mem_cons, not_or, not_or] at hcomma
    have hbody : ',' ∉ body := hcomma.2.2
    have hfront := (ofString_eq_ok_iff_of_comment hshorter hbody hbehind).1 hread
    obtain ⟨tokens, hsignificant, -⟩ := ofLine_eq_ok_iff.1 hfront
    obtain ⟨hnone, -⟩ := Lexed.significant_eq_ok_iff.1 hsignificant
    refine ⟨?_, hfront⟩
    rw [Lexed.ofString_comment hshorter hbody hbehind, Lexed.tokens_closedBy hnone]
  · intro longer
    have hlonger : longer.toList = line.toList ++ ';' :: comment.toList := by
      simp [longer]
    exact ⟨fun expression ↦ ofString_eq_ok_iff_of_comment hline hcomment hlonger,
      fun error ↦ ofString_eq_lexical_iff_of_comment hline hcomment hlonger,
      fun error ↦ ofString_eq_grammatical_of_comment hline hcomment hlonger⟩

/-- The comment in `2 d x;é` may have any letters, and behind `2 d (x` one with a line feed moves
the complaint that a parenthesis is missing to the second line. -/
theorem ofString_commented_accents :
    let expression : Expression :=
      .sum (.ofTerm (.ofFactor (.ofValue (.number 2)))) .roll
        (.ofFactor (.ofValue (.named "x")))
    let error : SyntaxError := ⟨⟨6, 1, 7⟩, .unexpected .closing none⟩
    (ofString "2 d x;é" = .ok expression ∧ ';' ∉ "2 d x".toList) ∧
      ofString "2 d x" = .ok expression ∧
      (';' ∉ "2 d (x".toList ∧ ',' ∉ "é\n;=".toList ∧
        ofString "2 d (x" = .error (.grammatical error)) ∧
      ofString ("2 d (x" ++ ";" ++ "é\n;=") =
        .error (.grammatical { error with position := ⟨11, 2, 3⟩ }) := by
  intro expression error
  have hread : ofString "2 d x;é" = .ok expression := by decide +kernel
  have hshorter : ';' ∉ "2 d x".toList := by decide
  have hline : ';' ∉ "2 d (x".toList := by decide
  have hcomment : ',' ∉ "é\n;=".toList := by decide
  have herror : ofString "2 d (x" = .error (.grammatical error) := by decide +kernel
  obtain ⟨-, hbefore⟩ := ofString_commented.1 _ _ hread
  obtain ⟨-, -, hlonger⟩ := ofString_commented.2 _ _ hline hcomment
  refine ⟨⟨hread, hshorter⟩, (hbefore "2 d x" ['é'] rfl hshorter).2, ⟨hline, hcomment, herror⟩, ?_⟩
  rw [hlonger error herror]
  rfl

end Expression

end DiceArithmetic
