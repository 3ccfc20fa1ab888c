import DiceArithmetic.Proofs.Grammar.Acceptance
import DiceArithmetic.Proofs.Grammar.Stages
import DiceArithmetic.Proofs.Positions

/-!
# Whitespace between tokens

Blanks put in where a token begins or ends do not matter. `Lexed.Cut` says where a text may be cut
in two without cutting a lexeme, and `Cut.exists_front` that blanks put in there leave the tokens
that say something as they are, even where a comment or other blanks swallow them; only what is
behind them is moved. Reading goes by lexemes alone, see `Expression.ofTokens_mapStart`, so the
same holds of lines: `Expression.ofString_inserted`.
-/

namespace DiceArithmetic

/-- The token with its place mapped. -/
def Token.mapStart (f : Position → Position) (token : Token) : Token :=
  { token with start := f token.start }

/-- The error with its place mapped. -/
def LexicalError.mapPosition (f : Position → Position) (error : LexicalError) : LexicalError :=
  { error with position := f error.position }

namespace Lexed

/-- The tokens that say something, and the error. -/
def saying (lexed : Lexed) : Lexed :=
  { lexed with tokens := lexed.tokens.filter (·.lexeme.isSignificant) }

/-- More tokens in front. -/
def behind (front : List Token) (lexed : Lexed) : Lexed :=
  { lexed with tokens := front ++ lexed.tokens }

/-- The same tokens and error with their places mapped. -/
def mapPosition (f : Position → Position) (lexed : Lexed) : Lexed where
  tokens := lexed.tokens.map (Token.mapStart f)
  error? := lexed.error?.map (LexicalError.mapPosition f)

/-- The token that a lexeme makes if it says something. -/
def tokenOf (lexeme : Lexeme) (position : Position) : List Token :=
  if lexeme.isSignificant then [⟨lexeme, position⟩] else []

/-- The offset is that of the start or the end of a token, or of the error. -/
def IsBoundary (lexed : Lexed) (offset : Nat) : Prop :=
  (∃ token ∈ lexed.tokens, offset = token.start.offset ∨
      offset = token.start.offset + token.lexeme.text.length) ∨
    ∃ error ∈ lexed.error?, offset = error.position.offset

/-- A text may be cut in two here: what is in front are lexemes that are cut off before what is
behind. -/
inductive Cut : (front rest : List Char) → Prop where
  | here (rest : List Char) : Cut [] rest
  | behind {lexeme : Lexeme} {front rest : List Char} :
      Lexeme.first? (lexeme.text.toList ++ (front ++ rest)) = some (lexeme, front ++ rest) →
      Cut front rest → Cut (lexeme.text.toList ++ front) rest

section Scanning

variable {position : Position} {lexeme : Lexeme} {text front rest blanks : List Char}

theorem saying_cons (lexeme : Lexeme) (position : Position) (lexed : Lexed) :
    (lexed.cons ⟨lexeme, position⟩).saying = lexed.saying.behind (tokenOf lexeme position) := by
  by_cases h : lexeme.isSignificant <;> simp [saying, cons, Lexed.behind, tokenOf, h]

theorem offset_advance (position : Position) (text : List Char) :
    (position.advance text).offset = position.offset + text.length := by
  rw [Position.advance_eq_behind]
  rfl

/-- A boundary is a place where a text may be cut. -/
theorem exists_cut_of_isBoundary {offset : Nat} (h : (scan position text).IsBoundary offset) :
    ∃ front rest, text = front ++ rest ∧ Cut front rest ∧
      offset = position.offset + front.length := by
  fun_induction scan position text with
  | case1 position text lexeme rest hfirst hshorter ih =>
      have htext := Lexeme.first?_eq_append hfirst
      -- A boundary is the start of the first lexeme, its end, or a boundary of what is behind it.
      have hbehind (hrest : ∃ front behind, rest = front ++ behind ∧ Cut front behind ∧
          offset = position.offset + lexeme.text.toList.length + front.length) :
          ∃ front rest, text = front ++ rest ∧ Cut front rest ∧
            offset = position.offset + front.length := by
        obtain ⟨front, behind, rfl, hcut, hoffset⟩ := hrest
        refine ⟨lexeme.text.toList ++ front, behind, ?_, .behind (htext ▸ hfirst) hcut, ?_⟩
        · rw [htext, List.append_assoc]
        · rw [hoffset, List.length_append, Nat.add_assoc]
      rw [offset_advance] at ih
      rcases h with ⟨token, hmem, hoffset⟩ | herror
      · rcases List.mem_cons.1 hmem with rfl | hmem
        · rcases hoffset with hstart | hend
          · exact ⟨[], text, rfl, .here text, hstart⟩
          · rw [← String.length_toList] at hend
            exact hbehind ⟨[], rest, rfl, .here rest, hend⟩
        · exact hbehind (ih (.inl ⟨token, hmem, hoffset⟩))
      · exact hbehind (ih (.inr herror))
  | case2 position text hnone =>
      rcases h with ⟨_, hmem, -⟩ | ⟨error, herror, hoffset⟩
      · cases hmem
      · obtain ⟨character, -, rfl⟩ := Option.map_eq_some_iff.1 herror
        exact ⟨[], text, rfl, .here text, hoffset⟩

theorem behind_behind (first second : List Token) (lexed : Lexed) :
    (lexed.behind second).behind first = lexed.behind (first ++ second) := by
  rw [Lexed.behind, Lexed.behind, Lexed.behind, List.append_assoc]

/-- Blanks with no other blank behind them say nothing. -/
theorem saying_scan_run (hblanks : ∀ character ∈ blanks, character.isWhitespace)
    (hrest : ∀ character ∈ rest.head?, character.isWhitespace = false) :
    (scan position (blanks ++ rest)).saying = (scan (position.advance blanks) rest).saying := by
  cases blanks with
  | nil => rfl
  | cons head tail =>
      have hscan := @scan_append position (.whitespace (String.ofList (head :: tail))) rest
        ⟨by simp, by simpa using hblanks⟩ hrest
      rw [Lexeme.text, String.toList_ofList] at hscan
      rw [hscan, saying_cons]
      rfl

/-- Blanks say nothing, and neither do others behind them. -/
theorem saying_scan_blanks (hblanks : ∀ character ∈ blanks, character.isWhitespace) :
    (scan position (blanks ++ rest)).saying = (scan (position.advance blanks) rest).saying := by
  have hrun : ∀ character ∈ rest.takeWhile Char.isWhitespace, character.isWhitespace :=
    fun _ ↦ List.mem_takeWhile_imp
  have hothers := @Lexeme.head?_dropWhile _ Char.isWhitespace rest
  rw [← rest.takeWhile_append_dropWhile (p := Char.isWhitespace), ← List.append_assoc,
    saying_scan_run _ hothers, saying_scan_run hrun hothers, Position.advance_append]
  intro character hmem
  rcases List.mem_append.1 hmem with hmem | hmem
  · exact hblanks character hmem
  · exact hrun character hmem

/-- A comment goes on over blanks. -/
theorem isCommentBody_of_isWhitespace {character : Char} (h : character.isWhitespace) :
    Lexeme.isCommentBody character := by
  refine decide_eq_true ?_
  rintro rfl
  cases h

/-- Blanks behind a lexeme do not change what it says, even where they become a part of it. -/
theorem saying_scan_lexeme (hformed : lexeme.WellFormed) (hends : lexeme.EndsBefore rest)
    (hblanks : ∀ character ∈ blanks, character.isWhitespace) :
    (scan position (lexeme.text.toList ++ (blanks ++ rest))).saying =
      (scan (position.advance (lexeme.text.toList ++ blanks)) rest).saying.behind
        (tokenOf lexeme position) := by
  -- A lexeme that absorbs no blanks is cut off before them.
  have hapart (habsorbs : ∀ character, character.isWhitespace → lexeme.absorbs character = false) :
      (scan position (lexeme.text.toList ++ (blanks ++ rest))).saying =
        (scan (position.advance (lexeme.text.toList ++ blanks)) rest).saying.behind
          (tokenOf lexeme position) := by
    have hbefore : lexeme.EndsBefore (blanks ++ rest) := by
      cases blanks with
      | nil => exact hends
      | cons head tail =>
          rintro character ⟨⟩
          exact habsorbs head (hblanks head List.mem_cons_self)
    rw [scan_append hformed hbefore, saying_cons, saying_scan_blanks hblanks,
      Position.advance_append]
  cases lexeme with
  | identifier name => exact hapart fun _ hblank ↦ (Lexeme.blank_class hblank).2.1
  | number digits => exact hapart fun _ hblank ↦ (Lexeme.blank_class hblank).2.2.1
  | punctuation symbol => exact hapart fun _ _ ↦ rfl
  | comment text =>
      obtain ⟨body, htext, hbody⟩ := hformed
      have hlonger : (Lexeme.comment (String.ofList (text.toList ++ blanks))).WellFormed := by
        refine ⟨body ++ blanks, by rw [String.toList_ofList, htext, List.cons_append], ?_⟩
        intro character hmem
        rcases List.mem_append.1 hmem with hmem | hmem
        · exact hbody character hmem
        · exact isCommentBody_of_isWhitespace (hblanks character hmem)
      have hscan := @scan_append position _ _ hlonger hends
      rw [Lexeme.text, String.toList_ofList, List.append_assoc] at hscan
      rw [Lexeme.text, hscan, saying_cons]
      rfl
  | whitespace text =>
      rw [← List.append_assoc]
      refine saying_scan_blanks fun character hmem ↦ ?_
      rcases List.mem_append.1 hmem with hmem | hmem
      · exact hformed.2 character hmem
      · exact hblanks character hmem

/-- The token stands in front of something that is in front. -/
def StandsIn (token : Token) (position : Position) (front : List Char) : Prop :=
  ∃ before behind, front = before ++ behind ∧ behind ≠ [] ∧
    token.start = position.advance before

/-- Where a text is cut, blanks do not change what the front says, and only move the rest. -/
theorem Cut.exists_front (h : Cut front rest) (position : Position) :
    ∃ tokens : List Token, (∀ token ∈ tokens, StandsIn token position front) ∧
      ∀ blanks : List Char, (∀ character ∈ blanks, character.isWhitespace) →
        (scan position (front ++ (blanks ++ rest))).saying =
          (scan (position.advance (front ++ blanks)) rest).saying.behind tokens := by
  induction h generalizing position with
  | here rest => exact ⟨[], nofun, fun blanks hblanks ↦ saying_scan_blanks hblanks⟩
  | @behind lexeme front rest hfirst hcut ih =>
      obtain ⟨hformed, hends, -⟩ := Lexeme.first?_eq_some_iff.1 hfirst
      have hhead : ∀ token ∈ tokenOf lexeme position,
          StandsIn token position (lexeme.text.toList ++ front) := by
        intro token hmem
        unfold tokenOf at hmem
        split at hmem
        next =>
            obtain rfl := List.mem_singleton.1 hmem
            refine ⟨[], _, rfl, ?_, rfl⟩
            exact List.append_ne_nil_of_left_ne_nil (Lexeme.first?_text_ne_nil hfirst) front
        next => cases hmem
      cases front with
      | nil =>
          refine ⟨tokenOf lexeme position, hhead, fun blanks hblanks ↦ ?_⟩
          rw [List.append_nil]
          exact saying_scan_lexeme hformed hends hblanks
      | cons head tail =>
          obtain ⟨tokens, htokens, hscan⟩ := ih (position.advance lexeme.text.toList)
          refine ⟨tokenOf lexeme position ++ tokens, fun token hmem ↦ ?_, fun blanks hblanks ↦ ?_⟩
          · rcases List.mem_append.1 hmem with hmem | hmem
            · exact hhead token hmem
            · obtain ⟨before, behind, hfront, hne, hstart⟩ := htokens token hmem
              refine ⟨lexeme.text.toList ++ before, behind, ?_, hne, ?_⟩
              · rw [hfront, List.append_assoc]
              · rw [hstart, Position.advance_append]
          · have hbefore : lexeme.EndsBefore (head :: tail ++ (blanks ++ rest)) := hends
            rw [List.append_assoc, scan_append hformed hbefore, saying_cons, hscan blanks hblanks,
              behind_behind, ← Position.advance_append, ← List.append_assoc]

end Scanning

section Moving

variable {f : Position → Position} {position other : Position} {text front rest blanks : List Char}

theorem saying_mapPosition (f : Position → Position) (lexed : Lexed) :
    (lexed.mapPosition f).saying = lexed.saying.mapPosition f := by
  rw [saying, saying, mapPosition, mapPosition, List.filter_map]
  rfl

theorem behind_mapPosition (f : Position → Position) (tokens : List Token) (lexed : Lexed) :
    (lexed.behind tokens).mapPosition f =
      (lexed.mapPosition f).behind (tokens.map (Token.mapStart f)) := by
  rw [Lexed.behind, Lexed.behind, mapPosition, mapPosition, List.map_append]

theorem scan_of_first?_eq_none (h : Lexeme.first? text = none) :
    scan position text = ⟨[], text.head?.map fun character ↦ ⟨position, character⟩⟩ := by
  rw [scan]
  split
  next hfirst =>
      rw [h] at hfirst
      cases hfirst
  next => rfl

/-- A text is cut in the same way wherever it begins. -/
theorem scan_mapPosition (h : ∀ before behind, text = before ++ behind →
      f (position.advance before) = other.advance before) :
    scan other text = (scan position text).mapPosition f := by
  have hstart : f position = other := h [] text rfl
  fun_induction scan position text generalizing other with
  | case1 position text lexeme rest hfirst hshorter ih =>
      have htext := Lexeme.first?_eq_append hfirst
      have hrest := @ih (other.advance lexeme.text.toList) (fun before behind hbehind ↦ by
          rw [← Position.advance_append, ← Position.advance_append]
          exact h _ behind (by rw [htext, hbehind, List.append_assoc]))
        (h _ rest htext)
      rw [scan_of_first? hfirst, hrest, ← hstart]
      rfl
  | case2 position text hnone =>
      rw [scan_of_first?_eq_none hnone, ← hstart, mapPosition, Option.map_map]
      rfl

end Moving

end Lexed

/-- The offset of the same character once so many others are put in at an offset. -/
def shifted (offset length place : Nat) : Nat :=
  if place < offset then place else place + length

/-- The place in a text of what was at a place before so many characters were put in at an
offset. -/
def Position.moved (text : List Char) (offset length : Nat) (position : Position) : Position :=
  .after (text.take (shifted offset length position.offset))

section Moved

variable {front rest blanks before behind : List Char}

theorem Position.offset_after (text : List Char) : (Position.after text).offset = text.length :=
  rfl

/-- What is in front of the blanks stays where it is. -/
theorem moved_in_front (hfront : front = before ++ behind) (hbehind : behind ≠ []) :
    Position.moved (front ++ (blanks ++ rest)) front.length blanks.length (.after before) =
      .after before := by
  have hpositive := List.length_pos_iff.2 hbehind
  have hless : before.length < front.length := by
    rw [hfront, List.length_append]
    omega
  rw [Position.moved, Position.offset_after, shifted, if_pos hless, hfront, List.append_assoc,
    List.take_left]

/-- What is behind the blanks is moved by them. -/
theorem moved_behind (hrest : rest = before ++ behind) :
    Position.moved (front ++ (blanks ++ rest)) front.length blanks.length (.after (front ++ before)) =
      .after (front ++ blanks ++ before) := by
  have hoffset : shifted front.length blanks.length (front ++ before).length =
      (front ++ blanks ++ before).length := by
    simp only [shifted, List.length_append]
    rw [if_neg (by omega)]
    omega
  rw [Position.moved, Position.offset_after, hoffset, hrest, ← List.append_assoc,
    ← List.append_assoc, List.take_left]

/-- Where a text is cut, blanks only move what the text says. -/
theorem Lexed.Cut.saying_scan (h : Cut front rest)
    (hblanks : ∀ character ∈ blanks, character.isWhitespace) :
    (scan .start (front ++ (blanks ++ rest))).saying =
      (scan .start (front ++ rest)).saying.mapPosition
        (Position.moved (front ++ (blanks ++ rest)) front.length blanks.length) := by
  obtain ⟨tokens, htokens, hscan⟩ := h.exists_front .start
  have hplain := hscan [] nofun
  rw [List.nil_append, List.append_nil] at hplain
  have hmoved : scan (.advance .start (front ++ blanks)) rest =
      (scan (.advance .start front) rest).mapPosition
        (Position.moved (front ++ (blanks ++ rest)) front.length blanks.length) := by
    refine scan_mapPosition fun before behind hrest ↦ ?_
    rw [← Position.advance_append, ← Position.advance_append, Position.advance_start,
      Position.advance_start]
    exact moved_behind hrest
  have hkept : tokens.map (Token.mapStart
      (Position.moved (front ++ (blanks ++ rest)) front.length blanks.length)) = tokens := by
    refine (List.map_congr_left fun token hmem ↦ ?_).trans tokens.map_id
    obtain ⟨before, behind, hfront, hbehind, hstart⟩ := htokens token hmem
    rw [Position.advance_start] at hstart
    rw [Token.mapStart, hstart, moved_in_front hfront hbehind, ← hstart]
    rfl
  rw [hscan blanks hblanks, hplain, hmoved, saying_mapPosition, behind_mapPosition, hkept]

end Moved

section Reading

variable {f : Position → Position} {limit : Allowance} {tokens : List Token}

/-- Where reading stops, with the places of the tokens mapped. -/
def Stop.mapStart (f : Position → Position) (stop : Stop) : Stop :=
  { stop with remaining := stop.remaining.map (Token.mapStart f) }

/-- A stage has the same complaint about tokens wherever they stand. -/
theorem Stage.objection_mapStart (f : Position → Position) (stage : Stage) (tokens : List Token) :
    stage.objection (tokens.map (Token.mapStart f)) = (stage.objection tokens).mapStart f := by
  cases tokens <;> rfl

/-- Tokens cease to be the beginning of an expression at the same one wherever they stand. -/
theorem Stage.stop?_mapStart (f : Position → Position) (limit : Allowance) (stage : Stage)
    (tokens : List Token) :
    stage.stop? limit (tokens.map (Token.mapStart f)) =
      (stage.stop? limit tokens).map (Stop.mapStart f) := by
  induction tokens generalizing stage with
  | nil =>
      rw [List.map_nil, stop?]
      split <;> rfl
  | cons token rest ih =>
      rw [List.map_cons]
      cases hnext : stage.next? token.lexeme with
      | none =>
          have hmapped : stage.next? (token.mapStart f).lexeme = none := hnext
          rw [stop?_cons_of_none hnext, stop?_cons_of_none hmapped, ← List.map_cons,
            objection_mapStart, Option.map_some]
      | some next =>
          have hmapped : stage.next? (token.mapStart f).lexeme = some next := hnext
          by_cases hadmits : limit.Admits next.opened.length
          · rw [stop?_cons_of_some hnext hadmits, stop?_cons_of_some hmapped hadmits, ih next]
          · rw [stop?_cons_of_deep hnext hadmits, stop?_cons_of_deep hmapped hadmits]
            rfl

/-- Tokens are read in the same way wherever they stand. -/
theorem Expression.ofTokens_mapStart (f : Position → Position)
    (hformed : ∀ token ∈ tokens, token.lexeme.WellFormed) :
    ofTokens limit (tokens.map (Token.mapStart f)) =
      (ofTokens limit tokens).mapError (Stop.mapStart f) := by
  cases hread : ofTokens limit tokens with
  | error stop =>
      rw [ofTokens_eq_error_iff] at hread
      rw [Except.mapError, ofTokens_eq_error_iff, Stage.stop?_mapStart, hread]
      rfl
  | ok expression =>
      rw [ofTokens_eq_ok_iff hformed] at hread
      rw [Except.mapError, ofTokens_eq_ok_iff, List.map_map]
      · exact hread
      · intro token hmem
        obtain ⟨original, horiginal, rfl⟩ := List.mem_map.1 hmem
        exact hformed original horiginal

/-- Where the error is. -/
def ReadingError.position : ReadingError → Position
  | .lexical error => error.position
  | .grammatical error => error.position

/-- The same error at another place. -/
def ReadingError.at (error : ReadingError) (position : Position) : ReadingError :=
  match error with
  | .lexical error => .lexical { error with position }
  | .grammatical error => .grammatical { error with position }

/-- The error to report is the same, at the place mapped. -/
theorem Stop.toSyntaxError_mapStart {line longer : String}
    (hend : f (.after line.toList) = .after longer.toList) (stop : Stop) :
    (stop.mapStart f).toSyntaxError longer =
      { stop.toSyntaxError line with position := f (stop.toSyntaxError line).position } := by
  obtain ⟨obstacle, remaining⟩ := stop
  unfold mapStart toSyntaxError
  cases obstacle <;> cases remaining <;> simp [hend, Token.mapStart]

/-- What says the same at mapped places has the same tokens that say something, or the same error,
at the places mapped. -/
theorem Lexed.significant_of_saying {lexed longer : Lexed}
    (h : longer.saying = lexed.saying.mapPosition f) :
    longer.significant =
      match lexed.significant with
      | .error error => .error (error.mapPosition f)
      | .ok tokens => .ok (tokens.map (Token.mapStart f)) := by
  have herror : longer.error? = lexed.error?.map (LexicalError.mapPosition f) :=
    congrArg Lexed.error? h
  have htokens : longer.tokens.filter (·.lexeme.isSignificant) =
      (lexed.tokens.filter (·.lexeme.isSignificant)).map (Token.mapStart f) :=
    congrArg Lexed.tokens h
  unfold significant
  rw [herror, htokens]
  cases lexed.error? <;> rfl

/-- Lines that say the same at mapped places are read in the same way, with errors at the places
mapped. -/
theorem Expression.ofLine_of_saying {line longer : String}
    (hsaying : (Lexed.ofString longer).saying = (Lexed.ofString line).saying.mapPosition f)
    (hend : f (.after line.toList) = .after longer.toList) :
    ofLine limit longer = (ofLine limit line).mapError fun error ↦ error.at (f error.position) := by
  have hsignificant := Lexed.significant_of_saying hsaying
  unfold ofLine
  rw [hsignificant]
  cases hcut : (Lexed.ofString line).significant with
  | error error => rfl
  | ok tokens =>
      have hformed : ∀ token ∈ tokens, token.lexeme.WellFormed := fun token hmem ↦
        (Lexed.significant_wellFormed hcut token hmem).1
      dsimp only
      rw [ofTokens_mapStart f hformed]
      cases ofTokens limit tokens with
      | ok expression => rfl
      | error stop =>
          simp only [Except.mapError, Stop.toSyntaxError_mapStart hend]
          rfl

end Reading

/-- The line with more characters put in at an offset. -/
def inserted (line : String) (offset : Nat) (blanks : List Char) : String :=
  String.ofList (line.toList.take offset ++ (blanks ++ line.toList.drop offset))

/-- The place of a reported error is within the line. -/
theorem ReadingError.offset_le {line : String} {error : ReadingError}
    (h : Expression.ofString line = .error error) : error.position.offset ≤ line.toList.length := by
  cases error with
  | lexical error => exact (Lexed.error_isOf (Expression.ofLine_eq_lexical_iff.1 h)).1.offset_le
  | grammatical error => exact (SyntaxError.isOf h).offset_le

/-- A line with blanks put in at a boundary is read as before, and its errors are moved. -/
theorem Expression.ofString_inserted_eq {line : String} {offset : Nat} {blanks : List Char}
    (hboundary : (Lexed.ofString line).IsBoundary offset)
    (hblanks : ∀ character ∈ blanks, character.isWhitespace) :
    offset ≤ line.toList.length ∧
      ofString (inserted line offset blanks) = (ofString line).mapError fun error ↦
        error.at (error.position.moved (inserted line offset blanks).toList offset blanks.length) := by
  obtain ⟨front, rest, hline, hcut, hoffset⟩ := Lexed.exists_cut_of_isBoundary hboundary
  rw [Position.start, Nat.zero_add] at hoffset
  have hlonger : (inserted line offset blanks).toList = front ++ (blanks ++ rest) := by
    rw [inserted, String.toList_ofList, hline, hoffset, List.take_left, List.drop_left]
  refine ⟨?_, ofLine_of_saying ?_ ?_⟩
  · rw [hline, hoffset, List.length_append]
    exact Nat.le_add_right _ _
  · rw [Lexed.ofString, Lexed.ofString, hlonger, hline, hoffset]
    exact hcut.saying_scan hblanks
  · rw [hlonger, hline, hoffset, moved_behind (List.append_nil rest).symm, List.append_assoc]

/-- Whitespace between tokens does not matter: a line with blanks put in where a token begins or
ends, or where the line cannot be cut further, is read as the same tree or has the same error. The
place of the error is moved by the blanks that are before it, and has the line and the column of its
offset in the longer line; nesting that is too deep is still reported at the end. -/
theorem Expression.ofString_inserted {line : String} {offset : Nat} {blanks : List Char}
    (hboundary : (Lexed.ofString line).IsBoundary offset)
    (hblanks : ∀ character ∈ blanks, character.isWhitespace) :
    (∀ expression, ofString (inserted line offset blanks) = .ok expression ↔
        ofString line = .ok expression) ∧
      ∀ error, ofString line = .error error →
        ∃ position, ofString (inserted line offset blanks) = .error (error.at position) ∧
          position.offset = shifted offset blanks.length error.position.offset ∧
          position.IsOf (inserted line offset blanks).toList ∧
          ∀ place, error = .grammatical ⟨place, .deepNesting⟩ →
            position = .after (inserted line offset blanks).toList := by
  obtain ⟨hoffset, hread⟩ := ofString_inserted_eq hboundary hblanks
  have hlength : (inserted line offset blanks).toList.length =
      line.toList.length + blanks.length := by
    rw [inserted, String.toList_ofList]
    simp only [List.length_append, List.length_take, List.length_drop]
    omega
  generalize (inserted line offset blanks) = longer at *
  refine ⟨fun expression ↦ ?_, fun error herror ↦ ?_⟩
  · rw [hread]
    cases ofString line <;> simp [Except.mapError]
  · rw [herror] at hread
    have hle := ReadingError.offset_le herror
    have hshifted : shifted offset blanks.length error.position.offset ≤ longer.toList.length := by
      unfold shifted
      split <;> omega
    refine ⟨_, hread, ?_, ?_, ?_⟩
    · exact List.length_take_of_le hshifted
    · have hisOf := Position.after_isOf
        (longer.toList.take (shifted offset blanks.length error.position.offset))
        (longer.toList.drop (shifted offset blanks.length error.position.offset))
      rwa [List.take_append_drop] at hisOf
    · rintro place rfl
      have hend : (ReadingError.grammatical ⟨place, .deepNesting⟩).position.offset =
          line.toList.length :=
        congrArg Position.offset (position_of_deepNesting herror rfl)
      have hwhole : shifted offset blanks.length line.toList.length = longer.toList.length := by
        rw [shifted, if_neg (Nat.not_lt.2 hoffset), hlength]
      rw [Position.moved, hend, hwhole, List.take_length]

/-- In `2 + )` the parenthesis begins a token, and a line feed and a blank before it move the
complaint about it to the second column of the second line. -/
theorem Expression.ofString_inserted_parenthesis :
    (Lexed.ofString "2 + )").IsBoundary 4 ∧
      ofString "2 + )" =
        .error (.grammatical ⟨⟨4, 1, 5⟩, .unexpected .operand (some (.punctuation ')'))⟩) ∧
      ∃ position, ofString (inserted "2 + )" 4 ['\n', ' ']) =
          .error (.grammatical ⟨position, .unexpected .operand (some (.punctuation ')'))⟩) ∧
        position.offset = 6 := by
  have hboundary : (Lexed.ofString "2 + )").IsBoundary 4 :=
    .inl ⟨⟨.punctuation ')', ⟨4, 1, 5⟩⟩, by decide +kernel, .inl rfl⟩
  have herror : ofString "2 + )" =
      .error (.grammatical ⟨⟨4, 1, 5⟩, .unexpected .operand (some (.punctuation ')'))⟩) := by
    decide +kernel
  have hblanks : ∀ character ∈ ['\n', ' '], character.isWhitespace :=
    List.forall_mem_cons.2 ⟨rfl, List.forall_mem_singleton.2 rfl⟩
  obtain ⟨position, hread, hoffset, -⟩ := (ofString_inserted hboundary hblanks).2 _ herror
  exact ⟨hboundary, herror, position, hread, hoffset⟩

end DiceArithmetic
