import Mathlib.Data.List.TakeWhile
import DiceArithmetic.Token

/-!
# Texts and the lexemes they are cut into

A lexeme is well formed if its text is of its kind, and it absorbs the characters that would only
make it longer. Read `first?_eq_some_iff` first: the first lexeme of a text is the well-formed
lexeme that the text begins with and that absorbs no more of it. `scan_append` carries this over to
a whole line, and `wellFormed_of_mem_scan` says that a line is cut into well-formed lexemes only.
-/

namespace DiceArithmetic

namespace Lexeme

/-- The text of a lexeme is of its kind: letters, digits, a symbol, a semicolon without a comma
behind it, or blanks. -/
def WellFormed : Lexeme → Prop
  | .identifier name => name.toList ≠ [] ∧ ∀ character ∈ name.toList, character.isAlpha
  | .number digits => digits.toList ≠ [] ∧ ∀ character ∈ digits.toList, character.isDigit
  | .punctuation symbol => symbol ∈ symbols
  | .comment text =>
      ∃ body, text.toList = ';' :: body ∧ ∀ character ∈ body, isCommentBody character
  | .whitespace text => text.toList ≠ [] ∧ ∀ character ∈ text.toList, character.isWhitespace

/-- Whether a character behind the lexeme would make it longer. -/
def absorbs : Lexeme → Char → Bool
  | .identifier _, character => character.isAlpha
  | .number _, character => character.isDigit
  | .punctuation _, _ => false
  | .comment _, character => isCommentBody character
  | .whitespace _, character => character.isWhitespace

/-- The lexeme absorbs nothing of the text behind it. -/
def EndsBefore (lexeme : Lexeme) (rest : List Char) : Prop :=
  ∀ character ∈ rest.head?, lexeme.absorbs character = false

theorem endsBefore_nil (lexeme : Lexeme) : lexeme.EndsBefore [] :=
  fun _ hmem ↦ nomatch hmem

/-- No symbol is a semicolon, a letter, a digit or a blank. -/
theorem symbol_class {symbol : Char} (h : symbol ∈ symbols) :
    symbol ≠ ';' ∧ symbol.isAlpha = false ∧ symbol.isDigit = false ∧
      symbol.isWhitespace = false := by
  have hall : symbols.all fun symbol ↦ symbol ≠ ';' ∧ symbol.isAlpha = false ∧
      symbol.isDigit = false ∧ symbol.isWhitespace = false := by decide
  exact of_decide_eq_true (List.all_eq_true.mp hall symbol h)

/-- No letter is a semicolon. -/
theorem ne_semicolon_of_isAlpha {character : Char} (h : character.isAlpha) : character ≠ ';' := by
  rintro rfl
  exact absurd h (by decide)

/-- No digit is a semicolon or a letter. -/
theorem digit_class {character : Char} (h : character.isDigit) :
    character ≠ ';' ∧ character.isAlpha = false := by
  refine ⟨?_, ?_⟩
  · rintro rfl
    exact absurd h (by decide)
  · simp only [Char.isDigit_iff_toNat, Char.reduceToNat] at h
    rw [Bool.eq_false_iff]
    intro halpha
    unfold Char.isAlpha Char.isUpper Char.isLower at halpha
    simp only [Char.toNat, Char.reduceVal, ge_iff_le, UInt32.le_iff_toNat_le, UInt32.reduceToNat,
      Bool.or_eq_true, Bool.and_eq_true, decide_eq_true_eq] at h halpha
    omega

/-- No blank is a semicolon, a letter, a digit or a symbol. -/
theorem blank_class {character : Char} (h : character.isWhitespace) :
    character ≠ ';' ∧ character.isAlpha = false ∧ character.isDigit = false ∧
      character ∉ symbols := by
  simp only [Char.isWhitespace, Bool.or_eq_true, decide_eq_true_eq] at h
  obtain ((rfl | rfl) | rfl) | rfl := h <;> decide

/-- A lexeme that says something has no semicolon. -/
theorem WellFormed.semicolon_not_mem {lexeme : Lexeme} (hformed : lexeme.WellFormed)
    (hsignificant : lexeme.isSignificant) : ';' ∉ lexeme.text.toList := by
  cases lexeme with
  | identifier name => exact fun hmem ↦ ne_semicolon_of_isAlpha (hformed.2 _ hmem) rfl
  | number digits => exact fun hmem ↦ (digit_class (hformed.2 _ hmem)).1 rfl
  | punctuation symbol =>
      intro hmem
      rw [text, String.toList_singleton] at hmem
      exact (symbol_class hformed).1 (List.mem_singleton.1 hmem).symm
  | comment | whitespace => cases hsignificant

section Runs

variable {α : Type} {belongs : α → Bool} {run rest : List α}

/-- Taking what belongs together stops where the run ends. -/
theorem takeWhile_run (hrun : ∀ member ∈ run, belongs member)
    (hrest : ∀ member ∈ rest.head?, belongs member = false) :
    (run ++ rest).takeWhile belongs = run := by
  rw [List.takeWhile_append_of_pos hrun]
  cases rest with
  | nil => simp
  | cons head tail => simp [hrest head rfl]

/-- Dropping what belongs together leaves what is behind the run. -/
theorem dropWhile_run (hrun : ∀ member ∈ run, belongs member)
    (hrest : ∀ member ∈ rest.head?, belongs member = false) :
    (run ++ rest).dropWhile belongs = rest := by
  rw [List.dropWhile_append_of_pos hrun]
  cases rest with
  | nil => rfl
  | cons head tail => simp [hrest head rfl]

/-- What is left behind a run does not begin with what belongs to it. -/
theorem head?_dropWhile (text : List α) :
    ∀ member ∈ (text.dropWhile belongs).head?, belongs member = false := by
  intro member hmember
  have hfailed := List.head?_dropWhile_not belongs text
  rw [Option.mem_def.1 hmember] at hfailed
  simpa using hfailed

end Runs

section Heads

variable {head : Char} {tail : List Char}

theorem first?_semicolon :
    first? (';' :: tail) =
      some (.comment (String.ofList (';' :: tail.takeWhile isCommentBody)),
        tail.dropWhile isCommentBody) := by
  simp [first?]

theorem first?_letter (h : head.isAlpha) :
    first? (head :: tail) =
      some (.identifier (String.ofList (head :: tail.takeWhile Char.isAlpha)),
        tail.dropWhile Char.isAlpha) := by
  simp [first?, ne_semicolon_of_isAlpha h, h]

theorem first?_digit (h : head.isDigit) :
    first? (head :: tail) =
      some (.number (String.ofList (head :: tail.takeWhile Char.isDigit)),
        tail.dropWhile Char.isDigit) := by
  simp [first?, digit_class h, h]

theorem first?_symbol (h : head ∈ symbols) :
    first? (head :: tail) = some (.punctuation head, tail) := by
  simp [first?, symbol_class h, h]

theorem first?_blank (h : head.isWhitespace) :
    first? (head :: tail) =
      some (.whitespace (String.ofList (head :: tail.takeWhile Char.isWhitespace)),
        tail.dropWhile Char.isWhitespace) := by
  simp [first?, blank_class h, h]

end Heads

/-- A well-formed lexeme is the first of a text that begins with it, unless it absorbs more. -/
theorem first?_append {lexeme : Lexeme} {rest : List Char} (hformed : lexeme.WellFormed)
    (hends : lexeme.EndsBefore rest) :
    first? (lexeme.text.toList ++ rest) = some (lexeme, rest) := by
  cases lexeme with
  | identifier name =>
      obtain ⟨hne, hall⟩ := hformed
      obtain ⟨head, tail, hname⟩ := List.exists_cons_of_ne_nil hne
      rw [hname, List.forall_mem_cons] at hall
      rw [Lexeme.text, hname, List.cons_append, first?_letter hall.1, takeWhile_run hall.2 hends,
        dropWhile_run hall.2 hends, ← hname, String.ofList_toList]
  | number digits =>
      obtain ⟨hne, hall⟩ := hformed
      obtain ⟨head, tail, hdigits⟩ := List.exists_cons_of_ne_nil hne
      rw [hdigits, List.forall_mem_cons] at hall
      rw [Lexeme.text, hdigits, List.cons_append, first?_digit hall.1, takeWhile_run hall.2 hends,
        dropWhile_run hall.2 hends, ← hdigits, String.ofList_toList]
  | punctuation symbol =>
      rw [Lexeme.text, String.toList_singleton, List.singleton_append, first?_symbol hformed]
  | comment text =>
      obtain ⟨body, htext, hall⟩ := hformed
      rw [Lexeme.text, htext, List.cons_append, first?_semicolon, takeWhile_run hall hends,
        dropWhile_run hall hends, ← htext, String.ofList_toList]
  | whitespace text =>
      obtain ⟨hne, hall⟩ := hformed
      obtain ⟨head, tail, htext⟩ := List.exists_cons_of_ne_nil hne
      rw [htext, List.forall_mem_cons] at hall
      rw [Lexeme.text, htext, List.cons_append, first?_blank hall.1, takeWhile_run hall.2 hends,
        dropWhile_run hall.2 hends, ← htext, String.ofList_toList]

/-- The first lexeme of a text is well formed, and absorbs nothing of the text behind it. -/
theorem first?_wellFormed {text rest : List Char} {lexeme : Lexeme}
    (h : first? text = some (lexeme, rest)) : lexeme.WellFormed ∧ lexeme.EndsBefore rest := by
  have hrun {belongs : Char → Bool} {head : Char} (tail : List Char) (hhead : belongs head) :
      ∀ character ∈ head :: tail.takeWhile belongs, belongs character :=
    List.forall_mem_cons.2 ⟨hhead, fun _ ↦ List.mem_takeWhile_imp⟩
  cases text with
  | nil => cases h
  | cons head tail =>
      rw [first?] at h
      split at h
      case isTrue hsemicolon =>
        cases h
        exact ⟨⟨tail.takeWhile isCommentBody, by simp [hsemicolon],
          fun _ ↦ List.mem_takeWhile_imp⟩, head?_dropWhile tail⟩
      split at h
      case isTrue halpha =>
        cases h
        exact ⟨by simpa [WellFormed] using hrun tail halpha, head?_dropWhile tail⟩
      split at h
      case isTrue hdigit =>
        cases h
        exact ⟨by simpa [WellFormed] using hrun tail hdigit, head?_dropWhile tail⟩
      split at h
      case isTrue hsymbol =>
        cases h
        exact ⟨hsymbol, fun _ _ ↦ rfl⟩
      split at h
      case isTrue hblank =>
        cases h
        exact ⟨by simpa [WellFormed] using hrun tail hblank, head?_dropWhile tail⟩
      cases h

/-- The first lexeme of a text is the well-formed lexeme that the text begins with and that absorbs
nothing of what is behind it. -/
theorem first?_eq_some_iff {text rest : List Char} {lexeme : Lexeme} :
    first? text = some (lexeme, rest) ↔
      lexeme.WellFormed ∧ lexeme.EndsBefore rest ∧ text = lexeme.text.toList ++ rest := by
  constructor
  · intro h
    exact ⟨(first?_wellFormed h).1, (first?_wellFormed h).2, first?_eq_append h⟩
  · rintro ⟨hformed, hends, rfl⟩
    exact first?_append hformed hends

end Lexeme

namespace Lexed

theorem scan_nil (position : Position) : scan position [] = ⟨[], none⟩ := by
  rw [scan]
  rfl

theorem scan_of_first? {position : Position} {text rest : List Char} {lexeme : Lexeme}
    (h : Lexeme.first? text = some (lexeme, rest)) :
    scan position text =
      (scan (position.advance lexeme.text.toList) rest).cons ⟨lexeme, position⟩ := by
  rw [scan]
  split
  next hfirst =>
      rw [h] at hfirst
      cases hfirst
      rfl
  next hfirst =>
      rw [h] at hfirst
      cases hfirst

/-- A text that begins with a well-formed lexeme is cut behind it, unless that absorbs more. -/
theorem scan_append {position : Position} {lexeme : Lexeme} {rest : List Char}
    (hformed : lexeme.WellFormed) (hends : lexeme.EndsBefore rest) :
    scan position (lexeme.text.toList ++ rest) =
      (scan (position.advance lexeme.text.toList) rest).cons ⟨lexeme, position⟩ :=
  scan_of_first? (Lexeme.first?_append hformed hends)

/-- A text is cut into well-formed lexemes only. -/
theorem wellFormed_of_mem_scan {position : Position} {text : List Char} :
    ∀ token ∈ (scan position text).tokens, token.lexeme.WellFormed := by
  fun_induction scan position text with
  | case1 position text lexeme rest hfirst hshorter ih =>
      intro token hmem
      rcases List.mem_cons.1 hmem with rfl | hmem
      · exact (Lexeme.first?_wellFormed hfirst).1
      · exact ih token hmem
  | case2 => exact fun _ hmem ↦ nomatch hmem

/-- A token is a piece of the text, and its place is the one behind all that is before the piece. -/
theorem exists_around_of_mem_scan {position : Position} {text : List Char} :
    ∀ token ∈ (scan position text).tokens, ∃ front rest,
      text = front ++ (token.lexeme.text.toList ++ rest) ∧
        token.start = position.advance front := by
  fun_induction scan position text with
  | case1 position text lexeme rest hfirst hshorter ih =>
      rw [Lexeme.first?_eq_append hfirst]
      intro token hmem
      rcases List.mem_cons.1 hmem with rfl | hmem
      · exact ⟨[], rest, rfl, rfl⟩
      · obtain ⟨front, behind, rfl, hstart⟩ := ih token hmem
        refine ⟨lexeme.text.toList ++ front, behind, (List.append_assoc _ _ _).symm, ?_⟩
        rw [hstart, Position.advance_append]
  | case2 => exact fun _ hmem ↦ absurd hmem List.not_mem_nil

/-- The characters of a token are characters of the text. -/
theorem mem_of_mem_scan {position : Position} {text : List Char} :
    ∀ token ∈ (scan position text).tokens,
      ∀ character ∈ token.lexeme.text.toList, character ∈ text := by
  intro token hmem character hcharacter
  obtain ⟨front, rest, rfl, -⟩ := exists_around_of_mem_scan token hmem
  exact List.mem_append_right _ (List.mem_append_left _ hcharacter)

/-- The tokens that say something are those of a line that could be cut as a whole. -/
theorem significant_eq_ok_iff {lexed : Lexed} {tokens : List Token} :
    lexed.significant = .ok tokens ↔
      lexed.error? = none ∧ tokens = lexed.tokens.filter (·.lexeme.isSignificant) := by
  cases herror : lexed.error? with
  | none => simp [significant, herror, eq_comm]
  | some error => simp [significant, herror]

/-- The tokens of a line that say something are well formed, and do say something. -/
theorem significant_wellFormed {line : String} {tokens : List Token}
    (h : (ofString line).significant = .ok tokens) :
    ∀ token ∈ tokens, token.lexeme.WellFormed ∧ token.lexeme.isSignificant := by
  obtain ⟨-, rfl⟩ := significant_eq_ok_iff.1 h
  intro token hmem
  obtain ⟨hscanned, hsignificant⟩ := List.mem_filter.1 hmem
  exact ⟨wellFormed_of_mem_scan token hscanned, hsignificant⟩

end Lexed

end DiceArithmetic
