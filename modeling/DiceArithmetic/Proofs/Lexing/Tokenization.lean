import Mathlib.Data.List.Chain
import Mathlib.Data.Nat.Find
import DiceArithmetic.Proofs.Lexing

/-!
# Which texts can be cut into lexemes, and how

Two views of a text that know nothing of cutting it. A character offends if it is outside comments
and begins no lexeme; whether a place is inside a comment is said by the semicolons and commas
before it. A list of lexemes tokenizes a text if it is the text, piece by piece, and no two
neighbours could be one. `Lexed.ofString_canonical` says that a line is cut as a whole just when no
character offends, that it is cut up to the first one otherwise, and that its lexemes are the only
ones to tokenize it.
-/

namespace DiceArithmetic

/-- The place is inside a comment: a semicolon stands there or before it, and no comma from the
semicolon up to there. -/
def InComment (text : List Char) (offset : Nat) : Prop :=
  ∃ opening ≤ offset, text[opening]? = some ';' ∧
    ∀ between ≤ offset, opening ≤ between → text[between]? ≠ some ','

instance (text : List Char) (offset : Nat) : Decidable (InComment text offset) :=
  inferInstanceAs (Decidable (∃ _ ≤ _, _))

/-- The character can stand outside comments: it is a letter, a digit, a symbol or a blank. -/
def IsPlain (character : Char) : Prop :=
  character.isAlpha ∨ character.isDigit ∨ character ∈ Lexeme.symbols ∨ character.isWhitespace

instance (character : Char) : Decidable (IsPlain character) :=
  inferInstanceAs (Decidable (_ ∨ _))

/-- At the place, which is outside comments, stands a character that cannot stand there. -/
def Offends (text : List Char) (offset : Nat) : Prop :=
  ∃ character ∈ text[offset]?, ¬ InComment text offset ∧ ¬ IsPlain character

instance (text : List Char) (offset : Nat) : Decidable (Offends text offset) :=
  Option.decidableExistsMem text[offset]?

/-- The place offends, and none before it does. -/
def OffendsFirst (text : List Char) (offset : Nat) : Prop :=
  Offends text offset ∧ ∀ earlier < offset, ¬ Offends text earlier

instance (text : List Char) (offset : Nat) : Decidable (OffendsFirst text offset) :=
  inferInstanceAs (Decidable (_ ∧ _))

namespace Lexeme

/-- The first of two neighbours does not go on in the second: they are not both identifiers, numbers
or whitespace, and behind a comment stands a comma. -/
def Apart : (lexeme next : Lexeme) → Prop
  | .identifier _, .identifier _ | .number _, .number _ | .whitespace _, .whitespace _ => False
  | .comment _, next => next = .punctuation ','
  | _, _ => True

/-- The lexemes are well formed, they make up the text, and no two neighbours could be one. -/
structure Tokenize (lexemes : List Lexeme) (text : List Char) : Prop where
  flatMap_eq : lexemes.flatMap (·.text.toList) = text
  wellFormed : ∀ lexeme ∈ lexemes, lexeme.WellFormed
  apart : lexemes.IsChain Apart

section Heads

variable {lexeme next : Lexeme} {rest : List Char}

/-- Only comments have a semicolon. -/
theorem WellFormed.isComment_of_mem (hformed : lexeme.WellFormed)
    (hmem : ';' ∈ lexeme.text.toList) : ∃ text, lexeme = .comment text := by
  cases lexeme with
  | comment text => exact ⟨text, rfl⟩
  | whitespace text => exact absurd rfl (blank_class (hformed.2 _ hmem)).1
  | identifier | number | punctuation =>
      exact absurd hmem (hformed.semicolon_not_mem rfl)

/-- Outside comments the characters of a lexeme are plain. -/
theorem WellFormed.isPlain (hformed : lexeme.WellFormed) (hcomment : ∀ text, lexeme ≠ .comment text)
    {character : Char} (hmem : character ∈ lexeme.text.toList) : IsPlain character := by
  cases lexeme with
  | identifier name => exact .inl (hformed.2 character hmem)
  | number digits => exact .inr (.inl (hformed.2 character hmem))
  | punctuation symbol =>
      rw [text, String.toList_singleton, List.mem_singleton] at hmem
      exact .inr (.inr (.inl (hmem ▸ hformed)))
  | comment text => exact absurd rfl (hcomment text)
  | whitespace text => exact .inr (.inr (.inr (hformed.2 character hmem)))

/-- A comment has no comma. -/
theorem WellFormed.comma_not_mem {text : String} (hformed : (comment text).WellFormed) :
    ',' ∉ text.toList := by
  obtain ⟨body, htext, hbody⟩ := hformed
  rw [htext]
  intro hmem
  rcases List.mem_cons.1 hmem with hcomma | hmem
  · exact absurd hcomma (by decide)
  · exact absurd (hbody ',' hmem) (by decide)

/-- What a lexeme begins with is absorbed by another just when the two could be one. -/
theorem WellFormed.exists_head (hformed : next.WellFormed) :
    ∃ head tail, next.text.toList = head :: tail ∧
      ∀ lexeme, absorbs lexeme head = false ↔ lexeme.Apart next := by
  cases next with
  | identifier name =>
      obtain ⟨head, tail, hname⟩ := List.exists_cons_of_ne_nil hformed.1
      have hhead : head.isAlpha := hformed.2 head (hname ▸ List.mem_cons_self)
      have hdigit : head.isDigit = false :=
        Bool.eq_false_iff.2 fun hdigit ↦ by simp [(digit_class hdigit).2] at hhead
      have hblank : head.isWhitespace = false :=
        Bool.eq_false_iff.2 fun hblank ↦ by simp [(blank_class hblank).2.1] at hhead
      have hcomma : head ≠ ',' := fun hcomma ↦ absurd (hcomma ▸ hhead) (by decide)
      refine ⟨head, tail, hname, fun lexeme ↦ ?_⟩
      cases lexeme <;> simp [absorbs, Apart, isCommentBody, *]
  | number digits =>
      obtain ⟨head, tail, hdigits⟩ := List.exists_cons_of_ne_nil hformed.1
      have hhead : head.isDigit := hformed.2 head (hdigits ▸ List.mem_cons_self)
      have halpha : head.isAlpha = false := (digit_class hhead).2
      have hblank : head.isWhitespace = false :=
        Bool.eq_false_iff.2 fun hblank ↦ by simp [(blank_class hblank).2.2.1] at hhead
      have hcomma : head ≠ ',' := fun hcomma ↦ absurd (hcomma ▸ hhead) (by decide)
      refine ⟨head, tail, hdigits, fun lexeme ↦ ?_⟩
      cases lexeme <;> simp [absorbs, Apart, isCommentBody, *]
  | punctuation symbol =>
      obtain ⟨-, halpha, hdigit, hblank⟩ := symbol_class hformed
      refine ⟨symbol, [], String.toList_singleton symbol, fun lexeme ↦ ?_⟩
      cases lexeme <;> simp [absorbs, Apart, isCommentBody, *]
  | comment text =>
      obtain ⟨body, htext, -⟩ := hformed
      refine ⟨';', body, htext, fun lexeme ↦ ?_⟩
      cases lexeme <;> simp [absorbs, Apart, isCommentBody]
  | whitespace text =>
      obtain ⟨head, tail, htext⟩ := List.exists_cons_of_ne_nil hformed.1
      have hhead : head.isWhitespace := hformed.2 head (htext ▸ List.mem_cons_self)
      obtain ⟨-, halpha, hdigit, -⟩ := blank_class hhead
      have hcomma : head ≠ ',' := fun hcomma ↦ absurd (hcomma ▸ hhead) (by decide)
      refine ⟨head, tail, htext, fun lexeme ↦ ?_⟩
      cases lexeme <;> simp [absorbs, Apart, isCommentBody, *]

/-- A lexeme absorbs nothing of its neighbour just when the two are apart. -/
theorem endsBefore_append_iff (hnext : next.WellFormed) :
    lexeme.EndsBefore (next.text.toList ++ rest) ↔ lexeme.Apart next := by
  obtain ⟨head, tail, htext, happart⟩ := hnext.exists_head
  rw [htext, List.cons_append, ← happart lexeme]
  simp [EndsBefore]

/-- A lexeme that ends before a text ends before any beginning of it. -/
theorem EndsBefore.take (h : lexeme.EndsBefore rest) (length : Nat) :
    lexeme.EndsBefore (rest.take length) := by
  intro character hmem
  rw [List.head?_take] at hmem
  split at hmem
  next => cases hmem
  next => exact h character hmem

end Heads

section Tokenize

variable {lexeme : Lexeme} {lexemes : List Lexeme} {text : List Char}

theorem tokenize_nil_iff : Tokenize [] text ↔ text = [] :=
  ⟨fun h ↦ h.flatMap_eq.symm, fun h ↦ ⟨h.symm, nofun, List.isChain_nil⟩⟩

/-- Lexemes tokenize a text just when the first of them is the first of the text, and the others
tokenize what is left behind it. -/
theorem tokenize_cons_iff :
    Tokenize (lexeme :: lexemes) text ↔
      ∃ rest, first? text = some (lexeme, rest) ∧ Tokenize lexemes rest := by
  have hends (hwellFormed : ∀ next ∈ lexemes, next.WellFormed) :
      lexeme.EndsBefore (lexemes.flatMap (·.text.toList)) ↔
        ∀ next ∈ lexemes.head?, lexeme.Apart next := by
    cases lexemes with
    | nil => exact iff_of_true lexeme.endsBefore_nil nofun
    | cons next others =>
        rw [List.flatMap_cons, endsBefore_append_iff (hwellFormed next List.mem_cons_self)]
        simp
  constructor
  · rintro ⟨rfl, hwellFormed, hchain⟩
    obtain ⟨hformed, hothers⟩ := List.forall_mem_cons.1 hwellFormed
    obtain ⟨happart, hchain⟩ := List.isChain_cons.1 hchain
    refine ⟨_, ?_, rfl, hothers, hchain⟩
    exact first?_append hformed ((hends hothers).2 happart)
  · rintro ⟨rest, hfirst, rfl, hothers, hchain⟩
    obtain ⟨hformed, hbefore, rfl⟩ := first?_eq_some_iff.1 hfirst
    refine ⟨rfl, List.forall_mem_cons.2 ⟨hformed, hothers⟩, ?_⟩
    exact List.isChain_cons.2 ⟨(hends hothers).1 hbefore, hchain⟩

end Tokenize

end Lexeme

section Offences

open Lexeme

variable {lexeme : Lexeme} {text rest : List Char} {offset : Nat}

theorem getElem?_length_add (front rest : List Char) (offset : Nat) :
    (front ++ rest)[front.length + offset]? = rest[offset]? := by
  rw [List.getElem?_append_right (Nat.le_add_right _ _), Nat.add_sub_cancel_left]

/-- Behind a lexeme, a place is inside a comment just when it is without the lexeme. -/
theorem inComment_append_iff (hformed : lexeme.WellFormed) (hends : lexeme.EndsBefore rest)
    (hoffset : offset < rest.length) :
    InComment (lexeme.text.toList ++ rest) (lexeme.text.toList.length + offset) ↔
      InComment rest offset := by
  constructor
  · rintro ⟨opening, hle, hsemicolon, hcomma⟩
    rcases Nat.lt_or_ge opening lexeme.text.toList.length with hlt | hge
    · -- A semicolon in the lexeme opens a comment, which a comma ends right behind the lexeme.
      rw [List.getElem?_append_left hlt] at hsemicolon
      obtain ⟨text, rfl⟩ := hformed.isComment_of_mem (List.mem_of_getElem? hsemicolon)
      obtain ⟨head, tail, rfl⟩ := List.exists_cons_of_length_pos (Nat.zero_lt_of_lt hoffset)
      have hhead : head = ',' := by simpa [absorbs, isCommentBody] using hends head rfl
      refine absurd ?_ (hcomma (comment text).text.toList.length (by omega) (by omega))
      rw [List.getElem?_append_right (Nat.le_refl _), Nat.sub_self, hhead]
      rfl
    · obtain ⟨behind, rfl⟩ := Nat.exists_eq_add_of_le hge
      rw [getElem?_length_add] at hsemicolon
      refine ⟨behind, by omega, hsemicolon, fun between hbetween hopening ↦ ?_⟩
      rw [← getElem?_length_add lexeme.text.toList]
      exact hcomma _ (by omega) (by omega)
  · rintro ⟨opening, hle, hsemicolon, hcomma⟩
    rw [← getElem?_length_add lexeme.text.toList] at hsemicolon
    refine ⟨_, by omega, hsemicolon, fun between hbetween hopening ↦ ?_⟩
    obtain ⟨behind, rfl⟩ := Nat.exists_eq_add_of_le (Nat.le_trans (Nat.le_add_right _ _) hopening)
    rw [getElem?_length_add]
    exact hcomma behind (by omega) (by omega)

/-- No place in a lexeme offends. -/
theorem not_offends_of_lt (hformed : lexeme.WellFormed)
    (hoffset : offset < lexeme.text.toList.length) :
    ¬ Offends (lexeme.text.toList ++ rest) offset := by
  rintro ⟨character, hstands, houtside, hplain⟩
  rw [List.getElem?_append_left hoffset] at hstands
  refine hplain (hformed.isPlain ?_ (List.mem_of_getElem? hstands))
  rintro text rfl
  refine houtside ⟨0, Nat.zero_le _, ?_, fun between hbetween _ hcomma ↦ ?_⟩
  · obtain ⟨body, htext, -⟩ := hformed
    rw [Lexeme.text, htext]
    rfl
  · rw [List.getElem?_append_left (Nat.lt_of_le_of_lt hbetween hoffset)] at hcomma
    exact hformed.comma_not_mem (List.mem_of_getElem? hcomma)

/-- What offends behind a lexeme is what offends without it. -/
theorem offends_append_iff (hformed : lexeme.WellFormed) (hends : lexeme.EndsBefore rest) :
    Offends (lexeme.text.toList ++ rest) (lexeme.text.toList.length + offset) ↔
      Offends rest offset := by
  unfold Offends
  rw [getElem?_length_add]
  refine exists_congr fun character ↦ and_congr_right fun hstands ↦ and_congr_left' ?_
  obtain ⟨hoffset, -⟩ := List.getElem?_eq_some_iff.1 hstands
  exact (inComment_append_iff hformed hends hoffset).not

/-- A text that begins with no lexeme is empty or offends at its start. -/
theorem offends_of_first? {head : Char} {tail : List Char} (h : first? (head :: tail) = none) :
    Offends (head :: tail) 0 := by
  refine ⟨head, rfl, ?_, ?_⟩
  · rintro ⟨opening, hle, hsemicolon, -⟩
    obtain rfl : opening = 0 := Nat.le_zero.1 hle
    obtain rfl : head = ';' := by simpa using hsemicolon
    rw [first?_semicolon] at h
    cases h
  · rintro (halpha | hdigit | hsymbol | hblank)
    · rw [first?_letter halpha] at h
      cases h
    · rw [first?_digit hdigit] at h
      cases h
    · rw [first?_symbol hsymbol] at h
      cases h
    · rw [first?_blank hblank] at h
      cases h

/-- A place that offends first is behind a lexeme, where it offends first without the lexeme. -/
theorem OffendsFirst.exists_behind (hformed : lexeme.WellFormed) (hends : lexeme.EndsBefore rest)
    (h : OffendsFirst (lexeme.text.toList ++ rest) offset) :
    ∃ behind, offset = lexeme.text.toList.length + behind ∧ OffendsFirst rest behind := by
  obtain ⟨hoffends, hleast⟩ := h
  rcases Nat.lt_or_ge offset lexeme.text.toList.length with hlt | hge
  · exact absurd hoffends (not_offends_of_lt hformed hlt)
  · obtain ⟨behind, rfl⟩ := Nat.exists_eq_add_of_le hge
    refine ⟨behind, rfl, (offends_append_iff hformed hends).1 hoffends, ?_⟩
    intro earlier hearlier hother
    exact hleast _ (Nat.add_lt_add_left hearlier _) ((offends_append_iff hformed hends).2 hother)

/-- If a place offends, there is one that offends first. -/
theorem Offends.exists_first (h : Offends text offset) : ∃ first, OffendsFirst text first :=
  ⟨Nat.find ⟨offset, h⟩, Nat.find_spec ⟨offset, h⟩, fun _ ↦ Nat.find_min ⟨offset, h⟩⟩

end Offences

namespace Lexed

open Lexeme

variable {position : Position} {text : List Char}

/-- A text in which no place offends is cut as a whole. -/
theorem scan_of_not_offends (h : ∀ offset, ¬ Offends text offset) :
    (scan position text).error? = none := by
  fun_induction scan position text with
  | case1 position text lexeme rest hfirst hshorter ih =>
      obtain ⟨hformed, hends, rfl⟩ := first?_eq_some_iff.1 hfirst
      exact ih fun offset hoffends ↦ h _ ((offends_append_iff hformed hends).2 hoffends)
  | case2 position text hfirst =>
      cases text with
      | nil => rfl
      | cons head tail => exact absurd (offends_of_first? hfirst) (h 0)

/-- A text is cut up to the place that offends first, the way that what stands before it is. -/
theorem scan_of_offendsFirst {offset : Nat} (h : OffendsFirst text offset) :
    scan position text =
        ⟨(scan position (text.take offset)).tokens,
          text[offset]?.map fun character ↦ ⟨position.advance (text.take offset), character⟩⟩ ∧
      (scan position (text.take offset)).error? = none := by
  fun_induction scan position text generalizing offset with
  | case1 position text lexeme rest hfirst hshorter ih =>
      obtain ⟨hformed, hends, rfl⟩ := first?_eq_some_iff.1 hfirst
      obtain ⟨behind, rfl, hbehind⟩ := h.exists_behind hformed hends
      obtain ⟨hscan, hnone⟩ := ih hbehind
      rw [List.take_length_add_append, scan_append hformed (hends.take behind),
        getElem?_length_add, Position.advance_append, hscan]
      exact ⟨rfl, hnone⟩
  | case2 position text hfirst =>
      cases text with
      | nil =>
          obtain ⟨⟨_, ⟨⟩, -⟩, -⟩ := h
      | cons head tail =>
          have hoffends := offends_of_first? hfirst
          obtain rfl : offset = 0 := Nat.eq_zero_of_not_pos fun hpositive ↦ h.2 0 hpositive hoffends
          rw [List.take_zero, scan_nil]
          exact ⟨rfl, rfl⟩

/-- A text is cut as a whole just when no place offends. -/
theorem scan_error?_eq_none_iff :
    (scan position text).error? = none ↔ ∀ offset, ¬ Offends text offset := by
  refine ⟨fun hnone offset hoffends ↦ ?_, scan_of_not_offends⟩
  obtain ⟨first, hfirst⟩ := hoffends.exists_first
  obtain ⟨character, hstands, -⟩ := hfirst.1
  rw [(scan_of_offendsFirst hfirst).1, Option.mem_def.1 hstands] at hnone
  cases hnone

/-- A text is cut up to an error just when it offends there first. -/
theorem scan_error?_eq_some_iff {error : LexicalError} :
    (scan position text).error? = some error ↔
      ∃ offset, OffendsFirst text offset ∧ text[offset]? = some error.character ∧
        error.position = position.advance (text.take offset) := by
  constructor
  · intro herror
    have hoffends : ∃ offset, Offends text offset := by
      by_contra hnone
      rw [scan_of_not_offends (not_exists.1 hnone)] at herror
      cases herror
    obtain ⟨first, hfirst⟩ := hoffends.choose_spec.exists_first
    rw [(scan_of_offendsFirst hfirst).1] at herror
    obtain ⟨character, hstands, rfl⟩ := Option.map_eq_some_iff.1 herror
    exact ⟨first, hfirst, hstands, rfl⟩
  · rintro ⟨offset, hfirst, hstands, hposition⟩
    rw [(scan_of_offendsFirst hfirst).1, hstands, ← hposition]
    rfl

/-- The lexemes that a text is cut into, if it is as a whole, are the only ones that tokenize it. -/
theorem tokenize_iff_scan {lexemes : List Lexeme} :
    Tokenize lexemes text ↔
      (scan position text).error? = none ∧
        (scan position text).tokens.map Token.lexeme = lexemes := by
  fun_induction scan position text generalizing lexemes with
  | case1 position text lexeme rest hfirst hshorter ih =>
      show _ ↔ (scan _ rest).error? = none ∧
        lexeme :: (scan _ rest).tokens.map Token.lexeme = lexemes
      cases lexemes with
      | nil =>
          rw [tokenize_nil_iff]
          constructor
          · rintro rfl
            cases hfirst
          · rintro ⟨-, ⟨⟩⟩
      | cons head tail =>
          rw [tokenize_cons_iff, hfirst, List.cons.injEq]
          constructor
          · rintro ⟨_, ⟨⟩, htail⟩
            obtain ⟨hnone, hlexemes⟩ := ih.1 htail
            exact ⟨hnone, rfl, hlexemes⟩
          · rintro ⟨hnone, rfl, hlexemes⟩
            exact ⟨rest, rfl, ih.2 ⟨hnone, hlexemes⟩⟩
  | case2 position text hfirst =>
      cases lexemes with
      | nil =>
          rw [tokenize_nil_iff]
          cases text <;> simp
      | cons head tail =>
          rw [tokenize_cons_iff, hfirst]
          constructor
          · rintro ⟨_, ⟨⟩, -⟩
          · rintro ⟨-, ⟨⟩⟩

/-- A line is cut as a whole just when no place offends. Otherwise the error is at the first place
that does, with the character there, and the tokens are those of the line up to there. The lexemes
of a line that is cut as a whole are the only ones that tokenize it. -/
theorem ofString_canonical (line : String) :
    ((ofString line).error? = none ↔ ∀ offset, ¬ Offends line.toList offset) ∧
    (∀ error, (ofString line).error? = some error ↔
      OffendsFirst line.toList error.position.offset ∧
        line.toList[error.position.offset]? = some error.character ∧
        error.position = .after (line.toList.take error.position.offset)) ∧
    (∀ offset, OffendsFirst line.toList offset →
      ofString (String.ofList (line.toList.take offset)) = ⟨(ofString line).tokens, none⟩) ∧
    ∀ lexemes, Tokenize lexemes line.toList ↔
      (ofString line).error? = none ∧ (ofString line).tokens.map Token.lexeme = lexemes := by
  refine ⟨scan_error?_eq_none_iff, fun error ↦ ?_, fun offset hfirst ↦ ?_,
    fun lexemes ↦ tokenize_iff_scan⟩
  · refine scan_error?_eq_some_iff.trans ?_
    simp only [Position.advance_start]
    constructor
    · rintro ⟨offset, hfirst, hstands, hposition⟩
      obtain ⟨hoffset, -⟩ := List.getElem?_eq_some_iff.1 hstands
      have hsame : error.position.offset = offset := by
        rw [hposition]
        exact List.length_take_of_le (Nat.le_of_lt hoffset)
      rw [hsame]
      exact ⟨hfirst, hstands, hposition⟩
    · exact fun h ↦ ⟨_, h⟩
  · obtain ⟨hscan, hnone⟩ := @scan_of_offendsFirst .start _ _ hfirst
    rw [ofString, ofString, String.toList_ofList, hscan, ← hnone]

/-- In `1;é,é` the first accented letter is inside a comment and the second one offends, so the line
is cut like `1;é,`. -/
theorem ofString_canonical_accents :
    OffendsFirst "1;é,é".toList 4 ∧
      ofString (String.ofList ("1;é,é".toList.take 4)) = ⟨(ofString "1;é,é").tokens, none⟩ ∧
      (ofString "1;é,é").error? = some ⟨⟨4, 1, 5⟩, 'é'⟩ := by
  have hfirst : OffendsFirst "1;é,é".toList 4 := by decide +kernel
  refine ⟨hfirst, (ofString_canonical _).2.2.1 4 hfirst, ?_⟩
  exact ((ofString_canonical _).2.1 _).2 ⟨hfirst, by decide +kernel, by decide +kernel⟩

end Lexed

end DiceArithmetic
