import DiceArithmetic.Node.Rendering
import DiceArithmetic.Proofs.Grammar

/-!
# The normal form of a line

`Lexeme.spaced` writes lexemes with one space between neighbours, and none inside parentheses. Two
facts about it matter: cutting what it writes gives the lexemes back (`Lexed.scan_spaced`), and the
normal form of a tree is what it writes from the lexemes of any derivation of the tree, once the
numbers among them are written without leading zeros (`Derives.render_eq_spaced`).
-/

namespace DiceArithmetic

namespace Lexeme

/-- What stands between two neighbours: a space, but nothing behind an opening and nothing before a
closing parenthesis. -/
def gap (before behind : Lexeme) : List Char :=
  if before = .punctuation '(' ∨ behind = .punctuation ')' then [] else [' ']

/-- The lexemes with gaps between them. -/
def spaced : List Lexeme → List Char
  | [] => []
  | [last] => last.text.toList
  | lexeme :: next :: rest => lexeme.text.toList ++ gap lexeme next ++ spaced (next :: rest)

/-- The lexeme with its number, if it is one, as it is written in decimal. -/
def normal : Lexeme → Lexeme
  | .number digits => .number (toString (Reading.decimalValue digits))
  | lexeme => lexeme

theorem spaced_cons (lexeme : Lexeme) (rest : List Lexeme) :
    ∃ behind, spaced (lexeme :: rest) = lexeme.text.toList ++ behind := by
  cases rest with
  | nil => exact ⟨[], (List.append_nil _).symm⟩
  | cons next rest => exact ⟨_, List.append_assoc ..⟩

theorem spaced_append (front : List Lexeme) (last next : Lexeme) (rest : List Lexeme) :
    spaced (front ++ last :: next :: rest) =
      spaced (front ++ [last]) ++ gap last next ++ spaced (next :: rest) := by
  induction front with
  | nil => rfl
  | cons lexeme front ih =>
      -- What is written behind a lexeme depends on whether there is another one.
      cases front with
      | nil => simp [spaced]
      | cons second front =>
          simp only [List.cons_append] at ih
          simp only [List.cons_append, spaced, ih, List.append_assoc]

/-- What is spaced has no characters but spaces and those of the lexemes. -/
theorem mem_spaced {lexemes : List Lexeme} {character : Char} (h : character ∈ spaced lexemes) :
    character = ' ' ∨ ∃ lexeme ∈ lexemes, character ∈ lexeme.text.toList := by
  fun_induction spaced lexemes with
  | case1 => cases h
  | case2 last => exact .inr ⟨last, List.mem_cons_self, h⟩
  | case3 lexeme next rest ih =>
      rcases List.mem_append.1 h with h | h
      · rcases List.mem_append.1 h with h | h
        · exact .inr ⟨lexeme, List.mem_cons_self, h⟩
        · unfold gap at h
          split at h
          next => cases h
          next => exact .inl (List.mem_singleton.1 h)
      · rcases ih h with h | ⟨other, hmem, h⟩
        · exact .inl h
        · exact .inr ⟨other, List.mem_cons_of_mem _ hmem, h⟩

/-! ## Cutting what is spaced -/

/-- A blank, a closing parenthesis and, behind an opening one, anything ends a lexeme that says
something. -/
theorem endsBefore_gap {lexeme next : Lexeme} (hsignificant : lexeme.isSignificant)
    (rest : List Lexeme) : lexeme.EndsBefore (gap lexeme next ++ spaced (next :: rest)) := by
  unfold gap
  split
  next hparenthesis =>
      rcases hparenthesis with rfl | rfl
      · exact fun _ _ ↦ rfl
      · obtain ⟨behind, hspaced⟩ := spaced_cons (.punctuation ')') rest
        rw [List.nil_append, hspaced]
        intro character hmem
        obtain rfl : character = ')' := by simpa [text] using hmem.symm
        cases lexeme with
        | identifier | number | punctuation => rfl
        | comment | whitespace => cases hsignificant
  next =>
      intro character hmem
      obtain rfl := Option.mem_some_iff.1 hmem
      cases lexeme with
      | identifier | number | punctuation => rfl
      | comment | whitespace => cases hsignificant

/-- What says something does not begin with a blank. -/
theorem WellFormed.exists_cons {lexeme : Lexeme} (hformed : lexeme.WellFormed)
    (hsignificant : lexeme.isSignificant) :
    ∃ head tail, lexeme.text.toList = head :: tail ∧ head.isWhitespace = false := by
  cases lexeme with
  | identifier name =>
      obtain ⟨head, tail, hname⟩ := List.exists_cons_of_ne_nil hformed.1
      have hhead : head.isAlpha := hformed.2 head (hname ▸ List.mem_cons_self)
      refine ⟨head, tail, hname, Bool.eq_false_iff.2 fun hblank ↦ ?_⟩
      simp [(blank_class hblank).2.1] at hhead
  | number digits =>
      obtain ⟨head, tail, hdigits⟩ := List.exists_cons_of_ne_nil hformed.1
      have hhead : head.isDigit := hformed.2 head (hdigits ▸ List.mem_cons_self)
      refine ⟨head, tail, hdigits, Bool.eq_false_iff.2 fun hblank ↦ ?_⟩
      simp [(blank_class hblank).2.2.1] at hhead
  | punctuation symbol =>
      exact ⟨symbol, [], String.toList_singleton symbol, (symbol_class hformed).2.2.2⟩
  | comment | whitespace => cases hsignificant

/-- A space absorbs nothing of what says something. -/
theorem space_endsBefore {next : Lexeme} (hformed : next.WellFormed)
    (hsignificant : next.isSignificant) (rest : List Lexeme) :
    (whitespace " ").EndsBefore (spaced (next :: rest)) := by
  obtain ⟨behind, hspaced⟩ := spaced_cons next rest
  obtain ⟨head, tail, htext, hblank⟩ := hformed.exists_cons hsignificant
  rw [hspaced, htext]
  intro character hmem
  obtain rfl := Option.mem_some_iff.1 hmem
  exact hblank

end Lexeme

namespace Lexed

open Lexeme

/-- The whole text could be cut, and these are the lexemes that say something. -/
def Says (lexed : Lexed) (lexemes : List Lexeme) : Prop :=
  lexed.error? = none ∧
    (lexed.tokens.filter (·.lexeme.isSignificant)).map Token.lexeme = lexemes

theorem Says.cons {lexed : Lexed} {lexemes : List Lexeme} (h : lexed.Says lexemes) {token : Token}
    (hsignificant : token.lexeme.isSignificant) :
    (lexed.cons token).Says (token.lexeme :: lexemes) := by
  obtain ⟨herror, rfl⟩ := h
  exact ⟨herror, by simp [Lexed.cons, hsignificant]⟩

theorem Says.skip {lexed : Lexed} {lexemes : List Lexeme} (h : lexed.Says lexemes) {token : Token}
    (hsignificant : token.lexeme.isSignificant = false) : (lexed.cons token).Says lexemes := by
  obtain ⟨herror, rfl⟩ := h
  exact ⟨herror, by simp [Lexed.cons, hsignificant]⟩

theorem says_iff {lexed : Lexed} {lexemes : List Lexeme} :
    lexed.Says lexemes ↔
      ∃ tokens, lexed.significant = .ok tokens ∧ tokens.map Token.lexeme = lexemes := by
  constructor
  · rintro ⟨herror, hlexemes⟩
    exact ⟨_, significant_eq_ok_iff.2 ⟨herror, rfl⟩, hlexemes⟩
  · rintro ⟨tokens, hsignificant, hlexemes⟩
    obtain ⟨herror, rfl⟩ := significant_eq_ok_iff.1 hsignificant
    exact ⟨herror, hlexemes⟩

/-- Cutting spaced lexemes gives them back, wherever the text begins. -/
theorem scan_spaced (lexemes : List Lexeme)
    (hformed : ∀ lexeme ∈ lexemes, lexeme.WellFormed ∧ lexeme.isSignificant)
    (position : Position) : (scan position (spaced lexemes)).Says lexemes := by
  induction lexemes generalizing position with
  | nil =>
      rw [spaced, scan_nil]
      exact ⟨rfl, rfl⟩
  | cons lexeme rest ih =>
      obtain ⟨⟨hlexeme, hsignificant⟩, hrest⟩ := List.forall_mem_cons.1 hformed
      cases rest with
      | nil =>
          rw [spaced, ← List.append_nil lexeme.text.toList, scan_append hlexeme (endsBefore_nil _),
            scan_nil]
          exact Says.cons ⟨rfl, rfl⟩ hsignificant
      | cons next rest =>
          obtain ⟨hnext, hnextSignificant⟩ := (List.forall_mem_cons.1 hrest).1
          rw [spaced, List.append_assoc, scan_append hlexeme (endsBefore_gap hsignificant rest)]
          refine Says.cons ?_ hsignificant
          unfold gap
          split
          next => exact ih hrest _
          next =>
              -- The space between the two is cut off as a lexeme of its own, which says nothing.
              have hspace : (whitespace " ").WellFormed := ⟨by decide, List.all_eq_true.mp rfl⟩
              show (scan _ ((whitespace " ").text.toList ++ spaced (next :: rest))).Says _
              rw [scan_append hspace (space_endsBefore hnext hnextSignificant rest)]
              exact Says.skip (ih hrest _) rfl

end Lexed

/-! ## Writing what is derived -/

namespace Lexeme

/-- The lexemes do not begin with a closing and do not end with an opening parenthesis, so that a
space may stand on either side of them. -/
def Joinable (lexemes : List Lexeme) : Prop :=
  (∃ head tail, lexemes = head :: tail ∧ head ≠ .punctuation ')') ∧
    ∃ front last, lexemes = front ++ [last] ∧ last ≠ .punctuation '('

@[simp] theorem normal_punctuation (symbol : Char) :
    normal (.punctuation symbol) = .punctuation symbol :=
  rfl

@[simp] theorem normal_operator (op : Operator) : normal op.lexeme = op.lexeme := by
  cases op <;> rfl

theorem normal_eq_punctuation_iff {lexeme : Lexeme} {symbol : Char} :
    lexeme.normal = .punctuation symbol ↔ lexeme = .punctuation symbol := by
  cases lexeme <;> simp [normal]

theorem Joinable.map_normal {lexemes : List Lexeme} (h : Joinable lexemes) :
    Joinable (lexemes.map normal) := by
  obtain ⟨⟨head, tail, hhead, hopening⟩, front, last, hlast, hclosing⟩ := h
  refine ⟨⟨head.normal, tail.map normal, by rw [hhead, List.map_cons], ?_⟩,
    front.map normal, last.normal, by simp [hlast], ?_⟩
  · exact fun h ↦ hopening (normal_eq_punctuation_iff.1 h)
  · exact fun h ↦ hclosing (normal_eq_punctuation_iff.1 h)

/-- A space stands on either side of a lexeme between two operands. -/
theorem spaced_join {first second : List Lexeme} {between : Lexeme} (hfirst : Joinable first)
    (hsecond : Joinable second) (hopening : between ≠ .punctuation '(')
    (hclosing : between ≠ .punctuation ')') :
    spaced (first ++ between :: second) =
      spaced first ++ ' ' :: between.text.toList ++ ' ' :: spaced second := by
  obtain ⟨-, front, last, rfl, hlast⟩ := hfirst
  obtain ⟨⟨head, tail, rfl, hhead⟩, -⟩ := hsecond
  rw [List.append_assoc, List.singleton_append, spaced_append]
  simp [spaced, gap, hlast, hhead, hopening, hclosing]

/-- No space stands inside parentheses. -/
theorem spaced_parentheses {inner : List Lexeme} (h : Joinable inner) :
    spaced (.punctuation '(' :: (inner ++ [.punctuation ')'])) = '(' :: spaced inner ++ [')'] := by
  obtain ⟨⟨head, tail, hhead, -⟩, front, last, hlast, -⟩ := h
  have hopened : spaced (.punctuation '(' :: (inner ++ [.punctuation ')'])) =
      '(' :: spaced (inner ++ [.punctuation ')']) := by
    rw [hhead]
    simp [spaced, gap, text]
  rw [hopened, hlast, List.append_assoc, List.singleton_append, spaced_append]
  simp [spaced, gap, text]

end Lexeme

namespace Derives

open Lexeme

/-- What is derived may stand beside an operator. -/
theorem joinable {tier : Tier} {lexemes : List Lexeme} {node : Node tier}
    (h : Derives lexemes node) : Joinable lexemes := by
  induction h with
  | number digits | named name => exact ⟨⟨_, [], rfl, nofun⟩, [], _, rfl, nofun⟩
  | parentheses =>
      exact ⟨⟨_, _, rfl, by decide⟩, _, _, (List.cons_append ..).symm, by decide⟩
  | ofValue _ ih | ofFactor _ ih | ofTerm _ ih => exact ih
  | power _ _ ihFirst ihSecond | product _ _ _ ihFirst ihSecond | sum _ _ _ ihFirst ihSecond =>
      -- The first operand begins the whole, and the second one ends it.
      obtain ⟨⟨head, tail, rfl, hhead⟩, -⟩ := ihFirst
      obtain ⟨-, front, last, rfl, hlast⟩ := ihSecond
      exact ⟨⟨head, _, rfl, hhead⟩, _, last, (List.append_assoc _ (_ :: front) _).symm, hlast⟩

/-- The normal form of a tree is spaced from the lexemes it is derived from, with every number in
decimal. -/
theorem render_eq_spaced {tier : Tier} {lexemes : List Lexeme} {node : Node tier}
    (h : Derives lexemes node) : node.render.toList = spaced (lexemes.map normal) := by
  induction h with
  | number digits =>
      rw [Node.render, List.map_singleton, spaced]
      rfl
  | named name => rfl
  | parentheses hinner ih =>
      simp [Node.render, ih, spaced_parentheses hinner.joinable.map_normal]
  | ofValue _ ih | ofFactor _ ih | ofTerm _ ih => exact ih
  | power hbase hexponent ihBase ihExponent =>
      rw [List.map_append, List.map_cons, normal_punctuation,
        spaced_join hbase.joinable.map_normal hexponent.joinable.map_normal (by decide) (by decide)]
      simp [Node.render, ihBase, ihExponent, text]
  | @product _ _ _ op _ hleft hop hright ihLeft ihRight
  | @sum _ _ _ op _ hleft hop hright ihLeft ihRight =>
      rw [List.map_append, List.map_cons, normal_operator,
        spaced_join hleft.joinable.map_normal hright.joinable.map_normal
          (by cases op <;> decide) (by cases op <;> decide)]
      simp [Node.render, ihLeft, ihRight, op.text_lexeme]

end Derives

end DiceArithmetic
