import DiceArithmetic.Node.Reading
import DiceArithmetic.Proofs.Lexing

/-!
# The grammar

`Derives lexemes node` says that the lexemes are an expression of the grammar

```text
expression = term, { ("+" | "-" | "d"), term }
term       = factor, { ("*" | "/"), factor }
factor     = value, [ "^", value ]
value      = number | identifier | "(", expression, ")"
```

or one of its parts, and that `node` is the tree of it. The letter of a roll is an identifier, so
the grammar lets it stand for an operator and for a variable. A derivation begins and ends like an
operand, and its parentheses nest as deep as those of its tree; see `Derives.deepest_append`.
-/

namespace DiceArithmetic

namespace Operator

/-- The lexeme that an operator is written as. -/
def lexeme : Operator → Lexeme
  | .add => .punctuation '+'
  | .subtract => .punctuation '-'
  | .multiply => .punctuation '*'
  | .divide => .punctuation '/'
  | .roll => .identifier "d"

theorem text_lexeme (op : Operator) : op.lexeme.text = op.symbol := by
  cases op <;> rfl

theorem lexeme_wellFormed (op : Operator) : op.lexeme.WellFormed := by
  cases op with
  | roll => exact ⟨by decide, List.all_eq_true.mp rfl⟩
  | add | subtract | multiply | divide =>
      simp only [lexeme, Lexeme.WellFormed]
      decide

theorem ofLexeme?_lexeme (op : Operator) : ofLexeme? op.lexeme = some op := by
  cases op <;> rfl

/-- No operator joins both terms and factors. -/
theorem multiplicative?_lexeme_of_isAdditive {op : Operator} (h : op.isAdditive) :
    multiplicative? op.lexeme = none := by
  cases op <;> first | rfl | cases h

/-- No operator between two operands is the caret. -/
theorem lexeme_ne_caret (op : Operator) : op.lexeme ≠ .punctuation '^' := by
  cases op <;> decide

/-- A text that reads as an operator is its symbol. -/
theorem symbol_of_ofSymbol? {symbol : String} {op : Operator} (h : ofSymbol? symbol = some op) :
    symbol = op.symbol := by
  unfold ofSymbol? at h
  split at h <;> cases h <;> rfl

/-- A well-formed lexeme that reads as an operator is the one that the operator is written as. -/
theorem eq_lexeme_of_ofLexeme? {lexeme : Lexeme} {op : Operator} (hformed : lexeme.WellFormed)
    (h : ofLexeme? lexeme = some op) : lexeme = op.lexeme := by
  cases lexeme with
  | identifier name =>
      obtain rfl := symbol_of_ofSymbol? h
      cases op with
      | roll => rfl
      | add | subtract | multiply | divide =>
          have halpha := List.all_eq_true.mpr hformed.2
          contradiction
  | punctuation symbol =>
      have hsymbol : [symbol] = op.symbol.toList := by
        rw [← symbol_of_ofSymbol? h, String.toList_singleton]
      cases op with
      | roll =>
          -- A letter is no symbol, so this cannot be the letter that stands for a roll.
          cases hsymbol
          exact absurd (show 'd' ∈ Lexeme.symbols from hformed) (by decide)
      | add | subtract | multiply | divide =>
          cases hsymbol
          rfl
  | number | comment | whitespace => cases h

end Operator

/-- `Derives lexemes node` says that the lexemes are written by the grammar at the tier of the node,
and that the node is their tree. A chain of operands is the chain without its last operand, and the
last operand. -/
inductive Derives : {tier : Tier} → List Lexeme → Node tier → Prop
  | number (digits : String) :
      digits.length ≤ Reading.maxDigits →
      Derives [.number digits] (.number (Reading.decimalValue digits))
  | named (name : String) : Derives [.identifier name] (.named name)
  | parentheses {lexemes : List Lexeme} {inner : Expression} :
      Derives lexemes inner →
      Derives (.punctuation '(' :: (lexemes ++ [.punctuation ')'])) (.parentheses inner)
  | ofValue {lexemes : List Lexeme} {value : Value} :
      Derives lexemes value → Derives lexemes (.ofValue value)
  | power {first second : List Lexeme} {base exponent : Value} :
      Derives first base → Derives second exponent →
      Derives (first ++ .punctuation '^' :: second) (.power base exponent)
  | ofFactor {lexemes : List Lexeme} {factor : Factor} :
      Derives lexemes factor → Derives lexemes (.ofFactor factor)
  | product {first second : List Lexeme} {left : Term} {op : Operator} {right : Factor} :
      Derives first left → op.isMultiplicative → Derives second right →
      Derives (first ++ op.lexeme :: second) (.product left op right)
  | ofTerm {lexemes : List Lexeme} {term : Term} :
      Derives lexemes term → Derives lexemes (.ofTerm term)
  | sum {first second : List Lexeme} {left : Expression} {op : Operator} {right : Term} :
      Derives first left → op.isAdditive → Derives second right →
      Derives (first ++ op.lexeme :: second) (.sum left op right)

/-- The symbols that an expression can be written with. -/
def Lexeme.expressionSymbols : List Char :=
  "()^+-*/".toList

/-- What is derived has no other symbols. -/
theorem Derives.mem_expressionSymbols {tier : Tier} {lexemes : List Lexeme} {node : Node tier}
    (h : Derives lexemes node) {symbol : Char} (hmem : .punctuation symbol ∈ lexemes) :
    symbol ∈ Lexeme.expressionSymbols := by
  have hoperator (op : Operator) (hsymbol : .punctuation symbol = op.lexeme) :
      symbol ∈ Lexeme.expressionSymbols := by
    cases op <;> cases hsymbol <;> decide
  induction h with
  | number | named => exact absurd (List.mem_singleton.1 hmem) nofun
  | parentheses _ ih =>
      rcases List.mem_cons.1 hmem with hsymbol | hmem
      · cases hsymbol
        decide
      rcases List.mem_append.1 hmem with hmem | hmem
      · exact ih hmem
      · cases List.mem_singleton.1 hmem
        decide
  | ofValue _ ih | ofFactor _ ih | ofTerm _ ih => exact ih hmem
  | power _ _ ihFirst ihSecond =>
      rcases List.mem_append.1 hmem with hmem | hmem
      · exact ihFirst hmem
      rcases List.mem_cons.1 hmem with hsymbol | hmem
      · cases hsymbol
        decide
      · exact ihSecond hmem
  | @product _ _ _ op _ _ _ _ ihFirst ihSecond | @sum _ _ _ op _ _ _ _ ihFirst ihSecond =>
      rcases List.mem_append.1 hmem with hmem | hmem
      · exact ihFirst hmem
      rcases List.mem_cons.1 hmem with hsymbol | hmem
      · exact hoperator op hsymbol
      · exact ihSecond hmem

/-! ## How deep parentheses nest -/

/-- How deep the parentheses of a tree nest. -/
def Node.nesting {tier : Tier} : Node tier → Nat
  | .number _ | .named _ => 0
  | .parentheses inner => inner.nesting + 1
  | .ofValue value => value.nesting
  | .power base exponent => max base.nesting exponent.nesting
  | .ofFactor factor => factor.nesting
  | .product left _ right => max left.nesting right.nesting
  | .ofTerm term => term.nesting
  | .sum left _ right => max left.nesting right.nesting

namespace Lexeme

/-- How many parentheses are open behind the lexeme, given how many are open before it. A closing
parenthesis that closes none changes nothing. -/
def openBehind (level : Nat) : Lexeme → Nat
  | .punctuation '(' => level + 1
  | .punctuation ')' => level - 1
  | _ => level

/-- The most parentheses that are open at a time, given how many are open at first. -/
def deepest (level : Nat) : List Lexeme → Nat
  | [] => level
  | lexeme :: rest => max level (deepest (lexeme.openBehind level) rest)

end Lexeme

/-- How deep the parentheses of a line nest. -/
def Lexed.nesting (lexed : Lexed) : Nat :=
  Lexeme.deepest 0 (lexed.tokens.map Token.lexeme)

namespace Lexeme

theorem le_deepest (level : Nat) (lexemes : List Lexeme) : level ≤ deepest level lexemes := by
  cases lexemes with
  | nil => exact Nat.le_refl level
  | cons => exact Nat.le_max_left ..

theorem openBehind_of_not_isSignificant {lexeme : Lexeme} (h : lexeme.isSignificant = false)
    (level : Nat) : lexeme.openBehind level = level := by
  cases lexeme with
  | comment | whitespace => rfl
  | identifier | number | punctuation => cases h

theorem openBehind_caret (level : Nat) : (punctuation '^').openBehind level = level :=
  rfl

theorem openBehind_operator (level : Nat) (op : Operator) :
    op.lexeme.openBehind level = level := by
  cases op <;> rfl

/-- Comments and whitespace do not matter to how deep parentheses nest. -/
theorem deepest_filter (level : Nat) (lexemes : List Lexeme) :
    deepest level (lexemes.filter isSignificant) = deepest level lexemes := by
  induction lexemes generalizing level with
  | nil => rfl
  | cons lexeme rest ih =>
      cases hsignificant : lexeme.isSignificant with
      | true => rw [List.filter_cons_of_pos hsignificant, deepest, deepest, ih]
      | false =>
          rw [List.filter_cons_of_neg (by simp [hsignificant]), ih, deepest,
            openBehind_of_not_isSignificant hsignificant, Nat.max_eq_right (le_deepest level rest)]

end Lexeme

namespace Derives

/-- Parentheses nest as deep in what is derived as in its tree, and all are closed behind it. -/
theorem deepest_append {tier : Tier} {lexemes : List Lexeme} {node : Node tier}
    (h : Derives lexemes node) (level : Nat) (rest : List Lexeme) :
    Lexeme.deepest level (lexemes ++ rest) =
      max (level + node.nesting) (Lexeme.deepest level rest) := by
  -- Since all parentheses are closed again, what follows an operand begins at the same level.
  induction h generalizing level rest with
  | number | named => rfl
  | parentheses _ ih =>
      simp only [List.cons_append, List.append_assoc, Lexeme.deepest, Lexeme.openBehind, ih,
        Node.nesting, List.nil_append, Nat.add_sub_cancel]
      omega
  | ofValue _ ih | ofFactor _ ih | ofTerm _ ih => exact ih level rest
  | power _ _ ihBase ihExponent =>
      simp only [List.cons_append, List.append_assoc, Lexeme.deepest, Lexeme.openBehind_caret,
        ihBase, ihExponent, Node.nesting]
      omega
  | product _ _ _ ihLeft ihRight | sum _ _ _ ihLeft ihRight =>
      simp only [List.cons_append, List.append_assoc, Lexeme.deepest, Lexeme.openBehind_operator,
        ihLeft, ihRight, Node.nesting]
      omega

/-- Parentheses nest as deep in what is derived as in its tree. -/
theorem deepest_eq_nesting {tier : Tier} {lexemes : List Lexeme} {node : Node tier}
    (h : Derives lexemes node) : Lexeme.deepest 0 lexemes = node.nesting := by
  simpa [Lexeme.deepest] using h.deepest_append 0 []

end Derives

end DiceArithmetic
