import DiceArithmetic.Text.Printable

/-!
# Quoted text

How a message shows a text: between quotes, on one line, in printable characters only.
-/

namespace DiceArithmetic.Text

/-- A number in lower-case hexadecimal digits, with leading zeros up to the given width. -/
def hexadecimal (width : Nat) (value : Nat) : List Char :=
  let digits := Nat.toDigits 16 value
  List.replicate (width - digits.length) '0' ++ digits

/-- How one character shows between these quotes. The quote itself and the backslash follow a
backslash; an unprintable character is named by its letter if it has one, and otherwise by its code
point in two, four or eight hexadecimal digits, whichever is the least that holds it. -/
def escaped (quote character : Char) : List Char :=
  if character = quote ∨ character = '\\' then ['\\', character]
  else if character = '\n' then ['\\', 'n']
  else if character = '\r' then ['\\', 'r']
  else if character = '\t' then ['\\', 't']
  else if isPrintable character then [character]
  else if character.toNat < 0x100 then ['\\', 'x'] ++ hexadecimal 2 character.toNat
  else if character.toNat < 0x10000 then ['\\', 'u'] ++ hexadecimal 4 character.toNat
  else ['\\', 'U'] ++ hexadecimal 8 character.toNat

/-- The quote that a text is put between: the apostrophe, unless the text holds an apostrophe and
no double quote. -/
def quoteFor (text : List Char) : Char :=
  if '\'' ∈ text ∧ '\"' ∉ text then '\"' else '\''

/-- A text between quotes, with every character shown as `escaped` says. -/
def quoted (text : String) : String :=
  let quote := quoteFor text.toList
  String.ofList ([quote] ++ text.toList.flatMap (escaped quote) ++ [quote])

end DiceArithmetic.Text
