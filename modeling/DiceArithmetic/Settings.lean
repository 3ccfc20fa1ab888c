import DiceArithmetic.Bindings
import DiceArithmetic.Roll
import DiceArithmetic.Text.Numeral

/-!
# Settings

The limits that a service sets on rolls, and how much it logs. Each may be given by a named text, as
environments give them. An environment tells the case of letters apart and a setting does not, so
several names may give the same setting: the last of them, in the environment's order, counts.
-/

namespace DiceArithmetic

/-- What can be configured. -/
structure Settings where
  maxDice : Int := 100
  maxSides : Int := 1000
  logLevel : String := "INFO"
  deriving DecidableEq, Repr

namespace Settings

/-- The limits that the settings put on a roll. -/
def limits (settings : Settings) : Limits :=
  ⟨settings.maxDice, settings.maxSides⟩

/-- What the names of settings begin with. -/
def nameHead : String :=
  "DICEMATH_"

/-- Whether two names are the same but for the case of ASCII letters. -/
def sameName (left right : String) : Bool :=
  left.toList.map Char.toLower = right.toList.map Char.toLower

/-- The text given for a setting, under the last of the names that mean it. -/
def given? (environment : Bindings String) (setting : String) : Option String :=
  (environment.entries.findRev? fun (name, _) ↦ sameName name (nameHead ++ setting)).map Prod.snd

/-- The integer given for a setting, or the one that holds if none is given. -/
def integer? (environment : Bindings String) (setting : String) (otherwise : Int) : Option Int :=
  match given? environment setting with
  | none => some otherwise
  | some text => Text.integer? text

/-- The settings given by an environment, or the names of those whose text is no integer, in
alphabetical order. -/
def ofEnvironment (environment : Bindings String) : Except (List String) Settings :=
  let standard : Settings := {}
  match integer? environment "max_dice" standard.maxDice,
    integer? environment "max_sides" standard.maxSides with
  | some maxDice, some maxSides =>
      .ok ⟨maxDice, maxSides, (given? environment "log_level").getD standard.logLevel⟩
  | none, some _ => .error ["max_dice"]
  | some _, none => .error ["max_sides"]
  | none, none => .error ["max_dice", "max_sides"]

end Settings

end DiceArithmetic
