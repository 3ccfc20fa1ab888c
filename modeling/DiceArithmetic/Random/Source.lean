/-!
# Sources of draws

A source hands out integers on request. It keeps a state of a type of its own, and it may fail; a
failed draw leaves a state too. `Source.recording` turns any source into one that remembers what it
has handed out.
-/

namespace DiceArithmetic

/-- Why a source hands out nothing: its script is used up, or no integer lies in the range. -/
inductive SourceError where
  | exhausted (length : Nat)
  | emptyRange
  deriving DecidableEq, Repr

/-- A failed draw in words. -/
def SourceError.message : SourceError → String
  | .exhausted length => s!"Scripted randomness exhausted after {length} draws"
  | .emptyRange => "No integer lies in the range"

/-- A source with states of type `σ`. A draw names the least and the greatest integer wanted; a
source decides by itself whether to keep to them. -/
structure Source (σ : Type) where
  draw : (low high : Int) → EStateM SourceError σ Int

/-- An integer handed out, with the range that was asked for. -/
structure Draw where
  low : Int
  high : Int
  value : Int
  deriving DecidableEq, Repr

/-- The state of a source, and what it has handed out so far, in order. -/
structure Recorded (σ : Type) where
  state : σ
  draws : Array Draw := #[]
  deriving Repr

/-- The source that does the same and remembers every draw that succeeds. -/
def Source.recording {σ : Type} (source : Source σ) : Source (Recorded σ) where
  draw low high recorded :=
    match source.draw low high recorded.state with
    | .ok value state => .ok value ⟨state, recorded.draws.push ⟨low, high, value⟩⟩
    | .error error state => .error error ⟨state, recorded.draws⟩

end DiceArithmetic
