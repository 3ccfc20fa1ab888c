/-!
# Powers and sums of numbers

Powers and sums of lists are those of the core library, also in a module that imports a library with
powers and sums of its own. So a definition means the same whatever is imported beside it.
-/

attribute [instance (high + 1), default_instance high + 1] instPowNat

-- The zero that the sum of a list begins with is the literal one.
attribute [instance (high + 1)] Zero.ofOfNat0
