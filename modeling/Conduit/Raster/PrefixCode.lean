/-!
# Prefix codes

A prefix code is given by the lengths of its words: shorter words come first, words of one length
follow each other in the order of their symbols. Words are read one bit at a time.
-/

namespace Conduit

/-- A code, by the number of words of each length and the symbols in the order of their words. -/
structure PrefixCode where
  /-- How many words have one bit, two bits, and so on. -/
  counts : List Nat
  symbols : Array Nat
deriving DecidableEq, Repr

namespace PrefixCode

/-- How many words of the last length are still free, or nothing if there are too many words. -/
def spare? (counts : List Nat) : Option Nat :=
  counts.foldlM (fun free n => if n ≤ 2 * free then some (2 * free - n) else none) 1

/-- The code in which each symbol has a word of the given length, or none where it is zero. -/
def ofLengths (longest : Nat) (lengths : List Nat) : PrefixCode where
  counts := (List.range longest).map fun l => lengths.count (l + 1)
  symbols := ((List.range longest).flatMap fun l =>
    (lengths.zipIdx.filter fun e => e.1 = l + 1).map Prod.snd).toArray

/-- Reads one word and gives its symbol and the other bits. -/
def read (c : PrefixCode) (bits : List Bool) : Option (Nat × List Bool) :=
  go c.counts 0 0 0 bits
where
  /-- `first` is the first word of the length and `index` the place of its symbol. -/
  go : List Nat → (word first index : Nat) → List Bool → Option (Nat × List Bool)
    | n :: counts, word, first, index, b :: bits =>
      let word := 2 * word + b.toNat
      if word < first + n then (c.symbols[index + (word - first)]?).map (·, bits)
      else go counts word (2 * (first + n)) (index + n) bits
    | _, _, _, _, _ => none

/-- The words of all symbols: length and word. -/
def words (c : PrefixCode) : List (Nat × Nat × Nat) :=
  go c.counts 1 0 c.symbols.toList
where
  go : List Nat → (length word : Nat) → List Nat → List (Nat × Nat × Nat)
    | [], _, _, _ => []
    | n :: counts, length, word, symbols =>
      ((symbols.take n).zipIdx word).map (fun e => (e.1, length, e.2)) ++
        go counts (length + 1) (2 * (word + n)) (symbols.drop n)

end PrefixCode

end Conduit
