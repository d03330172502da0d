import StationGateway.Credentials.Der

/-!
# Digests

The digest of 512 bits of a message. The message is filled up to whole blocks of 128 bytes, and each
block is mixed into a state of eight words in eighty rounds. The constants are the first binary
digits behind the point of roots of the first primes. -/

namespace StationGateway.Credentials.Digest

/-- The primes below a number. -/
def primesBelow (bound : Nat) : List Nat :=
  (List.range bound).filter fun number =>
    2 ≤ number && (List.range number).all fun divisor => divisor < 2 || number % divisor ≠ 0

/-- The greatest number whose power is at most another number, found from its highest binary digit
down. -/
def rootFrom (exponent number : Nat) : Nat → Nat → Nat
  | 0, root => root
  | place + 1, root =>
      let next := root + Nat.pow 2 place
      rootFrom exponent number place (if Nat.pow next exponent ≤ number then next else root)

/-- The first 64 binary digits behind the point of a root of a number below 512. -/
def rootDigits (exponent number : Nat) : UInt64 :=
  UInt64.ofNat (rootFrom exponent (number * Nat.pow 2 (64 * exponent)) 69 0)

/-- The number of rounds for a block. -/
def roundCount : Nat := 80

/-- The constants of the rounds. -/
def roundConstants : List UInt64 :=
  ((primesBelow 410).take roundCount).map (rootDigits 3)

/-- The words before the first block. -/
def start : List UInt64 :=
  ((primesBelow 20).take 8).map (rootDigits 2)

/-- A word turned to the right. -/
def turn (word places : UInt64) : UInt64 :=
  word >>> places ||| word <<< (64 - places)

/-- A word turned in two ways and shifted. -/
def blend (first second shift word : UInt64) : UInt64 :=
  turn word first ^^^ turn word second ^^^ word >>> shift

/-- A word turned in three ways. -/
def mix (first second third word : UInt64) : UInt64 :=
  turn word first ^^^ turn word second ^^^ turn word third

/-- The words of a block with some further words, the last one first. -/
def extend : Nat → List UInt64 → List UInt64
  | 0, words => words
  | count + 1, words =>
      let word (back : Nat) : UInt64 := words.getD (back - 1) 0
      extend count
        ((blend 19 61 6 (word 2) + word 7 + blend 1 8 7 (word 15) + word 16) :: words)

/-- The state after a round with a constant and a word. -/
def round (state : List UInt64) (input : UInt64 × UInt64) : List UInt64 :=
  match state with
  | [a, b, c, d, e, f, g, h] =>
      let first := h + mix 14 18 41 e + ((e &&& f) ^^^ (~~~e &&& g)) + input.1 + input.2
      let second := mix 28 34 39 a + ((a &&& b) ^^^ (a &&& c) ^^^ (b &&& c))
      [first + second, a, b, c, d + first, e, f, g]
  | other => other

/-- The state after a block of sixteen words. -/
def absorb (state block : List UInt64) : List UInt64 :=
  let words := (extend (roundCount - 16) block.reverse).reverse
  List.zipWith (· + ·) state ((roundConstants.zip words).foldl round state)

/-- The parts of a list with some items each. -/
def parts {α : Type} (size : Nat) : Nat → List α → List (List α)
  | 0, _ => []
  | count + 1, items => items.take size :: parts size count (items.drop size)

/-- A message filled up to whole blocks: a mark, zeros, and the number of its bits. -/
def fill (message : List UInt8) : List UInt8 :=
  let zeros := (239 - message.length % 128) % 128
  message ++ 0x80 :: List.replicate zeros 0 ++ numberBytes 16 (8 * message.length)

/-- The words of bytes. -/
def words (bytes : List UInt8) : List UInt64 :=
  (parts 8 (bytes.length / 8) bytes).map fun part => UInt64.ofNat (bytesValue part)

/-- The digest of a message. -/
def ofMessage (message : List UInt8) : List UInt8 :=
  let filled := words (fill message)
  let state := (parts 16 (filled.length / 16) filled).foldl absorb start
  state.flatMap fun word => numberBytes 8 word.toNat

end StationGateway.Credentials.Digest
