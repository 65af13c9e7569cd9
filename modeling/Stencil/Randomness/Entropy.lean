/-!
# Entropy

A source of pseudorandom words of 64 bits: a counter that advances by a fixed odd step, with its
bits mixed. The same seed gives the same words. There is nothing to draw from an empty range, an
empty list or an empty alphabet, so a draw takes a proof that its range is not empty.
-/

namespace Stencil

/-- A source of pseudorandom words. -/
structure Entropy where
  state : UInt64

namespace Entropy

/-- The source with the given seed. -/
def ofSeed (seed : Nat) : Entropy :=
  ⟨seed.toUInt64⟩

/-- Mixes the bits of a word. -/
def mix (word : UInt64) : UInt64 :=
  let a := (word ^^^ (word >>> 30)) * 0xBF58476D1CE4E5B9
  let b := (a ^^^ (a >>> 27)) * 0x94D049BB133111EB
  b ^^^ (b >>> 31)

/-- The next word. -/
def next (e : Entropy) : Nat × Entropy :=
  let state := e.state + 0x9E3779B97F4A7C15
  ((mix state).toNat, ⟨state⟩)

/-- A number below `n`. -/
def below (n : Nat) (h : 0 < n) (e : Entropy) : Fin n × Entropy :=
  let (word, e) := e.next
  (⟨word % n, Nat.mod_lt word h⟩, e)

/-- An integer from `min` to `max`. -/
def between (min max : Int) (h : min ≤ max) (e : Entropy) : Int × Entropy :=
  let (offset, e) := e.below (max - min + 1).toNat (by omega)
  (min + offset, e)

/-- An item of a list that starts with `first`. -/
def choose {α : Type} (first : α) (rest : List α) (e : Entropy) : α × Entropy :=
  let (index, e) := e.below (first :: rest).length (Nat.succ_pos rest.length)
  ((first :: rest)[index], e)

/-- A random boolean. -/
def coin (e : Entropy) : Bool × Entropy :=
  let (n, e) := e.below 2 Nat.two_pos
  (n == 1, e)

/-- Puts `length` random characters of an alphabet in front of a text. -/
def extend (alphabet : Array Char) (h : 0 < alphabet.size) :
    Nat → List Char → Entropy → List Char × Entropy
  | 0, text, e => (text, e)
  | length + 1, text, e =>
    let (index, e) := e.below alphabet.size h
    extend alphabet h length (alphabet[index] :: text) e

/-- A text of random characters of an alphabet. -/
def text (alphabet : String) (h : alphabet ≠ "") (length : Nat) (e : Entropy) : String × Entropy :=
  let (cs, e) := extend alphabet.toList.toArray (by simpa [List.length_pos_iff] using h) length [] e
  (String.ofList cs, e)

/-- Writes the lowest hexadecimal digits of a number in front of a text. -/
def hexDigits : Nat → Nat → List Char → List Char
  | 0, _, text => text
  | count + 1, n, text => hexDigits count (n / 16) (Nat.digitChar (n % 16) :: text)

/-- A random unique identifier: 32 hexadecimal digits in groups of 8, 4, 4, 4 and 12. The first
digit of the third group is `4`, and the first one of the fourth group is from `8` to `b`. -/
def identifier (e : Entropy) : String × Entropy :=
  let (first, e) := e.next
  let (second, e) := e.next
  let third := first % 4096
  let fourth := 32768 + (second >>> 48) % 16384
  let text :=
    hexDigits 8 (first >>> 32) [] ++ '-' :: hexDigits 4 (first >>> 16) [] ++
      '-' :: '4' :: hexDigits 3 third [] ++ '-' :: hexDigits 4 fourth [] ++
      '-' :: hexDigits 12 second []
  (String.ofList text, e)

/-- A range gives one of its integers. -/
theorem between_mem {min max : Int} (h : min ≤ max) (e : Entropy) :
    min ≤ (e.between min max h).1 ∧ (e.between min max h).1 ≤ max := by
  have hlt : ((e.below (max - min + 1).toNat (by omega)).1 : Nat) < (max - min + 1).toNat :=
    (e.below (max - min + 1).toNat (by omega)).1.isLt
  simp only [between]
  omega

end Entropy

end Stencil
