/-!
# The twister

The MT19937 generator of 32-bit words: 624 words of state, renewed all at once, and a tempering of
each word that is handed out. The state is seeded from a list of words.
-/

namespace RuleTrader

/-- The state of the generator and the place of the next word. -/
structure Twister where
  words : Array UInt32
  next : Nat
  deriving Repr

namespace Twister

/-- The number of words of the state. -/
def size : Nat := 624

/-- The distance of the word that is mixed in when a word is renewed. -/
def distance : Nat := 397

/-- The word at a place, counted around the state. -/
def wordAt (words : Array UInt32) (i : Nat) : UInt32 :=
  words.getD (i % size) 0

def setWord (words : Array UInt32) (i : Nat) (w : UInt32) : Array UInt32 :=
  words.setIfInBounds i w

/-! ## Seeding -/

/-- A multiple of a word mixed with its high bits. -/
def scramble (factor w : UInt32) : UInt32 :=
  (w ^^^ (w >>> 30)) * factor

def ofWord (seed : UInt32) : Array UInt32 :=
  (List.range (size - 1)).foldl
    (fun words i => words.push (scramble 1812433253 (wordAt words i) + UInt32.ofNat (i + 1)))
    #[seed]

/-- Where the two passes of seeding stand: the words, the place in the state and in the key. -/
structure Seeding where
  words : Array UInt32
  place : Nat
  key : Nat

/-- Go on to the next place; past the end the last word moves to the front. -/
def Seeding.advance (s : Seeding) : Seeding :=
  if s.place + 1 < size then { s with place := s.place + 1 }
  else { s with words := setWord s.words 0 (wordAt s.words (size - 1)), place := 1 }

def Seeding.mixKey (key : List UInt32) (s : Seeding) : Seeding :=
  let before := wordAt s.words (s.place - 1)
  let w := (wordAt s.words s.place ^^^ scramble 1664525 before)
    + key.getD s.key 0 + UInt32.ofNat s.key
  let s := { s with words := setWord s.words s.place w }.advance
  { s with key := if s.key + 1 < key.length then s.key + 1 else 0 }

def Seeding.mixPlace (s : Seeding) : Seeding :=
  let before := wordAt s.words (s.place - 1)
  let w := (wordAt s.words s.place ^^^ scramble 1566083941 before) - UInt32.ofNat s.place
  { s with words := setWord s.words s.place w }.advance

/-- Repeat a step. -/
def iterate {α : Type} (f : α → α) : Nat → α → α
  | 0, a => a
  | n + 1, a => iterate f n (f a)

def ofKey (key : List UInt32) : Twister :=
  let start : Seeding := ⟨ofWord 19650218, 1, 0⟩
  let mixed := iterate (Seeding.mixKey key) (max size key.length) start
  let words := (iterate Seeding.mixPlace (size - 1) mixed).words
  ⟨setWord words 0 0x80000000, size⟩

/-- The words of a number, the lowest first. -/
def keyWords (n : Nat) : List UInt32 :=
  if n < 0x100000000 then [UInt32.ofNat n]
  else UInt32.ofNat (n % 0x100000000) :: keyWords (n / 0x100000000)
termination_by n
decreasing_by omega

/-- The state that an integer seeds; its sign does not count. -/
def ofSeed (seed : Int) : Twister :=
  ofKey (keyWords seed.natAbs)

/-! ## Drawing -/

/-- The word that takes the place of word `i`. -/
def renewed (words : Array UInt32) (i : Nat) : UInt32 :=
  let y := (wordAt words i &&& 0x80000000) ||| (wordAt words (i + 1) &&& 0x7FFFFFFF)
  let half := wordAt words (i + distance) ^^^ (y >>> 1)
  if y &&& 1 = 0 then half else half ^^^ 0x9908B0DF

/-- Renew all words, from the first to the last. -/
def renew (words : Array UInt32) : Array UInt32 :=
  (List.range size).foldl (fun words i => setWord words i (renewed words i)) words

/-- The word that is handed out for a word of the state. -/
def temper (w : UInt32) : UInt32 :=
  let w := w ^^^ (w >>> 11)
  let w := w ^^^ ((w <<< 7) &&& 0x9D2C5680)
  let w := w ^^^ ((w <<< 15) &&& 0xEFC60000)
  w ^^^ (w >>> 18)

def draw (t : Twister) : UInt32 × Twister :=
  let t := if t.next < size then t else ⟨renew t.words, 0⟩
  (temper (wordAt t.words t.next), { t with next := t.next + 1 })

/-- Draw a number from `0` up to but not `1`, with 53 random bits. -/
def drawUnit (t : Twister) : Float × Twister :=
  let (a, t) := t.draw
  let (b, t) := t.draw
  let n := (a >>> 5).toNat * 67108864 + (b >>> 6).toNat
  (Float.ofNat n * (1.0 / 9007199254740992.0), t)

/-- Draw words cut to `bits` bits until one is below `width`, at most `fuel` of them; then take
what is left when `width` is taken off the last one. -/
def drawBelow (width bits : Nat) : Nat → Twister → Nat × Twister
  | 0, t =>
    let (w, t) := t.draw
    (w.toNat % width, t)
  | fuel + 1, t =>
    let (w, t) := t.draw
    let n := (w >>> UInt32.ofNat (32 - bits)).toNat
    if n < width then (n, t) else drawBelow width bits fuel t

/-- So many draws in a row do not all miss. -/
def patience : Nat := 10000

/-- Draw an integer from `low` to `high`. -/
def drawBetween (low high : Int) (t : Twister) : Int × Twister :=
  let width := (high - low + 1).toNat
  let (n, t) := drawBelow width (Nat.log2 width + 1) patience t
  (low + n, t)

end Twister

end RuleTrader
