/-!
# The ChaCha word stream

The stream of 32-bit words of ChaCha with twelve rounds, a 64-bit block counter that starts at
zero and an empty nonce. `ChaCha.ofSeed` spreads a 64-bit seed over the key.
-/

namespace Playhead

/-- Sixteen words: constants, key, counter and nonce, or what the rounds make of them. -/
abbrev ChaCha.Block := Vector UInt32 16

/-- A position in the stream of one key. -/
structure ChaCha where
  key : Vector UInt32 8
  /-- Number of the next block. -/
  counter : UInt64
  /-- Words of the current block that were not taken yet. -/
  ahead : List UInt32

namespace ChaCha

def rotateLeft (x n : UInt32) : UInt32 := (x <<< n) ||| (x >>> (32 - n))

/-- The quarter round on four places of a block. -/
def quarter (s : Block) (a b c d : Fin 16) : Block :=
  let s := s.set a (s[a] + s[b])
  let s := s.set d (rotateLeft (s[d] ^^^ s[a]) 16)
  let s := s.set c (s[c] + s[d])
  let s := s.set b (rotateLeft (s[b] ^^^ s[c]) 12)
  let s := s.set a (s[a] + s[b])
  let s := s.set d (rotateLeft (s[d] ^^^ s[a]) 8)
  let s := s.set c (s[c] + s[d])
  s.set b (rotateLeft (s[b] ^^^ s[c]) 7)

/-- A round over the columns and one over the diagonals. -/
def doubleRound (s : Block) : Block :=
  let s := quarter s 0 4 8 12
  let s := quarter s 1 5 9 13
  let s := quarter s 2 6 10 14
  let s := quarter s 3 7 11 15
  let s := quarter s 0 5 10 15
  let s := quarter s 1 6 11 12
  let s := quarter s 2 7 8 13
  quarter s 3 4 9 14

/-- The block before its rounds. -/
def initial (key : Vector UInt32 8) (counter : UInt64) : Block :=
  (#v[0x61707865, 0x3320646e, 0x79622d32, 0x6b206574] : Vector UInt32 4) ++ key ++
    (#v[counter.toUInt32, (counter >>> 32).toUInt32, 0, 0] : Vector UInt32 4)

/-- The words of one block: twelve rounds, added to where they started. -/
def block (key : Vector UInt32 8) (counter : UInt64) : Block :=
  let start := initial key counter
  Vector.zipWith (· + ·) (Nat.repeat doubleRound 6 start) start

/-- Take the next word. -/
def next (g : ChaCha) : UInt32 × ChaCha :=
  match g.ahead with
  | w :: rest => (w, { g with ahead := rest })
  | [] =>
    match (block g.key g.counter).toList with
    | w :: rest => (w, { g with counter := g.counter + 1, ahead := rest })
    | [] => (0, g)

/-- The first `n` words of a key that a seed spreads to. -/
def spread : Nat → UInt64 → List UInt32
  | 0, _ => []
  | n + 1, state =>
    let state := state * 6364136223846793005 + 11634580027462260723
    let x := (((state >>> 18) ^^^ state) >>> 27).toUInt32
    let turn := (state >>> 59).toUInt32
    ((x >>> turn) ||| (x <<< ((32 - turn) % 32))) :: spread n state

theorem length_spread (n : Nat) (state : UInt64) : (spread n state).length = n := by
  induction n generalizing state with
  | zero => rfl
  | succ n ih => simp [spread, ih]

/-- The stream of a seed. -/
def ofSeed (seed : UInt64) : ChaCha where
  key := ⟨(spread 8 seed).toArray, by simp [length_spread]⟩
  counter := 0
  ahead := []

end ChaCha

end Playhead
