/-
# TestProgram.Random.ChaCha -- a stream of words made from a seed

The words are the key stream of the ChaCha cipher with eight rounds, a 64-bit
block counter and a zero nonce.  The key is drawn from the seed by a linear
congruential generator with a permuted output.  The stream is a function of the
word's index: block `i / 16` of the cipher, word `i % 16` of that block.
-/
import TestProgram.MachineWord

namespace TestProgram.Random.ChaCha

set_option autoImplicit false

abbrev Words (n : Nat) := Vector UInt32 n

def rotateLeft (word amount : UInt32) : UInt32 :=
  (word <<< amount) ||| (word >>> (32 - amount))

/-! ## The key -/

def nextState (state : UInt64) : UInt64 :=
  state * 6364136223846793005 + 11634580027462260723

/-- The key word that a state of the generator stands for. -/
def keyWord (state : UInt64) : UInt32 :=
  let folded := (((state >>> 18) ^^^ state) >>> 27).toUInt32
  let turn := (state >>> 59).toUInt32
  rotateLeft folded ((32 - turn) % 32)

def keyStates : Nat → UInt64 → List UInt64
  | 0, _ => []
  | n + 1, state => nextState state :: keyStates n (nextState state)

def key (seed : Nat) : List UInt32 :=
  (keyStates 8 (UInt64.ofNat seed)).map keyWord

/-! ## One block -/

def quarterRound (a b c d : Fin 16) (s : Words 16) : Words 16 :=
  let s := s.set a (s[a] + s[b])
  let s := s.set d (rotateLeft (s[d] ^^^ s[a]) 16)
  let s := s.set c (s[c] + s[d])
  let s := s.set b (rotateLeft (s[b] ^^^ s[c]) 12)
  let s := s.set a (s[a] + s[b])
  let s := s.set d (rotateLeft (s[d] ^^^ s[a]) 8)
  let s := s.set c (s[c] + s[d])
  s.set b (rotateLeft (s[b] ^^^ s[c]) 7)

/-- A round down the columns, then one along the diagonals. -/
def doubleRound (s : Words 16) : Words 16 :=
  let s := quarterRound 0 4 8 12 s
  let s := quarterRound 1 5 9 13 s
  let s := quarterRound 2 6 10 14 s
  let s := quarterRound 3 7 11 15 s
  let s := quarterRound 0 5 10 15 s
  let s := quarterRound 1 6 11 12 s
  let s := quarterRound 2 7 8 13 s
  quarterRound 3 4 9 14 s

def initial (key : List UInt32) (counter : Nat) : Words 16 :=
  let word (i : Nat) : UInt32 := key.getD i 0
  #v[0x61707865, 0x3320646e, 0x79622d32, 0x6b206574,
     word 0, word 1, word 2, word 3, word 4, word 5, word 6, word 7,
     UInt32.ofNat counter, UInt32.ofNat (counter / MachineWord.short), 0, 0]

def block (key : List UInt32) (counter : Nat) : Words 16 :=
  let start := initial key counter
  let mixed := doubleRound (doubleRound (doubleRound (doubleRound start)))
  Vector.zipWith (· + ·) mixed start

/-- The word at an index of the stream. -/
def stream (key : List UInt32) (index : Nat) : UInt32 :=
  (block key (index / 16)).get ⟨index % 16, Nat.mod_lt _ (by decide)⟩

end TestProgram.Random.ChaCha
