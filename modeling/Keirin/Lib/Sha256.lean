import Mathlib.Tactic

/-!
# SHA-256

The digest of a list of bytes, as hexadecimal text (FIPS 180-4). Words are natural numbers below `2 ^ 32`.
-/

namespace Sha256

/-- Addition of words. -/
def add (a b : Nat) : Nat := (a + b) % 2 ^ 32

/-- Rotation of a word to the right by `n` bits. -/
def rotr (n x : Nat) : Nat := (x >>> n) ||| ((x <<< (32 - n)) % 2 ^ 32)

def ch (x y z : Nat) : Nat := (x &&& y) ^^^ ((2 ^ 32 - 1 - x) &&& z)

def maj (x y z : Nat) : Nat := (x &&& y) ^^^ (x &&& z) ^^^ (y &&& z)

def bigSigma0 (x : Nat) : Nat := rotr 2 x ^^^ rotr 13 x ^^^ rotr 22 x

def bigSigma1 (x : Nat) : Nat := rotr 6 x ^^^ rotr 11 x ^^^ rotr 25 x

def smallSigma0 (x : Nat) : Nat := rotr 7 x ^^^ rotr 18 x ^^^ (x >>> 3)

def smallSigma1 (x : Nat) : Nat := rotr 17 x ^^^ rotr 19 x ^^^ (x >>> 10)

/-- The sixty-four round constants. -/
def roundConstants : List Nat :=
  [0x428a2f98, 0x71374491, 0xb5c0fbcf, 0xe9b5dba5, 0x3956c25b, 0x59f111f1, 0x923f82a4, 0xab1c5ed5,
   0xd807aa98, 0x12835b01, 0x243185be, 0x550c7dc3, 0x72be5d74, 0x80deb1fe, 0x9bdc06a7, 0xc19bf174,
   0xe49b69c1, 0xefbe4786, 0x0fc19dc6, 0x240ca1cc, 0x2de92c6f, 0x4a7484aa, 0x5cb0a9dc, 0x76f988da,
   0x983e5152, 0xa831c66d, 0xb00327c8, 0xbf597fc7, 0xc6e00bf3, 0xd5a79147, 0x06ca6351, 0x14292967,
   0x27b70a85, 0x2e1b2138, 0x4d2c6dfc, 0x53380d13, 0x650a7354, 0x766a0abb, 0x81c2c92e, 0x92722c85,
   0xa2bfe8a1, 0xa81a664b, 0xc24b8b70, 0xc76c51a3, 0xd192e819, 0xd6990624, 0xf40e3585, 0x106aa070,
   0x19a4c116, 0x1e376c08, 0x2748774c, 0x34b0bcb5, 0x391c0cb3, 0x4ed8aa4a, 0x5b9cca4f, 0x682e6ff3,
   0x748f82ee, 0x78a5636f, 0x84c87814, 0x8cc70208, 0x90befffa, 0xa4506ceb, 0xbef9a3f7, 0xc67178f2]

/-- The eight words of the hash state. -/
structure State where
  a : Nat
  b : Nat
  c : Nat
  d : Nat
  e : Nat
  f : Nat
  g : Nat
  h : Nat

def initial : State :=
  { a := 0x6a09e667, b := 0xbb67ae85, c := 0x3c6ef372, d := 0xa54ff53a,
    e := 0x510e527f, f := 0x9b05688c, g := 0x1f83d9ab, h := 0x5be0cd19 }

def State.words (s : State) : List Nat := [s.a, s.b, s.c, s.d, s.e, s.f, s.g, s.h]

/-- The message schedule, newest word first, extended by `n` words. -/
def extend : Nat → List Nat → List Nat
  | 0, w => w
  | n + 1, w =>
    extend n (add (add (smallSigma1 (w.getD 1 0)) (w.getD 6 0)) (add (smallSigma0 (w.getD 14 0)) (w.getD 15 0)) :: w)

/-- One round, on a round constant and a word of the schedule. -/
def round (s : State) (kw : Nat × Nat) : State :=
  let t1 := add (add (add s.h (bigSigma1 s.e)) (ch s.e s.f s.g)) (add kw.1 kw.2)
  let t2 := add (bigSigma0 s.a) (maj s.a s.b s.c)
  { a := add t1 t2, b := s.a, c := s.b, d := s.c, e := add s.d t1, f := s.e, g := s.f, h := s.g }

/-- The compression of one block of sixteen words. -/
def compress (s : State) (block : List Nat) : State :=
  let t := (roundConstants.zip (extend 48 block.reverse).reverse).foldl round s
  { a := add s.a t.a, b := add s.b t.b, c := add s.c t.c, d := add s.d t.d,
    e := add s.e t.e, f := add s.f t.f, g := add s.g t.g, h := add s.h t.h }

/-- The bytes with the closing bit, the zeros and the length in bits. -/
def pad (bytes : List Nat) : List Nat :=
  bytes ++ 0x80 :: List.replicate ((119 - bytes.length % 64) % 64) 0 ++
    (List.range 8).map (fun i => (bytes.length * 8) >>> (8 * (7 - i)) % 256)

/-- Big-endian words of four bytes. -/
def wordsOf : List Nat → List Nat
  | b0 :: b1 :: b2 :: b3 :: rest => (((b0 * 256 + b1) * 256 + b2) * 256 + b3) :: wordsOf rest
  | _ => []

/-- Blocks of sixteen words, at most `n` of them. -/
def blocks : Nat → List Nat → List (List Nat)
  | 0, _ => []
  | _ + 1, [] => []
  | n + 1, ws => ws.take 16 :: blocks n (ws.drop 16)

def hexDigit (n : Nat) : Char := "0123456789abcdef".toList.getD n '0'

/-- The eight hexadecimal digits of a word. -/
def hexWord (w : Nat) : List Char := (List.range 8).map (fun i => hexDigit (w >>> (4 * (7 - i)) % 16))

/-- `hashlib.sha256(bytes).hexdigest()`. -/
def hexdigest (bytes : List Nat) : List Char :=
  let ws := wordsOf (pad bytes)
  ((blocks ws.length ws).foldl compress initial).words.flatMap hexWord

/-- A digest is sixty-four characters long. -/
theorem length_hexdigest (bytes : List Nat) : (hexdigest bytes).length = 64 := by
  simp [hexdigest, State.words, hexWord]

/-- A hexadecimal digit is one of the sixteen characters. -/
theorem hexDigit_mem (n : Nat) : hexDigit n ∈ "0123456789abcdef".toList := by
  unfold hexDigit
  rw [List.getD_eq_getElem?_getD]
  cases h : "0123456789abcdef".toList[n]? with
  | none => decide
  | some c => exact List.mem_of_getElem? h

/-- Every character of a digest is a hexadecimal digit. -/
theorem mem_hexdigest {bytes : List Nat} {c : Char} (hc : c ∈ hexdigest bytes) :
    c ∈ "0123456789abcdef".toList := by
  simp only [hexdigest, List.mem_flatMap] at hc
  obtain ⟨w, -, hc⟩ := hc
  simp only [hexWord, List.mem_map] at hc
  obtain ⟨i, -, rfl⟩ := hc
  exact hexDigit_mem _

end Sha256
