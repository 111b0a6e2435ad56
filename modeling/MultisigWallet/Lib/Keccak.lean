import Mathlib.Algebra.Group.Nat.Defs
import Mathlib.Data.List.Basic

/-!
# Keccak-256

The hash function of Ethereum, in a form the kernel evaluates: the 1600-bit state is
one natural number whose `i`-th 64-bit digit is lane `i`, so a round is a few hundred
operations on big numbers instead of a walk over lists of bits. A block of the message
is exclusive-or-ed into the low 1088 bits of the state, and the digest is the low 256
bits, all read in little-endian order.
-/

namespace Keccak

/-! ### The permutation -/

/-- Rotate a lane to the left. -/
def rotl (x n : Nat) : Nat := ((x <<< n) ||| (x >>> (64 - n))) % 2 ^ 64

/-- Lane `i` of a state. -/
def lane (s i : Nat) : Nat := (s >>> (64 * i)) % 2 ^ 64

/-- The state with lanes `f 0, …, f (n - 1)`. -/
def pack (f : Nat → Nat) : Nat → Nat
  | 0 => 0
  | n + 1 => pack f n + f n <<< (64 * n)

/-- The rotation offsets of the lanes. -/
def rotations : List Nat :=
  [0, 1, 62, 28, 27, 36, 44, 6, 55, 20, 3, 10, 43, 25, 39, 41, 45, 15, 21, 8, 18, 2, 61, 56, 14]

/-- The constants of the 24 rounds. -/
def roundConstants : List Nat :=
  [0x0000000000000001, 0x0000000000008082, 0x800000000000808A, 0x8000000080008000,
   0x000000000000808B, 0x0000000080000001, 0x8000000080008081, 0x8000000000008009,
   0x000000000000008A, 0x0000000000000088, 0x0000000080008009, 0x000000008000000A,
   0x000000008000808B, 0x800000000000008B, 0x8000000000008089, 0x8000000000008003,
   0x8000000000008002, 0x8000000000000080, 0x000000000000800A, 0x800000008000000A,
   0x8000000080008081, 0x8000000000008080, 0x0000000080000001, 0x8000000080008008]

/-- θ: every column is mixed with the parities of its two neighbours. -/
def theta (s : Nat) : Nat :=
  let c := s % 2 ^ 320 ^^^ (s >>> 320) % 2 ^ 320 ^^^ (s >>> 640) % 2 ^ 320 ^^^
    (s >>> 960) % 2 ^ 320 ^^^ s >>> 1280
  let d := pack (fun x => lane c ((x + 4) % 5) ^^^ rotl (lane c ((x + 1) % 5)) 1) 5
  s ^^^ (d + d <<< 320 + d <<< 640 + d <<< 960 + d <<< 1280)

/-- ρ and π: lanes are rotated and permuted. -/
def rhoPi (s : Nat) : Nat :=
  pack (fun i =>
    let j := 5 * (i % 5) + (i % 5 + 3 * (i / 5)) % 5
    rotl (lane s j) (rotations.getD j 0)) 25

/-- χ: the one non-linear step. -/
def chi (s : Nat) : Nat :=
  pack (fun i =>
    lane s i ^^^ ((2 ^ 64 - 1 - lane s (i / 5 * 5 + (i + 1) % 5)) &&&
      lane s (i / 5 * 5 + (i + 2) % 5))) 25

/-- The rounds with the constants `rcs`. The match makes the state a numeral before
the next round starts, which keeps evaluation linear in the number of rounds. -/
def permuteFrom : List Nat → Nat → Nat
  | [], s => s
  | rc :: rcs, s =>
      match chi (rhoPi (theta s)) ^^^ rc with
      | 0 => permuteFrom rcs 0
      | n + 1 => permuteFrom rcs (n + 1)

/-- Keccak-f[1600]. -/
def permute (s : Nat) : Nat := permuteFrom roundConstants s

/-! ### The sponge -/

/-- The number a string of bytes denotes, least significant byte first. -/
def leNat : List UInt8 → Nat
  | [] => 0
  | b :: bs => b.toNat + 256 * leNat bs

/-- The `w` least significant bytes of a number, least significant first. -/
def leBytes : Nat → Nat → List UInt8
  | 0, _ => []
  | w + 1, n => UInt8.ofNat n :: leBytes w (n / 256)

/-- The padding of the original Keccak submission: `0x01`, zeros, `0x80`. -/
def pad (bs : List UInt8) : List UInt8 :=
  let k := 136 - bs.length % 136
  if k = 1 then bs ++ [0x81] else bs ++ 0x01 :: List.replicate (k - 2) 0 ++ [0x80]

/-- Absorb `n` blocks of 136 bytes. -/
def absorb : Nat → Nat → List UInt8 → Nat
  | 0, s, _ => s
  | n + 1, s, bs => absorb n (permute (s ^^^ leNat (bs.take 136))) (bs.drop 136)

/-- Keccak-256. -/
def keccak256 (bs : List UInt8) : List UInt8 :=
  let padded := pad bs
  leBytes 32 (absorb (padded.length / 136) 0 padded)

theorem length_leBytes (w n : Nat) : (leBytes w n).length = w := by
  induction w generalizing n with
  | zero => rfl
  | succ w ih => rw [leBytes, List.length_cons, ih]

/-- A digest has 32 bytes. -/
theorem length_keccak256 (bs : List UInt8) : (keccak256 bs).length = 32 :=
  length_leBytes _ _

end Keccak
