import Mathlib.Algebra.Group.Nat.Defs
import Mathlib.Data.Nat.Basic

/-!
# ECDSA on secp256k1

Signing with a given nonce and recovering the signer's public key, in a form the kernel
evaluates: points are in Jacobian coordinates, so that the only inversions are one for
the nonce and one for the result, and `force` turns a number into a numeral before the
next step is taken.
-/

namespace Secp256k1

/-- The field's characteristic. -/
def p : Nat := 2 ^ 256 - 2 ^ 32 - 977

/-- The order of the group. -/
def n : Nat := 0xfffffffffffffffffffffffffffffffebaaedce6af48a03bbfd25e8cd0364141

/-- Evaluate a number, then go on. -/
def force {α : Type} (x : Nat) (k : Nat → α) : α :=
  match x with
  | 0 => k 0
  | m + 1 => k (m + 1)

/-! ### The field -/

/-- `b ^ e` modulo `m`, from the `w` low bits of `e`, the most significant one first. -/
def powFrom (m b e : Nat) : Nat → Nat → Nat
  | 0, acc => acc
  | w + 1, acc =>
      force (acc * acc % m) fun square =>
        if e.testBit w then force (square * b % m) (powFrom m b e w)
        else powFrom m b e w square

def pow (m b e : Nat) : Nat := powFrom m b e 256 1

/-- The inverse modulo a prime. -/
def inv (m a : Nat) : Nat := pow m a (m - 2)

/-! ### The group -/

/-- A point; `z = 0` is the neutral element. -/
structure Point where
  x : Nat
  y : Nat
  z : Nat

def infinity : Point := ⟨1, 1, 0⟩

def generator : Point :=
  ⟨0x79be667ef9dcbbac55a06295ce870b07029bfcdb2dce28d959f2815b16f81798,
   0x483ada7726a3c4655da4fbfc0e1108a8fd17b448a68554199c47d08ffb10d4b8, 1⟩

def Point.forced (x y z : Nat) : Point :=
  force x fun x => force y fun y => force z fun z => ⟨x, y, z⟩

def double : Point → Point
  | ⟨x, y, z⟩ =>
      force (y * y % p) fun yy =>
      force (4 * x * yy % p) fun s =>
      force (3 * x * x % p) fun m =>
      force ((m * m + 2 * (p - s)) % p) fun x' =>
      .forced x' ((m * (s + p - x') + 8 * (p - yy * yy % p)) % p) (2 * y * z % p)

def add : Point → Point → Point
  | ⟨x₁, y₁, z₁⟩, ⟨x₂, y₂, z₂⟩ =>
      if z₁ = 0 then ⟨x₂, y₂, z₂⟩
      else if z₂ = 0 then ⟨x₁, y₁, z₁⟩
      else
        force (z₁ * z₁ % p) fun zz₁ =>
        force (z₂ * z₂ % p) fun zz₂ =>
        force (x₁ * zz₂ % p) fun u₁ =>
        force (x₂ * zz₁ % p) fun u₂ =>
        force (y₁ * zz₂ * z₂ % p) fun s₁ =>
        force (y₂ * zz₁ * z₁ % p) fun s₂ =>
        if u₁ = u₂ then (if s₁ = s₂ then double ⟨x₁, y₁, z₁⟩ else infinity)
        else
          force ((u₂ + p - u₁) % p) fun h =>
          force ((s₂ + p - s₁) % p) fun r =>
          force (h * h % p) fun hh =>
          force (hh * h % p) fun hhh =>
          force (u₁ * hh % p) fun v =>
          force ((r * r + (p - hhh) + 2 * (p - v)) % p) fun x =>
          .forced x ((r * (v + p - x) + (p - s₁) * hhh) % p) (h * z₁ * z₂ % p)

/-- Double and add, from the `w` low bits of `k`. -/
def mulFrom (q : Point) (k : Nat) : Nat → Point → Point
  | 0, acc => acc
  | w + 1, acc =>
      match double acc with
      | ⟨x, y, z⟩ =>
          if k.testBit w then
            match add ⟨x, y, z⟩ q with
            | ⟨x, y, z⟩ => mulFrom q k w ⟨x, y, z⟩
          else mulFrom q k w ⟨x, y, z⟩

def mul (k : Nat) (q : Point) : Point := mulFrom q k 256 infinity

def affine (q : Point) : Option (Nat × Nat) :=
  if q.z = 0 then none
  else
    force (inv p q.z) fun zi =>
    force (zi * zi % p) fun zz =>
    force (q.x * zz % p) fun x =>
    force (q.y * zz * zi % p) fun y =>
    some (x, y)

/-- The point of abscissa `x` whose ordinate has the given parity. -/
def lift (x parity : Nat) : Option Point :=
  force ((x * x * x + 7) % p) fun yy =>
  force (pow p yy ((p + 1) / 4)) fun y =>
  if y * y % p = yy then some ⟨x, if y % 2 = parity then y else p - y, 1⟩ else none

/-! ### Signatures -/

/-- The signature `(r, s, v)` of the digest `e` under the key `d` with the nonce `k`; `s` is
the smaller of the two possible values. -/
def sign (e d k : Nat) : Option (Nat × Nat × Nat) :=
  match affine (mul k generator) with
  | none => none
  | some (x, y) =>
      force (x % n) fun r =>
      force ((e + r * d) * inv n k % n) fun s =>
      if n / 2 < s then some (r, n - s, (y + 1) % 2) else some (r, s, y % 2)

/-- The public key under which `(r, s, v)` is a signature of the digest `e`. -/
def recover (e r s v : Nat) : Option (Nat × Nat) :=
  if r = 0 ∨ n ≤ r ∨ s = 0 ∨ n ≤ s then none
  else
    match lift r v with
    | none => none
    | some q =>
        force (inv n r) fun ri =>
        affine (add (mul (s * ri % n) q) (mul ((n - e % n) * ri % n) generator))

end Secp256k1
