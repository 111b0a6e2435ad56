import Mathlib.Data.Bool.AllAny
import Mathlib.Tactic.Ring

/-!
# Big-endian numbers and hex digits

Byte strings are `List UInt8`, digit strings `List Char`. The module relates the
three spellings of a natural number that serialisation code moves between:

* `toNat`/`ofNat w`, the number a big-endian byte string denotes and its `w`-byte
  encoding, inverse to each other below `256 ^ w`;
* `hexValue`, the number a string of hex digits denotes in either letter case;
* `ofHex`/`toHex`, byte strings read from and written as pairs of hex digits.

A byte string of length `w` is determined by its value (`eq_ofNat`), and a string of
lower-case digits by its value and length (`hexValue_inj`); the other injectivity
facts are read off these two.
-/

namespace Bytes

/-! ### Big-endian values -/

/-- The number a big-endian byte string denotes. -/
def toNat : List UInt8 → Nat
  | [] => 0
  | b :: bs => b.toNat * 256 ^ bs.length + toNat bs

/-- The last `w` big-endian bytes of `n`. -/
def ofNat : Nat → Nat → List UInt8
  | 0, _ => []
  | w + 1, n => UInt8.ofNat (n / 256 ^ w) :: ofNat w n

@[simp] theorem toNat_nil : toNat [] = 0 := rfl

@[simp] theorem toNat_cons (b : UInt8) (bs : List UInt8) :
    toNat (b :: bs) = b.toNat * 256 ^ bs.length + toNat bs := rfl

@[simp] theorem length_ofNat (w n : Nat) : (ofNat w n).length = w := by
  induction w with
  | zero => rfl
  | succ w ih => simp [ofNat, ih]

theorem toNat_lt (bs : List UInt8) : toNat bs < 256 ^ bs.length := by
  induction bs with
  | nil => simp
  | cons b bs ih =>
      have hb : b.toNat + 1 ≤ 256 := b.toNat_lt
      calc toNat (b :: bs) = b.toNat * 256 ^ bs.length + toNat bs := rfl
        _ < b.toNat * 256 ^ bs.length + 256 ^ bs.length := by omega
        _ = (b.toNat + 1) * 256 ^ bs.length := by ring
        _ ≤ 256 * 256 ^ bs.length := Nat.mul_le_mul_right _ hb
        _ = 256 ^ (b :: bs).length := by rw [List.length_cons, pow_succ']

theorem toNat_ofNat (w n : Nat) : toNat (ofNat w n) = n % 256 ^ w := by
  induction w with
  | zero => simp [ofNat, Nat.mod_one]
  | succ w ih =>
      have hsplit : n % 256 ^ (w + 1) = n % 256 ^ w + 256 ^ w * (n / 256 ^ w % 256) :=
        Nat.mod_pow_succ
      rw [ofNat, toNat_cons, length_ofNat, ih, UInt8.toNat_ofNat', hsplit, Nat.add_comm,
        Nat.mul_comm]

theorem toNat_ofNat_of_lt {w n : Nat} (h : n < 256 ^ w) : toNat (ofNat w n) = n := by
  rw [toNat_ofNat, Nat.mod_eq_of_lt h]

/-- Quotient and remainder are determined by the number they make up. -/
theorem mul_add_inj {p a b r s : Nat} (hr : r < p) (hs : s < p)
    (h : a * p + r = b * p + s) : a = b ∧ r = s := by
  have hpos : 0 < p := Nat.lt_of_le_of_lt (Nat.zero_le r) hr
  have hq : a = b := by
    have ha : (a * p + r) / p = a := by
      rw [Nat.add_comm, Nat.add_mul_div_right _ _ hpos, Nat.div_eq_of_lt hr, Nat.zero_add]
    have hb : (b * p + s) / p = b := by
      rw [Nat.add_comm, Nat.add_mul_div_right _ _ hpos, Nat.div_eq_of_lt hs, Nat.zero_add]
    rw [← ha, h, hb]
  subst hq
  exact ⟨rfl, by omega⟩

/-- Byte strings of one length are equal when their values are. -/
theorem toNat_inj {as bs : List UInt8} (hlen : as.length = bs.length)
    (h : toNat as = toNat bs) : as = bs := by
  induction as generalizing bs with
  | nil => exact (List.length_eq_zero_iff.mp hlen.symm).symm
  | cons a as ih =>
      cases bs with
      | nil => simp at hlen
      | cons b bs =>
          have hl : as.length = bs.length := by simpa using hlen
          have ha := toNat_lt as
          rw [toNat_cons, toNat_cons, hl] at h
          rw [hl] at ha
          obtain ⟨hq, hr⟩ := mul_add_inj ha (toNat_lt bs) h
          rw [ih hl hr, UInt8.toNat_inj.mp hq]

/-- A byte string is the encoding of its value at its length. -/
theorem eq_ofNat {bs : List UInt8} {w n : Nat} (hlen : bs.length = w) (h : toNat bs = n) :
    bs = ofNat w n := by
  refine toNat_inj (by rw [hlen, length_ofNat]) ?_
  rw [toNat_ofNat_of_lt (by rw [← h, ← hlen]; exact toNat_lt bs), h]

theorem ofNat_inj {w n m : Nat} (hn : n < 256 ^ w) (hm : m < 256 ^ w)
    (h : ofNat w n = ofNat w m) : n = m := by
  rw [← toNat_ofNat_of_lt hn, h, toNat_ofNat_of_lt hm]

theorem toNat_append (as bs : List UInt8) :
    toNat (as ++ bs) = toNat as * 256 ^ bs.length + toNat bs := by
  induction as with
  | nil => simp
  | cons a as ih =>
      rw [List.cons_append, toNat_cons, ih, toNat_cons, List.length_append, pow_add]
      ring

/-- Leading zero bytes do not count. -/
@[simp] theorem toNat_replicate_zero_append (k : Nat) (bs : List UInt8) :
    toNat (List.replicate k 0 ++ bs) = toNat bs := by
  induction k with
  | zero => rfl
  | succ k ih => rw [List.replicate_succ, List.cons_append, toNat_cons, ih]; simp

/-! ### Leading zeros -/

theorem toNat_dropWhile_zero (bs : List UInt8) : toNat (bs.dropWhile (· = 0)) = toNat bs := by
  induction bs with
  | nil => rfl
  | cons b bs ih =>
      by_cases hb : b = 0
      · simp [hb, ih]
      · simp [hb]

/-- A first byte other than zero counts. -/
theorem pow_le_toNat {b : UInt8} (hb : b ≠ 0) (bs : List UInt8) :
    256 ^ bs.length ≤ toNat (b :: bs) := by
  have hpos : 0 < b.toNat := Nat.pos_of_ne_zero fun h => hb (UInt8.toNat_inj.mp h)
  calc 256 ^ bs.length ≤ b.toNat * 256 ^ bs.length := Nat.le_mul_of_pos_left _ hpos
    _ ≤ toNat (b :: bs) := Nat.le_add_right _ _

theorem length_le_of_toNat_le {as bs : List UInt8} (ha : 256 ^ (as.length - 1) ≤ toNat as)
    (h : toNat as ≤ toNat bs) : as.length ≤ bs.length := by
  have hlt : 256 ^ (as.length - 1) < 256 ^ bs.length :=
    Nat.lt_of_le_of_lt (Nat.le_trans ha h) (toNat_lt bs)
  have hlen := (Nat.pow_lt_pow_iff_right (by decide)).mp hlt
  omega

/-- Byte strings without leading zeros are equal when their values are. -/
theorem eq_of_toNat_eq {as bs : List UInt8} (ha : 256 ^ (as.length - 1) ≤ toNat as)
    (hb : 256 ^ (bs.length - 1) ≤ toNat bs) (h : toNat as = toNat bs) : as = bs :=
  toNat_inj (Nat.le_antisymm (length_le_of_toNat_le ha h.le) (length_le_of_toNat_le hb h.ge)) h

/-! ### Hex digits -/

/-- The lower-case hex digits. -/
def lowerHex : List Char :=
  ['0', '1', '2', '3', '4', '5', '6', '7', '8', '9', 'a', 'b', 'c', 'd', 'e', 'f']

/-- The hex digits in either case. -/
def hexDigits : List Char := lowerHex ++ ['A', 'B', 'C', 'D', 'E', 'F']

/-- The value of a hex digit; other characters count as zero. -/
def hexVal : Char → Nat
  | '1' => 1
  | '2' => 2
  | '3' => 3
  | '4' => 4
  | '5' => 5
  | '6' => 6
  | '7' => 7
  | '8' => 8
  | '9' => 9
  | 'a' | 'A' => 10
  | 'b' | 'B' => 11
  | 'c' | 'C' => 12
  | 'd' | 'D' => 13
  | 'e' | 'E' => 14
  | 'f' | 'F' => 15
  | _ => 0

/-- The number a string of hex digits denotes. -/
def hexValue : List Char → Nat
  | [] => 0
  | c :: s => hexVal c * 16 ^ s.length + hexValue s

theorem hexVal_lt : ∀ c, hexVal c < 16 := by
  intro c
  unfold hexVal
  split <;> decide

theorem hexVal_toLower : ∀ c ∈ hexDigits, hexVal c.toLower = hexVal c :=
  List.all_iff_forall_prop.mp (by decide)

theorem toLower_mem_lowerHex : ∀ c ∈ hexDigits, c.toLower ∈ lowerHex :=
  List.all_iff_forall_prop.mp (by decide)

theorem toLower_of_mem_lowerHex : ∀ c ∈ lowerHex, c.toLower = c :=
  List.all_iff_forall_prop.mp (by decide)

theorem hexVal_inj : ∀ c ∈ lowerHex, ∀ d ∈ lowerHex, hexVal c = hexVal d → c = d := by
  have hall : lowerHex.all (fun c => lowerHex.all fun d => hexVal c = hexVal d → c = d) = true := by
    decide
  intro c hc
  exact List.all_iff_forall_prop.mp (List.all_eq_true.mp hall c hc)

theorem hexVal_digitChar : ∀ n < 16, hexVal (Nat.digitChar n) = n := by decide

theorem digitChar_mem_lowerHex : ∀ n < 16, Nat.digitChar n ∈ lowerHex := by decide

theorem lowerHex_subset_hexDigits : ∀ c ∈ lowerHex, c ∈ hexDigits :=
  List.all_iff_forall_prop.mp (by decide)

@[simp] theorem hexValue_nil : hexValue [] = 0 := rfl

@[simp] theorem hexValue_cons (c : Char) (s : List Char) :
    hexValue (c :: s) = hexVal c * 16 ^ s.length + hexValue s := rfl

theorem hexValue_lt (s : List Char) : hexValue s < 16 ^ s.length := by
  induction s with
  | nil => simp
  | cons c s ih =>
      have hc : hexVal c + 1 ≤ 16 := hexVal_lt c
      calc hexValue (c :: s) = hexVal c * 16 ^ s.length + hexValue s := rfl
        _ < hexVal c * 16 ^ s.length + 16 ^ s.length := by omega
        _ = (hexVal c + 1) * 16 ^ s.length := by ring
        _ ≤ 16 * 16 ^ s.length := Nat.mul_le_mul_right _ hc
        _ = 16 ^ (c :: s).length := by rw [List.length_cons, pow_succ']

theorem hexValue_append (s t : List Char) :
    hexValue (s ++ t) = hexValue s * 16 ^ t.length + hexValue t := by
  induction s with
  | nil => simp
  | cons c s ih =>
      rw [List.cons_append, hexValue_cons, ih, hexValue_cons, List.length_append, pow_add]
      ring

/-- Strings of lower-case digits of one length are equal when their values are. -/
theorem hexValue_inj {s t : List Char} (hs : ∀ c ∈ s, c ∈ lowerHex)
    (ht : ∀ c ∈ t, c ∈ lowerHex) (hlen : s.length = t.length)
    (h : hexValue s = hexValue t) : s = t := by
  induction s generalizing t with
  | nil => exact (List.length_eq_zero_iff.mp hlen.symm).symm
  | cons c s ih =>
      cases t with
      | nil => simp at hlen
      | cons d t =>
          have hl : s.length = t.length := by simpa using hlen
          have hsl := hexValue_lt s
          rw [hexValue_cons, hexValue_cons, hl] at h
          rw [hl] at hsl
          obtain ⟨hq, hr⟩ := mul_add_inj hsl (hexValue_lt t) h
          rw [hexVal_inj c (hs c (by simp)) d (ht d (by simp)) hq,
            ih (fun x hx => hs x (by simp [hx])) (fun x hx => ht x (by simp [hx])) hl hr]

/-- Lower-casing a digit string keeps its value. -/
theorem hexValue_map_toLower {s : List Char} (hs : ∀ c ∈ s, c ∈ hexDigits) :
    hexValue (s.map Char.toLower) = hexValue s := by
  induction s with
  | nil => rfl
  | cons c s ih =>
      rw [List.map_cons, hexValue_cons, hexValue_cons, List.length_map,
        hexVal_toLower c (hs c (by simp)), ih (fun x hx => hs x (by simp [hx]))]

/-! ### Printing a number -/

/-- The hex digits of `n` denote `n`. -/
theorem hexValue_toDigits (n : Nat) : hexValue (Nat.toDigits 16 n) = n := by
  induction n using Nat.base_induction 16 (by decide) with
  | single m hm =>
      rw [Nat.toDigits_of_lt_base hm]
      simp [hexVal_digitChar m hm]
  | digit m k hk hm ih =>
      rw [← Nat.toDigits_append_toDigits (by decide) hm hk, hexValue_append, ih,
        Nat.toDigits_of_lt_base hk]
      simp [hexVal_digitChar k hk]
      ring

theorem mem_lowerHex_of_mem_toDigits {n : Nat} :
    ∀ c ∈ Nat.toDigits 16 n, c ∈ lowerHex := by
  induction n using Nat.base_induction 16 (by decide) with
  | single m hm =>
      rw [Nat.toDigits_of_lt_base hm]
      intro c hc
      rw [List.mem_singleton.mp hc]
      exact digitChar_mem_lowerHex m hm
  | digit m k hk hm ih =>
      rw [← Nat.toDigits_append_toDigits (by decide) hm hk, Nat.toDigits_of_lt_base hk]
      intro c hc
      rcases List.mem_append.mp hc with hc | hc
      · exact ih c hc
      · rw [List.mem_singleton.mp hc]
        exact digitChar_mem_lowerHex k hk

/-! ### Pairs of digits -/

/-- The bytes a string of hex digit pairs denotes. -/
def ofHex : List Char → List UInt8
  | a :: b :: s => UInt8.ofNat (hexVal a * 16 + hexVal b) :: ofHex s
  | _ => []

/-- The two lower-case digits of each byte. -/
def toHex : List UInt8 → List Char
  | [] => []
  | b :: bs => Nat.digitChar (b.toNat / 16) :: Nat.digitChar (b.toNat % 16) :: toHex bs

theorem length_ofHex : ∀ s : List Char, (ofHex s).length = s.length / 2
  | [] => rfl
  | [_] => by simp [ofHex]
  | a :: b :: s => by
      rw [ofHex, List.length_cons, length_ofHex s, List.length_cons, List.length_cons]
      omega

theorem length_toHex (bs : List UInt8) : (toHex bs).length = 2 * bs.length := by
  induction bs with
  | nil => rfl
  | cons b bs ih => simp only [toHex, List.length_cons, ih]; omega

/-- Reading digit pairs keeps the value. -/
theorem toNat_ofHex : ∀ {s : List Char}, s.length % 2 = 0 → toNat (ofHex s) = hexValue s
  | [], _ => rfl
  | [_], h => by simp at h
  | a :: b :: s, h => by
      have hs : s.length % 2 = 0 := by simp at h; omega
      have ha := hexVal_lt a
      have hb := hexVal_lt b
      have hpow : 256 ^ (s.length / 2) = 16 ^ s.length := by
        rw [show (256 : Nat) = 16 ^ 2 by norm_num, ← pow_mul]
        congr 1
        omega
      rw [ofHex, toNat_cons, toNat_ofHex hs, length_ofHex, hpow, hexValue_cons, hexValue_cons,
        List.length_cons, UInt8.toNat_ofNat', Nat.mod_eq_of_lt (by omega), pow_succ]
      ring

theorem mem_lowerHex_of_mem_toHex {bs : List UInt8} : ∀ c ∈ toHex bs, c ∈ lowerHex := by
  induction bs with
  | nil => intro c hc; simp [toHex] at hc
  | cons b bs ih =>
      have hb := b.toNat_lt
      intro c hc
      rw [toHex] at hc
      rcases List.mem_cons.mp hc with rfl | hc
      · exact digitChar_mem_lowerHex _ (by omega)
      · rcases List.mem_cons.mp hc with rfl | hc
        · exact digitChar_mem_lowerHex _ (by omega)
        · exact ih c hc

/-- Writing digit pairs keeps the value. -/
theorem hexValue_toHex (bs : List UInt8) : hexValue (toHex bs) = toNat bs := by
  induction bs with
  | nil => rfl
  | cons b bs ih =>
      have hb := b.toNat_lt
      rw [toHex, hexValue_cons, hexValue_cons, ih, List.length_cons, length_toHex, toNat_cons,
        hexVal_digitChar _ (by omega), hexVal_digitChar _ (by omega), pow_succ, pow_mul,
        show (16 : Nat) ^ 2 = 256 by norm_num]
      have hdiv : b.toNat = b.toNat / 16 * 16 + b.toNat % 16 := by omega
      calc b.toNat / 16 * (256 ^ bs.length * 16) + (b.toNat % 16 * 256 ^ bs.length + toNat bs)
          = (b.toNat / 16 * 16 + b.toNat % 16) * 256 ^ bs.length + toNat bs := by ring
        _ = b.toNat * 256 ^ bs.length + toNat bs := by rw [← hdiv]

/-- Reading back what was written. -/
theorem ofHex_toHex (bs : List UInt8) : ofHex (toHex bs) = bs := by
  refine toNat_inj (by rw [length_ofHex, length_toHex]; omega) ?_
  rw [toNat_ofHex (by rw [length_toHex]; omega), hexValue_toHex]

end Bytes
