import MultisigWallet.Lib.Abi

/-!
# Reading ABI data front to back

A **reader** takes a value off the front of a byte string and returns what is left; it refuses
what is cut short or not in standard form. Each reader has one lemma that says that it takes
what the encoder wrote, whatever follows it. `readAll` repeats a reader until nothing is left, so
that entries of different lengths can stand back to back without a count.
-/

namespace Abi

/-- One word. -/
def readWord (d : List UInt8) : Option (Nat × List UInt8) :=
  if 32 ≤ d.length then some (wordAt d 0, d.drop 32) else none

/-- A byte string: its length, its bytes, and zeros up to a whole number of words. -/
def readBytes (d : List UInt8) : Option (List UInt8 × List UInt8) := do
  let (n, d) ← readWord d
  if ceil32 n ≤ d.length ∧ (d.take (ceil32 n)).drop n = List.replicate (ceil32 n - n) 0 then
    return (d.take n, d.drop (ceil32 n))
  else none

/-- Entries until nothing is left. The fuel is the number of bytes. -/
def readAll {α : Type} (read : List UInt8 → Option (α × List UInt8)) :
    Nat → List UInt8 → Option (List α)
  | _, [] => some []
  | 0, _ :: _ => none
  | fuel + 1, b :: bs => do
      let (a, rest) ← read (b :: bs)
      let as ← readAll read fuel rest
      return a :: as

theorem readWord_word {n : Nat} (hn : n < 2 ^ 256) (rest : List UInt8) :
    readWord (word n ++ rest) = some (n, rest) := by
  have hlen : 32 ≤ (word n ++ rest).length := by
    rw [List.length_append, length_word]
    omega
  rw [readWord, if_pos hlen, wordAt_word hn, ← Nat.zero_add 32, drop_word, List.drop_zero]

/-- A reading that begins with a word goes on with what follows it. -/
theorem readWord_bind {β : Type} {n : Nat} (hn : n < 2 ^ 256) (rest : List UInt8)
    (f : Nat × List UInt8 → Option β) : (readWord (word n ++ rest)).bind f = f (n, rest) := by
  rw [readWord_word hn, Option.bind_some]

theorem readWord_eq_some {d rest : List UInt8} {n : Nat} :
    readWord d = some (n, rest) ↔ 32 ≤ d.length ∧ wordAt d 0 = n ∧ d.drop 32 = rest := by
  unfold readWord
  split <;> simp_all

theorem readBytes_bytes {b : List UInt8} (hb : b.length < 2 ^ 256) (rest : List UInt8) :
    readBytes (bytes b ++ rest) = some (b, rest) := by
  set padding := List.replicate (ceil32 b.length - b.length) (0 : UInt8) with hpadding
  have hle := le_ceil32 b.length
  have hpadded : (b ++ padding).length = ceil32 b.length := by
    rw [List.length_append, hpadding, List.length_replicate]
    omega
  have hsplit : bytes b ++ rest = word b.length ++ (b ++ padding ++ rest) := by
    rw [bytes, List.append_assoc, ← hpadding]
  have htake : (b ++ padding ++ rest).take (ceil32 b.length) = b ++ padding :=
    List.take_left' hpadded
  have hdrop : (b ++ padding ++ rest).drop (ceil32 b.length) = rest := List.drop_left' hpadded
  have hfits : ceil32 b.length ≤ (b ++ padding ++ rest).length := by
    rw [List.length_append, hpadded]
    omega
  have hzeros : (b ++ padding).drop b.length = padding := List.drop_left
  have hdata : (b ++ padding ++ rest).take b.length = b := by
    rw [List.append_assoc, List.take_left]
  unfold readBytes
  rw [hsplit, Option.bind_eq_bind, readWord_bind hb]
  dsimp only
  rw [htake, hdrop, hzeros, hdata, if_pos ⟨hfits, hpadding⟩]
  rfl

theorem readBytes_bind {β : Type} {b : List UInt8} (hb : b.length < 2 ^ 256) (rest : List UInt8)
    (f : List UInt8 × List UInt8 → Option β) : (readBytes (bytes b ++ rest)).bind f = f (b, rest) := by
  rw [readBytes_bytes hb, Option.bind_some]

theorem readBytes_eq_some {d b rest : List UInt8} (h : readBytes d = some (b, rest)) :
    bytesAt d 0 = b ∧ b.length = wordAt d 0 ∧ d.drop (32 + ceil32 b.length) = rest := by
  obtain ⟨⟨n, tail⟩, hword, h⟩ := Option.bind_eq_some_iff.mp h
  obtain ⟨-, rfl, rfl⟩ := readWord_eq_some.mp hword
  obtain ⟨⟨hlen, -⟩, h⟩ := Option.ite_none_right_eq_some.mp h
  obtain ⟨rfl, rfl⟩ := Prod.mk.inj (Option.some.inj h)
  have hle := le_ceil32 (wordAt d 0)
  have hcount : ((d.drop 32).take (wordAt d 0)).length = wordAt d 0 := by
    rw [List.length_take]
    omega
  refine ⟨rfl, hcount, ?_⟩
  rw [hcount, List.drop_drop]

/-- Entries that are read whatever follows them are read back to back. -/
theorem readAll_flatMap {α β : Type} {read : List UInt8 → Option (β × List UInt8)}
    {encode : α → List UInt8} {value : α → β} {as : List α}
    (hread : ∀ a ∈ as, ∀ rest, read (encode a ++ rest) = some (value a, rest))
    (hne : ∀ a ∈ as, encode a ≠ []) {fuel : Nat} (hfuel : (as.flatMap encode).length ≤ fuel) :
    readAll read fuel (as.flatMap encode) = some (as.map value) := by
  induction as generalizing fuel with
  | nil => cases fuel <;> rfl
  | cons a as ih =>
      have ha := hread a List.mem_cons_self
      have hpos := List.length_pos_iff.mpr (hne a List.mem_cons_self)
      rw [List.flatMap_cons, List.length_append] at hfuel
      rw [List.flatMap_cons]
      cases hd : encode a ++ as.flatMap encode with
      | nil =>
          have hlen := congrArg List.length hd
          rw [List.length_append, List.length_nil] at hlen
          omega
      | cons b bs =>
          cases fuel with
          | zero => omega
          | succ fuel =>
              have hrest : (as.flatMap encode).length ≤ fuel := by omega
              have ih := ih (fun a' ha' => hread a' (List.mem_cons_of_mem a ha'))
                (fun a' ha' => hne a' (List.mem_cons_of_mem a ha')) hrest
              rw [readAll, ← hd, ha]
              simp only [bind, Option.bind, ih, pure, List.map_cons]

end Abi
