import MultisigWallet.Lib.Bytes

/-!
# Contract ABI words

Call data is a selector followed by 32-byte words, big end first. A **word** is the
encoding of one number, `words` a sequence of them, and `bytes` a byte string preceded
by its length and padded with zeros to a whole number of words. The reading functions
take a byte offset and look at what is there, as a contract does.
-/

namespace Abi

/-- The 32-byte encoding of a number. -/
def word (n : Nat) : List UInt8 := Bytes.ofNat 32 n

/-- The encodings of several numbers, one after the other. -/
def words (ns : List Nat) : List UInt8 := ns.flatMap word

/-- The smallest multiple of 32 that is at least `n`. -/
def ceil32 (n : Nat) : Nat := (n + 31) / 32 * 32

/-- A byte string with its length in front and zeros behind. -/
def bytes (d : List UInt8) : List UInt8 :=
  word d.length ++ (d ++ List.replicate (ceil32 d.length - d.length) 0)

/-- The number in the word at offset `i`. -/
def wordAt (d : List UInt8) (i : Nat) : Nat := Bytes.toNat ((d.drop i).take 32)

/-- The byte string whose length stands at offset `i`. -/
def bytesAt (d : List UInt8) (i : Nat) : List UInt8 := (d.drop (i + 32)).take (wordAt d i)

@[simp] theorem length_word (n : Nat) : (word n).length = 32 := Bytes.length_ofNat 32 n

@[simp] theorem words_nil : words [] = [] := rfl

@[simp] theorem words_cons (n : Nat) (ns : List Nat) : words (n :: ns) = word n ++ words ns := rfl

theorem words_append (ns ms : List Nat) : words (ns ++ ms) = words ns ++ words ms :=
  List.flatMap_append

theorem length_words (ns : List Nat) : (words ns).length = 32 * ns.length := by
  induction ns with
  | nil => rfl
  | cons n ns ih =>
      rw [words_cons, List.length_append, length_word, ih, List.length_cons]
      omega

theorem le_ceil32 (n : Nat) : n ≤ ceil32 n := by
  unfold ceil32
  omega

theorem length_bytes (d : List UInt8) : (bytes d).length = 32 + ceil32 d.length := by
  have hle := le_ceil32 d.length
  simp only [bytes, List.length_append, length_word, List.length_replicate]
  omega

/-! ### Reading back -/

theorem wordAt_word {n : Nat} (hn : n < 2 ^ 256) (rest : List UInt8) :
    wordAt (word n ++ rest) 0 = n := by
  have hw : (256 : Nat) ^ 32 = 2 ^ 256 := by norm_num
  unfold wordAt
  rw [List.drop_zero, List.take_append_of_le_length (by rw [length_word]),
    List.take_of_length_le (by rw [length_word])]
  exact Bytes.toNat_ofNat_of_lt (hw ▸ hn)

theorem drop_word (n i : Nat) (rest : List UInt8) :
    (word n ++ rest).drop (i + 32) = rest.drop i := by
  rw [Nat.add_comm, ← length_word n, List.drop_length_add_append]

/-- Reading past a word reads what follows it. -/
theorem wordAt_skip (n i : Nat) (rest : List UInt8) :
    wordAt (word n ++ rest) (i + 32) = wordAt rest i := by
  unfold wordAt
  rw [drop_word]

theorem bytesAt_skip (n i : Nat) (rest : List UInt8) :
    bytesAt (word n ++ rest) (i + 32) = bytesAt rest i := by
  unfold bytesAt
  rw [wordAt_skip, drop_word]

/-- A byte string is read back, whatever follows it. -/
theorem bytesAt_bytes {d : List UInt8} (hd : d.length < 2 ^ 256) (rest : List UInt8) :
    bytesAt (bytes d ++ rest) 0 = d := by
  unfold bytesAt bytes
  rw [List.append_assoc, wordAt_word hd, drop_word, List.drop_zero, List.append_assoc,
    List.take_left]

/-- The word at a position of a sequence. -/
theorem wordAt_words {ns : List Nat} (hns : ∀ n ∈ ns, n < 2 ^ 256) {i n : Nat}
    (hi : ns[i]? = some n) : wordAt (words ns) (32 * i) = n := by
  induction ns generalizing i with
  | nil => simp at hi
  | cons m ns ih =>
      rw [words_cons]
      cases i with
      | zero =>
          obtain rfl : m = n := by simpa using hi
          exact wordAt_word (hns m List.mem_cons_self) _
      | succ i =>
          rw [Nat.mul_succ, wordAt_skip]
          exact ih (fun k hk => hns k (List.mem_cons_of_mem m hk)) (by simpa using hi)

/-- What follows a word that is all there does not matter. -/
theorem wordAt_append {d : List UInt8} {i : Nat} (h : i + 32 ≤ d.length) (rest : List UInt8) :
    wordAt (d ++ rest) i = wordAt d i := by
  have hlen : 32 ≤ (d.drop i).length := by
    rw [List.length_drop]
    omega
  rw [wordAt, wordAt, List.drop_append_of_le_length (by omega), List.take_append_of_le_length hlen]

/-- The word at a position of a sequence, whatever follows it. -/
theorem wordAt_words_append {ns : List Nat} (hns : ∀ n ∈ ns, n < 2 ^ 256) {i n : Nat}
    (hi : ns[i]? = some n) (rest : List UInt8) : wordAt (words ns ++ rest) (32 * i) = n := by
  have hlt : i < ns.length := (List.getElem?_eq_some_iff.mp hi).1
  rw [wordAt_append (by rw [length_words]; omega), wordAt_words hns hi]

/-- `n` words from offset `i` on. -/
def wordsAt (d : List UInt8) (i n : Nat) : List Nat :=
  (List.range n).map fun k => wordAt d (i + 32 * k)

/-- Reading in what is left after a number of bytes. -/
theorem wordAt_drop (d : List UInt8) (i j : Nat) : wordAt (d.drop i) j = wordAt d (i + j) := by
  rw [wordAt, wordAt, List.drop_drop]

theorem bytesAt_drop (d : List UInt8) (i j : Nat) : bytesAt (d.drop i) j = bytesAt d (i + j) := by
  rw [bytesAt, bytesAt, wordAt_drop, List.drop_drop, Nat.add_assoc]

theorem wordsAt_drop (d : List UInt8) (i j n : Nat) :
    wordsAt (d.drop i) j n = wordsAt d (i + j) n := by
  simp only [wordsAt, wordAt_drop, Nat.add_assoc]

@[simp] theorem length_wordsAt (d : List UInt8) (i n : Nat) : (wordsAt d i n).length = n := by
  simp [wordsAt]

/-- One word, and the words behind it. -/
theorem wordsAt_succ (d : List UInt8) (i n : Nat) :
    wordsAt d i (n + 1) = wordAt d i :: wordsAt d (i + 32) n := by
  simp only [wordsAt, List.range_succ_eq_map, List.map_cons, List.map_map, Nat.mul_zero, Nat.add_zero]
  congr 2
  funext k
  rw [Function.comp_apply, Nat.succ_eq_add_one, Nat.mul_add, Nat.mul_one]
  congr 1
  omega

theorem wordsAt_append {d : List UInt8} {i n : Nat} (h : i + 32 * n ≤ d.length)
    (rest : List UInt8) : wordsAt (d ++ rest) i n = wordsAt d i n := by
  refine List.map_congr_left ?_
  intro k hk
  have hlt := List.mem_range.mp hk
  exact wordAt_append (by omega) rest

/-- A stretch of a sequence of words. -/
theorem wordsAt_words {front ns rest : List Nat} (h : ∀ n ∈ front ++ ns ++ rest, n < 2 ^ 256) :
    wordsAt (words (front ++ ns ++ rest)) (32 * front.length) ns.length = ns := by
  refine List.ext_getElem (by simp [wordsAt]) ?_
  intro k hk hk'
  simp only [wordsAt, List.getElem_map, List.getElem_range, ← Nat.mul_add]
  refine wordAt_words h ?_
  rw [List.append_assoc, List.getElem?_append_right (by omega), Nat.add_sub_cancel_left,
    List.getElem?_append_left hk', List.getElem?_eq_getElem hk']

/-! ### Taking apart -/

theorem word_inj {n m : Nat} (hn : n < 2 ^ 256) (hm : m < 2 ^ 256) (h : word n = word m) :
    n = m := by
  rw [← wordAt_word hn [], h, wordAt_word hm []]

theorem words_inj {ns ms : List Nat} (hlen : ns.length = ms.length) (hns : ∀ n ∈ ns, n < 2 ^ 256)
    (hms : ∀ m ∈ ms, m < 2 ^ 256) (h : words ns = words ms) : ns = ms := by
  induction ns generalizing ms with
  | nil => exact (List.length_eq_zero_iff.mp hlen.symm).symm
  | cons n ns ih =>
      cases ms with
      | nil => simp at hlen
      | cons m ms =>
          rw [words_cons, words_cons] at h
          obtain ⟨hhead, htail⟩ := List.append_inj h (by rw [length_word, length_word])
          have hnm := word_inj (hns n List.mem_cons_self) (hms m List.mem_cons_self) hhead
          have hrest : ns = ms :=
            ih (Nat.succ.inj hlen) (fun k hk => hns k (List.mem_cons_of_mem n hk))
              (fun k hk => hms k (List.mem_cons_of_mem m hk)) htail
          rw [hnm, hrest]

end Abi
