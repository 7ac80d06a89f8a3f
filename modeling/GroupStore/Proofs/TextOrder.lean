import GroupStore.Proofs.Sorted

/-!
# The order of texts is the order of their bytes

Texts compare character by character.  Their UTF-8 bytes compare in the same way: a greater
character has a greater first byte, or an equal one and greater later bytes.

* `TextOrder.compare_encoded` — two characters, whatever follows them;
* `TextOrder.compare_bytes` — two texts.
-/

namespace GroupStore.TextOrder

open Std

/-- The bytes of a text. -/
def bytes (s : String) : List UInt8 := s.toUTF8.data.toList

/-- The bytes of a text are those of its characters. -/
theorem bytes_eq_flatMap (s : String) : bytes s = s.toList.flatMap String.utf8EncodeChar := by
  rw [bytes, String.toUTF8_eq_toByteArray, ← String.utf8Encode_toList, List.utf8Encode,
    List.toList_data_toByteArray]

theorem compare_ofNat_cons {m n : Nat} (hm : m < 256) (hn : n < 256) (xs ys : List UInt8) :
    compare (UInt8.ofNat m :: xs) (UInt8.ofNat n :: ys) = (compare m n).then (compare xs ys) := by
  have first : compare (UInt8.ofNat m) (UInt8.ofNat n) = compare m n := by
    have less : UInt8.ofNat m < UInt8.ofNat n ↔ m < n := by
      rw [UInt8.lt_iff_toNat_lt, UInt8.toNat_ofNat', UInt8.toNat_ofNat']
      omega
    have ofNatIff : UInt8.ofNat m = UInt8.ofNat n ↔ m = n := by
      rw [← UInt8.toNat_inj, UInt8.toNat_ofNat', UInt8.toNat_ofNat']
      omega
    show compareOfLessAndEq _ _ = compareOfLessAndEq _ _
    simp only [compareOfLessAndEq, less, ofNatIff]
  rw [List.compare_cons_cons, first]

/-- A smaller character has smaller bytes, whatever follows. -/
theorem compare_encoded {c d : Char} (below : c < d) (xs ys : List UInt8) :
    compare (String.utf8EncodeChar c ++ xs) (String.utf8EncodeChar d ++ ys) = .lt := by
  have less : c.val.toNat < d.val.toNat := below
  have top : d.val.toNat < 1114112 := by
    rcases d.valid with low | high <;> omega
  simp only [String.utf8EncodeChar]
  generalize c.val.toNat = m at less ⊢
  generalize d.val.toNat = n at less top ⊢
  have digits (k : Nat) (small : k < 1114112) :
      k / 64 / 64 = k / 4096 ∧ k / 4096 / 64 = k / 262144 ∧ k / 262144 % 8 = k / 262144 :=
    ⟨Nat.div_div_eq_div_mul k 64 64, Nat.div_div_eq_div_mul k 4096 64, by omega⟩
  have digitsOfSmaller := digits m (by omega)
  have digitsOfGreater := digits n top
  -- Either the encodings differ in length, and the first byte tells; or they are numbers to the
  -- base 64 with the same number of digits.
  repeat' split
  all_goals first
    | omega
    | (simp only [List.cons_append, List.nil_append]
       repeat rw [compare_ofNat_cons (by omega) (by omega)]
       simp only [Ordering.then_eq_lt, Nat.compare_eq_lt, Nat.compare_eq_eq]
       omega)

theorem compare_flatMap {l m : List Char} (below : l < m) :
    compare (l.flatMap String.utf8EncodeChar) (m.flatMap String.utf8EncodeChar) = .lt := by
  induction below with
  | nil =>
    rename_i c rest
    obtain ⟨first, others, encoded⟩ :=
      List.exists_cons_of_ne_nil (String.utf8EncodeChar_ne_nil (c := c))
    rw [List.flatMap_cons, encoded]
    rfl
  | rel order => exact compare_encoded order _ _
  | cons _ ih =>
    rw [List.flatMap_cons, List.flatMap_cons, Sorted.compare_append_left]
    exact ih

/-- Texts in ascending order have bytes in ascending order. -/
theorem compare_bytes {s t : String} (below : compare s t = .lt) :
    compare (bytes s) (bytes t) = .lt := by
  have less : s < t := compareOfLessAndEq_eq_lt.mp below
  have chars : s.toList < t.toList := less
  rw [bytes_eq_flatMap, bytes_eq_flatMap]
  exact compare_flatMap chars

end GroupStore.TextOrder
