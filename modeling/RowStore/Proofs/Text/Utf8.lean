import RowStore.Text.Utf8

namespace RowStore.Utf8

variable {first second : String}

theorem encode_injective (same : encode first = encode second) : first = second := by
  have bytes : first.toList.utf8Encode = second.toList.utf8Encode := by
    have lists : first.toList.flatMap String.utf8EncodeChar =
        second.toList.flatMap String.utf8EncodeChar := same
    simp only [List.utf8Encode, lists]
  rw [String.utf8Encode_toList, String.utf8Encode_toList] at bytes
  exact String.toByteArray_inj.mp bytes

theorem encode_eq_encode_iff : encode first = encode second ↔ first = second :=
  ⟨encode_injective, congrArg encode⟩

namespace Reading

variable {parts : List (Option Char)} {low high : UInt8} {bits missing digit : Nat}

private theorem toNat_ofNat (number : Nat) (bound : number < 256) :
    (UInt8.ofNat number).toNat = number :=
  UInt8.toNat_ofNat_of_lt' bound

theorem next_one (most : digit < 128) :
    next ⟨none, parts⟩ (UInt8.ofNat digit) = ⟨none, some (Char.ofNat digit) :: parts⟩ := by
  have byte := toNat_ofNat digit (by omega)
  simp only [next, startWith, emit, UInt8.lt_iff_toNat_lt, byte, UInt8.reduceToNat]
  rw [if_pos most]

theorem next_two (least : 2 ≤ digit) (most : digit < 32) :
    next ⟨none, parts⟩ (UInt8.ofNat (digit + 192)) = ⟨some ⟨digit, 1, 0x80, 0xBF⟩, parts⟩ := by
  have byte := toNat_ofNat (digit + 192) (by omega)
  simp only [next, startWith, await, UInt8.lt_iff_toNat_lt, byte, UInt8.reduceToNat]
  rw [if_neg (by omega), if_neg (by omega), if_pos (by omega), Nat.add_sub_cancel]

theorem next_three (most : digit < 16) :
    next ⟨none, parts⟩ (UInt8.ofNat (digit + 224)) =
      ⟨some ⟨digit, 2, if digit = 0 then 0xA0 else 0x80, if digit = 13 then 0x9F else 0xBF⟩,
        parts⟩ := by
  have byte := toNat_ofNat (digit + 224) (by omega)
  simp only [next, startWith, await, UInt8.lt_iff_toNat_lt, ← UInt8.toNat_inj, byte,
    UInt8.reduceToNat]
  rw [if_neg (by omega), if_neg (by omega), if_neg (by omega)]
  by_cases least : digit = 0
  · simp [least]
  · by_cases beforeSurrogates : digit = 13
    · simp [beforeSurrogates]
    · simp [least, beforeSurrogates, Nat.not_le.mpr most]

theorem next_four (most : digit ≤ 4) :
    next ⟨none, parts⟩ (UInt8.ofNat (digit + 240)) =
      ⟨some ⟨digit, 3, if digit = 0 then 0x90 else 0x80, if digit = 4 then 0x8F else 0xBF⟩,
        parts⟩ := by
  have byte := toNat_ofNat (digit + 240) (by omega)
  simp only [next, startWith, await, UInt8.lt_iff_toNat_lt, ← UInt8.toNat_inj, byte,
    UInt8.reduceToNat]
  rw [if_neg (by omega), if_neg (by omega), if_neg (by omega), if_neg (by omega),
    if_neg (by omega), if_neg (by omega)]
  by_cases least : digit = 0
  · simp [least]
  · by_cases last : digit = 4
    · simp [last]
    · have middle : ¬ 4 ≤ digit := by omega
      simp [least, last, middle]

section

variable (small : digit < 64) (within : low.toNat ≤ digit + 128 ∧ digit + 128 ≤ high.toNat)

include small within

private theorem goes_on :
    low ≤ UInt8.ofNat (digit + 128) ∧ UInt8.ofNat (digit + 128) ≤ high := by
  rwa [UInt8.le_iff_toNat_le, UInt8.le_iff_toNat_le, toNat_ofNat _ (by omega)]

theorem next_more :
    next ⟨some ⟨bits, missing + 2, low, high⟩, parts⟩ (UInt8.ofNat (digit + 128)) =
      ⟨some ⟨bits * 64 + digit, missing + 1, 0x80, 0xBF⟩, parts⟩ := by
  have byte := toNat_ofNat (digit + 128) (by omega)
  simp only [next, if_pos (goes_on small within), await, byte, Nat.add_sub_cancel]

theorem next_last :
    next ⟨some ⟨bits, 1, low, high⟩, parts⟩ (UInt8.ofNat (digit + 128)) =
      ⟨none, some (Char.ofNat (bits * 64 + digit)) :: parts⟩ := by
  have byte := toNat_ofNat (digit + 128) (by omega)
  simp only [next, if_pos (goes_on small within), emit, byte, Nat.add_sub_cancel]

end

private theorem within_standard (small : digit < 64) :
    (0x80 : UInt8).toNat ≤ digit + 128 ∧ digit + 128 ≤ (0xBF : UInt8).toNat := by
  simp only [UInt8.reduceToNat]
  omega

/-- The bytes of a character are read as that character, wherever they stand. -/
theorem foldl_next_char (parts : List (Option Char)) (char : Char) :
    (String.utf8EncodeChar char).foldl next ⟨none, parts⟩ = ⟨none, some char :: parts⟩ := by
  have scalar : char.val.toNat < 0xD800 ∨ 0xDFFF < char.val.toNat ∧ char.val.toNat < 0x110000 :=
    char.valid
  have isChar : Char.ofNat char.val.toNat = char := Char.ofNat_toNat char
  have six : ∀ {number : Nat}, number % 64 < 64 := Nat.mod_lt _ (by decide)
  unfold String.utf8EncodeChar
  generalize char.val.toNat = value at scalar isChar
  -- One case for each number of bytes.
  simp only
  split
  · rw [List.foldl_cons, List.foldl_nil, next_one (by omega), isChar]
  · split
    · have whole : value / 64 % 32 * 64 + value % 64 = value := by omega
      rw [List.foldl_cons, next_two (by omega) (by omega), List.foldl_cons, List.foldl_nil,
        next_last six (within_standard six), whole, isChar]
    · split
      · have whole : (value / 4096 % 16 * 64 + value / 64 % 64) * 64 + value % 64 = value := by
          omega
        have within : (if value / 4096 % 16 = 0 then (0xA0 : UInt8) else 0x80).toNat ≤
              value / 64 % 64 + 128 ∧
            value / 64 % 64 + 128 ≤
              (if value / 4096 % 16 = 13 then (0x9F : UInt8) else 0xBF).toNat := by
          constructor
          · split <;> simp only [UInt8.reduceToNat] <;> omega
          · split <;> simp only [UInt8.reduceToNat] <;> omega
        rw [List.foldl_cons, next_three (by omega), List.foldl_cons, next_more six within,
          List.foldl_cons, List.foldl_nil, next_last six (within_standard six), whole, isChar]
      · have whole : ((value / 262144 % 8 * 64 + value / 4096 % 64) * 64 + value / 64 % 64) * 64 +
            value % 64 = value := by omega
        have within : (if value / 262144 % 8 = 0 then (0x90 : UInt8) else 0x80).toNat ≤
              value / 4096 % 64 + 128 ∧
            value / 4096 % 64 + 128 ≤
              (if value / 262144 % 8 = 4 then (0x8F : UInt8) else 0xBF).toNat := by
          constructor
          · split <;> simp only [UInt8.reduceToNat] <;> omega
          · split <;> simp only [UInt8.reduceToNat] <;> omega
        rw [List.foldl_cons, next_four (by omega), List.foldl_cons, next_more six within,
          List.foldl_cons, next_more six (within_standard six), List.foldl_cons, List.foldl_nil,
          next_last six (within_standard six), whole, isChar]

theorem foldl_next_chars (parts : List (Option Char)) (chars : List Char) :
    (chars.flatMap String.utf8EncodeChar).foldl next ⟨none, parts⟩ =
      ⟨none, (chars.map some).reverse ++ parts⟩ := by
  induction chars generalizing parts with
  | nil => rfl
  | cons char rest ih =>
      rw [List.flatMap_cons, List.foldl_append, foldl_next_char, ih]
      simp

end Reading

theorem parts_encode (text : String) : parts (encode text) = text.toList.map some := by
  rw [parts, encode, Reading.foldl_next_chars, Reading.parts]
  simp

theorem decodeLossy_encode (text : String) : decodeLossy (encode text) = text := by
  have shown : (fun part : Option Char => part.getD '\uFFFD') ∘ some = id := rfl
  rw [decodeLossy, parts_encode, List.map_map, shown, List.map_id, String.ofList_toList]

end RowStore.Utf8
