namespace RowStore

/-- Byte strings are lists, so that a reader's remaining input is a tail of what it was given. -/
abbrev Bytes := List UInt8

namespace Bytes

/-- The first `count` bytes and what follows them, or nothing when fewer bytes are left. Only the
part that is split off is measured, never the rest. -/
def split? (count : Nat) (bytes : Bytes) : Option (Bytes × Bytes) :=
  let taken := bytes.take count
  if taken.length = count then some (taken, bytes.drop count) else none

theorem split?_append (taken rest : Bytes) :
    split? taken.length (taken ++ rest) = some (taken, rest) := by
  simp [split?]

theorem split?_append_of_length {count : Nat} {taken : Bytes} (rest : Bytes)
    (length : taken.length = count) : split? count (taken ++ rest) = some (taken, rest) := by
  subst length
  exact split?_append taken rest

theorem split?_eq_some_iff {count : Nat} {bytes taken rest : Bytes} :
    split? count bytes = some (taken, rest) ↔ bytes = taken ++ rest ∧ taken.length = count := by
  constructor
  · intro found
    simp only [split?] at found
    split at found
    · rename_i enough
      simp only [Option.some.injEq, Prod.mk.injEq] at found
      obtain ⟨rfl, rfl⟩ := found
      exact ⟨(List.take_append_drop count bytes).symm, enough⟩
    · simp at found
  · rintro ⟨rfl, length⟩
    exact split?_append_of_length rest length

theorem split?_eq_none_iff {count : Nat} {bytes : Bytes} :
    split? count bytes = none ↔ bytes.length < count := by
  unfold split?
  simp only [List.length_take]
  split <;> simp <;> omega

/-- The `width` low-order bytes of a number, least significant first. -/
def littleEndian : Nat → Nat → Bytes
  | 0, _ => []
  | width + 1, number => UInt8.ofNat (number % 256) :: littleEndian width (number / 256)

/-- How many numbers a field of `width` bytes can hold. -/
def fieldRange : Nat → Nat
  | 0 => 1
  | width + 1 => 256 * fieldRange width

/-- The number a little-endian field stands for. -/
def ofLittleEndian : Bytes → Nat
  | [] => 0
  | byte :: rest => byte.toNat + 256 * ofLittleEndian rest

@[simp] theorem length_littleEndian (width number : Nat) :
    (littleEndian width number).length = width := by
  induction width generalizing number with
  | zero => rfl
  | succ width ih => simp [littleEndian, ih]

theorem ofLittleEndian_littleEndian (width number : Nat) :
    ofLittleEndian (littleEndian width number) = number % fieldRange width := by
  induction width generalizing number with
  | zero => simp [littleEndian, ofLittleEndian, fieldRange, Nat.mod_one]
  | succ width ih =>
    have low : (UInt8.ofNat (number % 256)).toNat = number % 256 := by simp
    rw [littleEndian, ofLittleEndian, ih, low, fieldRange, Nat.mod_mul]

theorem ofLittleEndian_littleEndian_of_lt {width number : Nat}
    (bound : number < fieldRange width) :
    ofLittleEndian (littleEndian width number) = number := by
  rw [ofLittleEndian_littleEndian, Nat.mod_eq_of_lt bound]

theorem littleEndian_inj {width first second : Nat} (firstBound : first < fieldRange width)
    (secondBound : second < fieldRange width)
    (same : littleEndian width first = littleEndian width second) : first = second := by
  rw [← ofLittleEndian_littleEndian_of_lt firstBound, same,
    ofLittleEndian_littleEndian_of_lt secondBound]

theorem ofLittleEndian_lt (bytes : Bytes) : ofLittleEndian bytes < fieldRange bytes.length := by
  induction bytes with
  | nil => simp [ofLittleEndian, fieldRange]
  | cons byte rest ih =>
    have low : byte.toNat < 256 := byte.toNat_lt
    rw [ofLittleEndian, List.length_cons, fieldRange]
    omega

theorem littleEndian_ofLittleEndian (bytes : Bytes) :
    littleEndian bytes.length (ofLittleEndian bytes) = bytes := by
  induction bytes with
  | nil => rfl
  | cons byte rest ih =>
    have low : byte.toNat < 256 := byte.toNat_lt
    have digit : (byte.toNat + 256 * ofLittleEndian rest) % 256 = byte.toNat := by omega
    have upper : (byte.toNat + 256 * ofLittleEndian rest) / 256 = ofLittleEndian rest := by omega
    rw [List.length_cons, ofLittleEndian, littleEndian, digit, upper, ih]
    simp

end Bytes

end RowStore
