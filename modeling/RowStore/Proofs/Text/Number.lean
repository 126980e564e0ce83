import Mathlib.Data.Nat.Digits.Defs
import Mathlib.Data.List.Induction
import RowStore.Text.Number

namespace RowStore.Text

def IsDigit (char : Char) : Prop := '0' ≤ char ∧ char ≤ '9'

def digitValue (char : Char) : Nat := char.toNat - '0'.toNat

/-- The value of a row of digits, of which the last counts the ones. -/
def decimalValue (digits : List Char) : Nat :=
  Nat.ofDigits 10 (digits.reverse.map digitValue)

/-- A row of digits with a value of 64 bits. -/
structure Decimal (digits : List Char) (number : Nat) : Prop where
  nonempty : digits ≠ []
  isDigit : ∀ char ∈ digits, IsDigit char
  value : decimalValue digits = number
  bound : number < wordLimit

/-- A text that denotes a number of 64 bits. -/
def Denotes (text : String) (number : Nat) : Prop :=
  ∃ digits, (text.toList = digits ∨ text.toList = '+' :: digits) ∧ Decimal digits number

variable {char : Char} {digits : List Char} {value number other : Nat} {text : String}

theorem decimalValue_concat (digits : List Char) (char : Char) :
    decimalValue (digits ++ [char]) = decimalValue digits * 10 + digitValue char := by
  simp only [decimalValue, List.reverse_concat, List.map_cons, Nat.ofDigits_cons, Nat.add_comm,
    Nat.mul_comm]

theorem appendDigit_eq_ok_iff :
    appendDigit value char = .ok number ↔
      IsDigit char ∧ value * 10 + digitValue char = number ∧ number < wordLimit := by
  rw [appendDigit]
  by_cases digit : '0' ≤ char ∧ char ≤ '9'
  · rw [if_pos digit]
    change (if value * 10 + digitValue char < wordLimit then _ else _) = _ ↔ _
    split <;> rename_i bound
    · constructor
      · rintro ⟨⟩
        exact ⟨digit, rfl, bound⟩
      · rintro ⟨-, rfl, -⟩
        rfl
    · constructor
      · rintro ⟨⟩
      · rintro ⟨-, rfl, below⟩
        exact absurd below bound
  · rw [if_neg digit]
    exact ⟨fun made => (by cases made), fun made => absurd made.1 digit⟩

theorem foldlM_appendDigit_concat :
    (digits ++ [char]).foldlM appendDigit 0 = .ok number ↔
      ∃ value, digits.foldlM appendDigit 0 = .ok value ∧ appendDigit value char = .ok number := by
  simp only [List.foldlM_append, List.foldlM_cons, List.foldlM_nil, bind_pure]
  cases digits.foldlM appendDigit 0 with
  | ok value => exact ⟨fun made => ⟨value, rfl, made⟩, by rintro ⟨_, ⟨⟩, made⟩; exact made⟩
  | error fault => exact ⟨fun made => (by cases made), by rintro ⟨_, ⟨⟩, -⟩⟩

/-- The value grows with each digit, so that it has been in bounds all along if it is in the end. -/
theorem foldlM_appendDigit_eq_ok_iff :
    digits.foldlM appendDigit 0 = .ok number ↔
      (∀ char ∈ digits, IsDigit char) ∧ decimalValue digits = number ∧ number < wordLimit := by
  induction digits using List.reverseRecOn generalizing number with
  | nil =>
      constructor
      · rintro ⟨⟩
        exact ⟨by simp, rfl, by decide⟩
      · rintro ⟨-, rfl, -⟩
        rfl
  | append_singleton digits char ih =>
      rw [foldlM_appendDigit_concat, List.forall_mem_append, List.forall_mem_singleton,
        decimalValue_concat]
      constructor
      · rintro ⟨value, before, last⟩
        obtain ⟨isDigit, rfl, -⟩ := ih.mp before
        obtain ⟨lastIsDigit, denoted, bound⟩ := appendDigit_eq_ok_iff.mp last
        exact ⟨⟨isDigit, lastIsDigit⟩, denoted, bound⟩
      · rintro ⟨⟨isDigit, lastIsDigit⟩, denoted, bound⟩
        have boundBefore : decimalValue digits < wordLimit := by omega
        exact ⟨_, ih.mpr ⟨isDigit, rfl, boundBefore⟩,
          appendDigit_eq_ok_iff.mpr ⟨lastIsDigit, denoted, bound⟩⟩

theorem parseDigits_eq_ok_iff : parseDigits digits = .ok number ↔ Decimal digits number := by
  rw [parseDigits]
  cases digits with
  | nil => exact ⟨fun made => (by cases made), fun decimal => absurd rfl decimal.nonempty⟩
  | cons char rest =>
      rw [if_neg (by simp), foldlM_appendDigit_eq_ok_iff]
      exact ⟨fun ⟨isDigit, value, bound⟩ => ⟨List.cons_ne_nil _ _, isDigit, value, bound⟩,
        fun decimal => ⟨decimal.isDigit, decimal.value, decimal.bound⟩⟩

theorem Decimal.not_signed (signed : Decimal ('+' :: digits) number) : False :=
  absurd (signed.isDigit '+' List.mem_cons_self) (by unfold IsDigit; decide)

theorem parseNumber_eq_ok_iff : parseNumber text = .ok number ↔ Denotes text number := by
  rw [parseNumber, Denotes]
  split
  · rename_i blank
    constructor
    · rintro ⟨⟩
    · rintro ⟨digits, rfl | signed, decimal⟩
      · exact absurd blank decimal.nonempty
      · cases blank.symm.trans signed
  · rename_i digits signed
    rw [parseDigits_eq_ok_iff]
    constructor
    · exact fun decimal => ⟨digits, .inr signed, decimal⟩
    · rintro ⟨others, unsigned | same, decimal⟩
      · exact (signed.symm.trans unsigned ▸ decimal).not_signed.elim
      · cases signed.symm.trans same
        exact decimal
  · rename_i unsigned
    rw [parseDigits_eq_ok_iff]
    constructor
    · exact fun decimal => ⟨_, .inl rfl, decimal⟩
    · rintro ⟨digits, rfl | signed, decimal⟩
      · exact decimal
      · exact absurd signed (unsigned digits)

theorem Denotes.unique (first : Denotes text number) (second : Denotes text other) :
    number = other :=
  Except.ok.inj ((parseNumber_eq_ok_iff.mpr first).symm.trans (parseNumber_eq_ok_iff.mpr second))

end RowStore.Text
