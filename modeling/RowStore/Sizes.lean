namespace RowStore

/-- The number of values of a 64-bit word. -/
def wordLimit : Nat := 18446744073709551616

/-- The largest number a 64-bit word holds. -/
def wordMax : Nat := 18446744073709551615

/-- A number held in a 64-bit word that stops at its largest value instead of starting over. -/
def saturated (number : Nat) : Nat := min number wordMax

theorem saturated_of_lt {number : Nat} (bound : number < wordLimit) :
    saturated number = number := by
  simp only [saturated, wordMax, wordLimit] at *
  omega

theorem saturated_saturated_add (first second : Nat) :
    saturated (saturated first + second) = saturated (first + second) := by
  simp only [saturated]
  omega

/-- The sum of what each item counts for. -/
def total {Item : Type} (weight : Item → Nat) (items : List Item) : Nat :=
  items.foldr (fun item sum => weight item + sum) 0

section

variable {Item : Type} (weight : Item → Nat)

@[simp] theorem total_nil : total weight [] = 0 := rfl

@[simp] theorem total_cons (item : Item) (items : List Item) :
    total weight (item :: items) = weight item + total weight items := rfl

@[simp] theorem total_append (first second : List Item) :
    total weight (first ++ second) = total weight first + total weight second := by
  induction first with
  | nil => simp
  | cons item rest ih => simp [ih, Nat.add_assoc]

theorem total_map {Source : Type} (source : Source → Item) (items : List Source) :
    total weight (items.map source) = total (fun item => weight (source item)) items := by
  induction items with
  | nil => rfl
  | cons item rest ih => rw [List.map_cons, total_cons, total_cons, ih]

theorem total_add (other : Item → Nat) (items : List Item) :
    total (fun item => weight item + other item) items =
      total weight items + total other items := by
  induction items with
  | nil => rfl
  | cons item rest ih =>
    rw [total_cons, total_cons, total_cons, ih]
    omega

/-- Items that count for a fixed width besides what else they count for. -/
theorem total_const_add (width : Nat) (items : List Item) :
    total (fun item => width + weight item) items = width * items.length + total weight items := by
  induction items with
  | nil => rfl
  | cons item rest ih =>
    rw [total_cons, total_cons, ih, List.length_cons, Nat.mul_succ]
    omega

theorem total_eq_zero_iff (items : List Item) :
    total weight items = 0 ↔ ∀ item ∈ items, weight item = 0 := by
  induction items with
  | nil => simp
  | cons item rest ih => rw [total_cons, Nat.add_eq_zero_iff, ih, List.forall_mem_cons]

end

end RowStore
