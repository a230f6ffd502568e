namespace PackedMatrix

/-- The sum of some counts. -/
def total : List Nat → Nat
  | [] => 0
  | count :: rest => count + total rest

@[simp] theorem total_nil : total [] = 0 := rfl

@[simp] theorem total_cons (count : Nat) (rest : List Nat) :
    total (count :: rest) = count + total rest := rfl

@[simp] theorem total_append (front back : List Nat) :
    total (front ++ back) = total front + total back := by
  induction front with
  | nil => simp
  | cons count rest ih =>
    rw [List.cons_append, total_cons, total_cons, ih, Nat.add_assoc]

end PackedMatrix
