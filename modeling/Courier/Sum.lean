/-!
# Sums over lists

What is left to do for the members of a list is added up by `sumOver`. A change to one member
changes the sum by that member (`sumOver_modify`).
-/

namespace Courier

/-- The sum of `f` over a list. -/
def sumOver {α : Type} (f : α → Nat) : List α → Nat
  | [] => 0
  | x :: xs => f x + sumOver f xs

@[simp]
theorem sumOver_append {α : Type} (f : α → Nat) (xs ys : List α) :
    sumOver f (xs ++ ys) = sumOver f xs + sumOver f ys := by
  induction xs with
  | nil => simp [sumOver]
  | cons x xs ih => simp [sumOver, ih, Nat.add_assoc]

/-- A sum over a list, after one item was changed. -/
theorem sumOver_modify {α : Type} (f : α → Nat) (g : α → α) {xs : List α} {i : Nat} {x : α}
    (h : xs[i]? = some x) : sumOver f (xs.modify i g) + f x = sumOver f xs + f (g x) := by
  induction xs generalizing i with
  | nil => simp at h
  | cons y xs ih =>
    cases i with
    | zero =>
      obtain rfl : y = x := by simpa using h
      simp only [List.modify_zero_cons, sumOver]
      omega
    | succ i =>
      have hrest := ih (i := i) (by simpa using h)
      simp only [List.modify_succ_cons, sumOver]
      omega

/-- A change that leaves every item as heavy as it was leaves the sum alone. -/
theorem sumOver_modify_of_eq {α : Type} (f : α → Nat) {g : α → α} (h : ∀ x, f (g x) = f x)
    (xs : List α) (i : Nat) : sumOver f (xs.modify i g) = sumOver f xs := by
  cases hx : xs[i]? with
  | none => rw [List.modify_eq_self (List.getElem?_eq_none_iff.mp hx)]
  | some x =>
    have hsum := sumOver_modify f g hx
    rw [h x] at hsum
    omega

end Courier
