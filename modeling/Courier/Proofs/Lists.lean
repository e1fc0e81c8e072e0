import Mathlib.Algebra.BigOperators.Group.List.Basic
import Mathlib.Data.List.Basic

/-!
# Lists, item by item and step by step

Lanes, consumers, runs and messages are kept in lists, and what is done to one of them changes one
item: the other items stay (`getElem?_set_cases`), a view that does not show the change stays
(`map_modify_eq_map`), and a sum changes by that item (`exists_sum_map_set`).

What happens is a list as well. What each step keeps is kept by all of them, one after the other
(`foldlM_induction`).
-/

namespace Courier

variable {α β : Type}

/-! ## Steps -/

/-- What each step keeps is kept by all of them. -/
theorem foldlM_induction {σ ε : Type} {step : σ → ε → Option σ} {motive : σ → Prop}
    {events : List ε} {s s' : σ} (hrun : events.foldlM step s = some s') (h : motive s)
    (hstep : ∀ e ∈ events, ∀ s s', motive s → step s e = some s' → motive s') : motive s' := by
  induction events generalizing s with
  | nil => exact Option.some.inj hrun ▸ h
  | cons e events ih =>
    obtain ⟨s₁, hfirst, hrest⟩ := Option.bind_eq_some_iff.mp hrun
    exact ih hrest (hstep e List.mem_cons_self s s₁ h hfirst)
      fun e' he' => hstep e' (List.mem_cons_of_mem e he')

/-! ## One item in the place of another -/

theorem modify_eq_set {xs : List α} {i : Nat} {x : α} (h : xs[i]? = some x) (f : α → α) :
    xs.modify i f = xs.set i (f x) := by
  rw [List.modify_eq_set_getElem?, h]
  rfl

theorem set_eq_self {xs : List α} {i : Nat} {x : α} (h : xs[i]? = some x) : xs.set i x = xs := by
  obtain ⟨hlt, rfl⟩ := List.getElem?_eq_some_iff.mp h
  exact List.set_getElem_self hlt

theorem modify_length_append (xs : List α) (x : α) (f : α → α) :
    (xs ++ [x]).modify xs.length f = xs ++ [f x] := by
  induction xs with
  | nil => rfl
  | cons y xs ih => exact congrArg (y :: ·) ih

/-- An item of a list with another item in the place of one is the new one, or was there before. -/
theorem getElem?_set_cases {xs : List α} {i j : Nat} {x y : α} (h : (xs.set i x)[j]? = some y) :
    j = i ∧ y = x ∨ j ≠ i ∧ xs[j]? = some y := by
  rw [List.getElem?_set] at h
  split at h
  · next hij =>
    split at h
    · exact .inl ⟨hij.symm, (Option.some.inj h).symm⟩
    · cases h
  · next hij => exact .inr ⟨Ne.symm hij, h⟩

/-- An item of a list with another item at its end is that one, or was there before. -/
theorem getElem?_concat_cases {xs : List α} {i : Nat} {x y : α} (h : (xs ++ [x])[i]? = some y) :
    xs[i]? = some y ∨ i = xs.length ∧ y = x := by
  by_cases hlt : i < xs.length
  · rw [List.getElem?_append_left hlt] at h
    exact .inl h
  · obtain ⟨hlt', -⟩ := List.getElem?_eq_some_iff.mp h
    rw [List.length_append, List.length_singleton] at hlt'
    obtain rfl : i = xs.length := by omega
    rw [List.getElem?_concat_length] at h
    exact .inr ⟨rfl, (Option.some.inj h).symm⟩

/-- What holds of all items holds of them after one was changed, if the change keeps it. -/
theorem forall_mem_modify {motive : α → Prop} {f : α → α} {i : Nat} {xs : List α}
    (h : ∀ x ∈ xs, motive x) (hf : ∀ x, motive x → motive (f x)) :
    ∀ x ∈ xs.modify i f, motive x := by
  intro y hy
  obtain ⟨j, hj⟩ := List.mem_iff_getElem?.mp hy
  rw [List.getElem?_modify] at hj
  obtain ⟨x, hx, rfl⟩ := Option.map_eq_some_iff.mp hj
  have hbefore := h x (List.mem_of_getElem? hx)
  split
  · exact hf x hbefore
  · exact hbefore

/-- A change of an item does not show in what it leaves alone. -/
theorem map_modify_eq_map (xs : List α) (i : Nat) {f : α → α} {g : α → β}
    (h : ∀ x, g (f x) = g x) : (xs.modify i f).map g = xs.map g := by
  refine List.ext_getElem? fun j => ?_
  simp only [List.getElem?_map, List.getElem?_modify]
  by_cases hj : i = j <;> cases xs[j]? <;> simp [hj, h]

/-- A change of an item to something known. -/
theorem map_modify_eq_set (xs : List α) (i : Nat) {f : α → α} {g : α → β} {y : β}
    (h : ∀ x, g (f x) = y) : (xs.modify i f).map g = (xs.map g).set i y := by
  refine List.ext_getElem? fun j => ?_
  simp only [List.getElem?_map, List.getElem?_modify, List.getElem?_set, List.length_map]
  by_cases hj : i = j
  · subst hj
    by_cases hlt : i < xs.length
    · simp [hlt, h]
    · simp [hlt]
  · simp [hj]

/-! ## Sums and counts -/

/-- A sum is that of one item and a rest, and the rest stays if the item is replaced. -/
theorem exists_sum_map_set {M : Type} [AddCommMonoid M] (f : α → M) {xs : List α} {i : Nat} {x : α}
    (h : xs[i]? = some x) :
    ∃ rest, (xs.map f).sum = f x + rest ∧ ∀ y, ((xs.set i y).map f).sum = f y + rest := by
  induction xs generalizing i with
  | nil => simp at h
  | cons z xs ih =>
    cases i with
    | zero =>
      obtain rfl : z = x := by simpa using h
      exact ⟨(xs.map f).sum, by simp, fun y => by simp⟩
    | succ i =>
      obtain ⟨rest, hsum, hset⟩ := ih (i := i) (by simpa using h)
      refine ⟨f z + rest, ?_, fun y => ?_⟩
      · rw [List.map_cons, List.sum_cons, hsum, add_left_comm]
      · rw [List.set_cons_succ, List.map_cons, List.sum_cons, hset, add_left_comm]

theorem countP_set {xs : List α} {i : Nat} {x : α} (h : xs[i]? = some x) (p : α → Bool) (y : α) :
    (xs.set i y).countP p + (p x).toNat = xs.countP p + (p y).toNat := by
  obtain ⟨hlt, rfl⟩ := List.getElem?_eq_some_iff.mp h
  have hle : (if p xs[i] then 1 else 0) ≤ xs.countP p := List.boole_getElem_le_countP hlt
  have htoNat (c : Bool) : (if c then 1 else 0) = c.toNat := by cases c <;> rfl
  rw [List.countP_set hlt, htoNat, htoNat]
  rw [htoNat] at hle
  omega

/-- Changing one item makes at most one more count. -/
theorem countP_modify_le (p : α → Bool) (f : α → α) (i : Nat) (xs : List α) :
    (xs.modify i f).countP p ≤ xs.countP p + 1 := by
  cases h : xs[i]? with
  | none =>
    rw [List.modify_eq_set_getElem?, h]
    exact Nat.le_succ _
  | some x =>
    rw [modify_eq_set h]
    have hset := countP_set h p (f x)
    have hone := (p (f x)).toNat_le
    omega

/-! ## Parts of a list -/

theorem filterMap_concat (f : α → Option β) (xs : List α) (x : α) :
    (xs ++ [x]).filterMap f = xs.filterMap f ++ (f x).toList := by
  rw [List.filterMap_append]
  cases h : f x <;> simp [h]

/-- An item of a filtered list comes from an item of the list. -/
theorem exists_of_filterMap_eq_append_cons {f : α → Option β} {l : List α} {before after : List β}
    {b : β} (h : l.filterMap f = before ++ b :: after) :
    ∃ l₁ a l₂, l = l₁ ++ a :: l₂ ∧ l₁.filterMap f = before ∧ f a = some b ∧
      l₂.filterMap f = after := by
  obtain ⟨l₁, l₂, rfl, rfl, hrest⟩ := List.filterMap_eq_append_iff.mp h
  obtain ⟨l₂, a, l₃, rfl, hnone, ha, hafter⟩ := List.filterMap_eq_cons_iff.mp hrest
  refine ⟨l₁ ++ l₂, a, l₃, by simp, ?_, ha, hafter⟩
  rw [List.filterMap_append, List.filterMap_eq_nil_iff.mpr hnone, List.append_nil]

/-- The beginning of a list, followed by what comes next in it, is a beginning as well. -/
theorem concat_prefix_of_head? {xs ys : List α} {a : α} (h : xs <+: ys)
    (ha : (ys.drop xs.length).head? = some a) : xs ++ [a] <+: ys := by
  obtain ⟨rest, rfl⟩ := h
  rw [List.drop_left] at ha
  obtain ⟨rest, rfl⟩ := List.head?_eq_some_iff.mp ha
  exact ⟨rest, by simp⟩

end Courier
