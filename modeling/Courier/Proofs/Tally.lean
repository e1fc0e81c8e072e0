import Courier.Tally
import Mathlib.Data.List.Induction
import Mathlib.Data.List.Lex
import Mathlib.Data.Prod.Lex
import Mathlib.Data.String.Basic

/-!
# Reading totals off a tally

A tally lists the counters that were raised in the order of their names and labels, each one once
(`Tally.sorted_totals`). What it says of a counter is how often the marks have raised it, and a
counter that was never raised is not listed (`Tally.lookup_totals`). So the total of a counter is
the number of the marks that raise it (`Tally.total_eq_countP`).
-/

namespace Courier

/-! ## The order of counters -/

namespace Counter

/-- What counters are ordered by. -/
def key (c : Counter) : Lex (String × List (Lex (String × String))) :=
  toLex (c.name, c.labels.map toLex)

theorem pairLt_iff (a b : String × String) : pairLt a b = true ↔ toLex a < toLex b := by
  rw [Prod.Lex.toLex_lt_toLex, pairLt]
  split
  · next hlt => exact iff_of_true rfl (.inl hlt)
  · next hnot =>
    split
    · next heq => simp [heq]
    · next hne => simp [hnot, hne]

theorem labelsLt_iff (as bs : List (String × String)) :
    labelsLt as bs = true ↔ as.map toLex < bs.map toLex := by
  induction as generalizing bs with
  | nil => cases bs <;> simp [labelsLt]
  | cons a as ih =>
    cases bs with
    | nil => simp [labelsLt]
    | cons b bs =>
      rw [List.map_cons, List.map_cons, List.cons_lt_cons_iff, labelsLt]
      split
      · next heq => simp [heq, ih]
      · next hne => simp [hne, pairLt_iff]

/-- Counters are ordered by their names, and then by their labels. -/
theorem lt_iff (a b : Counter) : a.lt b = true ↔ a.key < b.key := by
  rw [key, key, Prod.Lex.toLex_lt_toLex, lt]
  split
  · next hlt => exact iff_of_true rfl (.inl hlt)
  · next hnot =>
    split
    · next heq => simp [heq, labelsLt_iff]
    · next hne => simp [hnot, hne]

/-- Counters are known by what they are ordered by. -/
theorem key_injective : Function.Injective key := by
  intro a b h
  obtain ⟨hname, hlabels⟩ := Prod.mk.inj (toLex.injective h)
  have hlabels' : a.labels = b.labels := List.map_injective_iff.mpr toLex.injective hlabels
  cases a
  cases b
  exact congrArg₂ Counter.mk hname hlabels'

end Counter

namespace Tally

variable {l : List (Counter × Nat)}

/-! ## Raising a counter -/

/-- Whether counters are listed in order, each one once. -/
def Sorted (l : List (Counter × Nat)) : Prop := l.Pairwise fun a b => a.1.key < b.1.key

/-- What an ordered list says of a counter; nothing is listed for one that was not raised. -/
def read (l : List (Counter × Nat)) (c : Counter) : Nat := (l.lookup c).getD 0

/-- What is listed after a counter was raised is that counter, or was listed before. -/
theorem fst_of_mem_raise {c : Counter} {e : Counter × Nat} (h : e ∈ raise c l) :
    e.1 = c ∨ ∃ e' ∈ l, e'.1 = e.1 := by
  induction l with
  | nil => exact .inl (congrArg Prod.fst (List.mem_singleton.mp h))
  | cons entry rest ih =>
    simp only [raise] at h
    split at h
    · next heq =>
      rcases List.mem_cons.mp h with he | he
      · exact .inl ((congrArg Prod.fst he).trans heq.symm)
      · exact .inr ⟨e, List.mem_cons_of_mem _ he, rfl⟩
    · split at h
      · rcases List.mem_cons.mp h with he | he
        · exact .inl (congrArg Prod.fst he)
        · exact .inr ⟨e, he, rfl⟩
      · rcases List.mem_cons.mp h with he | he
        · exact .inr ⟨entry, List.mem_cons_self .., congrArg Prod.fst he.symm⟩
        · rcases ih he with heq | ⟨e', he', heq⟩
          · exact .inl heq
          · exact .inr ⟨e', List.mem_cons_of_mem _ he', heq⟩

/-- Of two different counters one comes first. -/
theorem key_lt_of_not_lt {c k : Counter} (hne : c ≠ k) (hnot : ¬ c.lt k = true) :
    k.key < c.key := by
  refine lt_of_le_of_ne (not_lt.mp fun hlt => hnot ((Counter.lt_iff c k).mpr hlt)) fun heq => ?_
  exact hne (Counter.key_injective heq).symm

/-- A counter that is raised is put in its place. -/
theorem Sorted.raise (h : Sorted l) (c : Counter) : Sorted (Tally.raise c l) := by
  induction l with
  | nil => exact List.pairwise_singleton _ _
  | cons entry rest ih =>
    obtain ⟨hhead, hrest⟩ := List.pairwise_cons.mp h
    simp only [Tally.raise]
    split
    · exact List.pairwise_cons.mpr ⟨hhead, hrest⟩
    · next hne =>
      split
      · next hlt =>
        have hfirst : c.key < entry.1.key := (Counter.lt_iff c _).mp hlt
        refine List.pairwise_cons.mpr ⟨fun e he => ?_, h⟩
        rcases List.mem_cons.mp he with rfl | he
        · exact hfirst
        · exact hfirst.trans (hhead e he)
      · next hnot =>
        refine List.pairwise_cons.mpr ⟨fun e he => ?_, ih hrest⟩
        rcases fst_of_mem_raise he with heq | ⟨e', he', heq⟩
        · exact heq ▸ key_lt_of_not_lt hne hnot
        · exact heq ▸ hhead e' he'

theorem lookup_cons_of_ne {c k : Counter} (h : k ≠ c) (n : Nat) :
    ((c, n) :: l).lookup k = l.lookup k := by
  rw [List.lookup_cons, beq_false_of_ne h]

/-- A counter that comes before all that are listed is not listed. -/
theorem lookup_eq_none {c : Counter} (h : ∀ e ∈ l, c.key < e.1.key) : l.lookup c = none := by
  refine List.lookup_eq_none_iff.mpr fun e he => bne_iff_ne.mpr fun heq => ?_
  have hlt := h e he
  rw [heq] at hlt
  exact lt_irrefl _ hlt

/-- Raising a counter adds one to what is listed for it, and changes nothing else. -/
theorem lookup_raise (h : Sorted l) (c k : Counter) :
    (raise c l).lookup k = if k = c then some (read l c + 1) else l.lookup k := by
  induction l with
  | nil =>
    by_cases hk : k = c
    · simp [raise, read, hk]
    · rw [if_neg hk]
      exact lookup_cons_of_ne hk 1
  | cons entry rest ih =>
    obtain ⟨i, n⟩ := entry
    obtain ⟨hhead, hrest⟩ := List.pairwise_cons.mp h
    simp only [raise]
    split
    · next heq =>
      subst heq
      by_cases hk : k = c
      · simp [read, hk]
      · rw [if_neg hk, lookup_cons_of_ne hk, lookup_cons_of_ne hk]
    · next hne =>
      split
      · next hlt =>
        have hfirst : c.key < i.key := (Counter.lt_iff c i).mp hlt
        have hnone : ((i, n) :: rest).lookup c = none := by
          refine lookup_eq_none fun e he => ?_
          rcases List.mem_cons.mp he with rfl | he
          · exact hfirst
          · exact hfirst.trans (hhead e he)
        by_cases hk : k = c
        · simp [read, hk, hnone]
        · rw [if_neg hk, lookup_cons_of_ne hk]
      · have hread : read ((i, n) :: rest) c = read rest c := by
          rw [read, lookup_cons_of_ne hne, read]
        by_cases hk : k = i
        · subst hk
          simp [Ne.symm hne]
        · rw [lookup_cons_of_ne hk, ih hrest, hread, lookup_cons_of_ne hk]

/-! ## The totals -/

/-- Counters that are raised one after the other are listed in order, each with how often it was
raised. -/
theorem lookup_foldl (cs : List Counter) (c : Counter) :
    Sorted (cs.foldl (fun sorted c => raise c sorted) []) ∧
      (cs.foldl (fun sorted c => raise c sorted) []).lookup c =
        if cs.count c = 0 then none else some (cs.count c) := by
  induction cs using List.reverseRecOn with
  | nil => exact ⟨List.Pairwise.nil, rfl⟩
  | append_singleton cs k ih =>
    obtain ⟨hsorted, hlookup⟩ := ih
    rw [List.foldl_append, List.foldl_cons, List.foldl_nil]
    refine ⟨hsorted.raise k, ?_⟩
    rw [lookup_raise hsorted, List.count_append]
    by_cases hck : c = k
    · subst hck
      have hread : read (cs.foldl (fun sorted c => raise c sorted) []) c = cs.count c := by
        rw [read, hlookup]
        split
        · next hzero => exact hzero.symm
        · rfl
      simp [hread]
    · simp [hck, Ne.symm hck, hlookup]

/-- The totals are listed in the order of the counters, each counter once. -/
theorem sorted_totals (component : String) (marks : List Mark) : Sorted (totals component marks) :=
  (lookup_foldl _ ⟨"", []⟩).1

/-- The totals list just the counters that were raised, each with how often it was raised. -/
theorem lookup_totals (component : String) (marks : List Mark) (c : Counter) :
    (totals component marks).lookup c =
      let n := (marks.flatMap (Mark.counters component)).count c
      if n = 0 then none else some n :=
  (lookup_foldl _ c).2

/-- The total of a counter. -/
def total (component : String) (marks : List Mark) (c : Counter) : Nat :=
  read (totals component marks) c

end Tally

/-- Whether a mark raises a counter. -/
def Mark.raises (component : String) (c : Counter) (m : Mark) : Bool :=
  (m.counters component).contains c

/-- No mark raises a counter twice. -/
theorem Mark.nodup_counters (component : String) (m : Mark) : (m.counters component).Nodup := by
  cases m <;> simp [counters]

/-- The total of a counter is the number of the marks that raise it. -/
theorem Tally.total_eq_countP (component : String) (marks : List Mark) (c : Counter) :
    total component marks c = marks.countP (Mark.raises component c) := by
  have hcount : (marks.flatMap (Mark.counters component)).count c =
      marks.countP (Mark.raises component c) := by
    induction marks with
    | nil => rfl
    | cons m marks ih =>
      rw [List.flatMap_cons, List.count_append, ih, List.countP_cons, Nat.add_comm]
      rw [(m.nodup_counters component).count]
      simp [Mark.raises]
  rw [total, read, lookup_totals, ← hcount]
  dsimp only
  split
  · next hzero => exact hzero.symm
  · rfl

end Courier
