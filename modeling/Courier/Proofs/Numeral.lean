import Courier.IntKind
import Courier.Text.Blank
import Mathlib.Data.List.DropRight

/-!
# Numerals

`IntKind.Writes` says which texts write which integers: an optional sign and one or more digits,
however many zeros come first. Reading accepts exactly these texts, as far as the integer lies in
the range (`IntKind.read_eq_ok_iff`), although it looks at one digit at a time and gives up at the
first value that lies outside. What is around a text does not count if it is blank (`Text.Trims`).
-/

namespace Courier

/-! ## Blank ends -/

namespace Text

/-- The text `t` is what `s` is without the blank characters at its ends. -/
structure Trims (s t : List Char) : Prop where
  around : ∃ l r, s = l ++ t ++ r ∧ (∀ c ∈ l, isBlank c) ∧ ∀ c ∈ r, isBlank c
  first : ∀ c, t.head? = some c → isBlank c = false
  last : ∀ c, t.getLast? = some c → isBlank c = false

theorem trims_trimChars (s : List Char) : Trims s (trimChars s) := by
  show Trims s ((s.dropWhile isBlank).rdropWhile isBlank)
  constructor
  case around =>
    refine ⟨s.takeWhile isBlank, (s.dropWhile isBlank).rtakeWhile isBlank, ?_,
      fun c hc => List.mem_takeWhile_imp hc, fun c hc => List.mem_rtakeWhile_imp hc⟩
    rw [List.append_assoc, List.rdropWhile_append_rtakeWhile, List.takeWhile_append_dropWhile]
  case first =>
    intro c hc
    have hprefix := List.rdropWhile_prefix isBlank (s.dropWhile isBlank)
    have hhead := List.head?_dropWhile_not isBlank s
    obtain ⟨rest, hrest⟩ := hprefix
    obtain ⟨tail, htail⟩ := List.head?_eq_some_iff.mp hc
    rw [← hrest, htail, List.cons_append, List.head?_cons] at hhead
    exact hhead
  case last =>
    intro c hc
    have hne := List.ne_nil_of_mem (List.mem_of_getLast? hc)
    rw [List.getLast?_eq_some_getLast hne, Option.some.injEq] at hc
    rw [← hc]
    simpa using List.rdropWhile_last_not isBlank (s.dropWhile isBlank) hne

/-- There is one way of taking the blank ends off. -/
theorem trimChars_eq_iff {s t : List Char} : trimChars s = t ↔ Trims s t := by
  constructor
  · rintro rfl
    exact trims_trimChars s
  · rintro ⟨⟨l, r, rfl, hl, hr⟩, hfirst, hlast⟩
    show ((l ++ t ++ r).dropWhile isBlank).rdropWhile isBlank = t
    rw [List.append_assoc, List.dropWhile_append_of_pos hl]
    cases t with
    | nil =>
      rw [List.nil_append, List.dropWhile_eq_nil_iff.mpr hr]
      rfl
    | cons c t =>
      have hc := hfirst c rfl
      rw [List.cons_append, List.dropWhile_cons_of_neg (by simp [hc]), ← List.cons_append,
        List.rdropWhile, List.reverse_append,
        List.dropWhile_append_of_pos fun d hd => hr d (List.mem_reverse.mp hd)]
      show (c :: t).rdropWhile isBlank = c :: t
      refine List.rdropWhile_eq_self_iff.mpr fun hne => ?_
      simp [hlast _ (List.getLast?_eq_some_getLast hne)]

end Text

namespace IntKind

variable {kind : IntKind} {text digits : List Char} {n : Int}

/-! ## Machine integers -/

theorem holds_iff : kind.holds n ↔ kind.least ≤ n ∧ n ≤ kind.greatest := by
  simp [holds]

/-- Every unsigned number of 32 bits is in its range. -/
theorem holds_u32 (n : UInt32) : u32.holds n.toNat := by
  have hlt := n.toNat_lt
  refine holds_iff.mpr ⟨Int.natCast_nonneg _, ?_⟩
  show (n.toNat : Int) ≤ 0xFFFFFFFF
  omega

/-- Every unsigned number of 64 bits is in its range. -/
theorem holds_u64 (n : UInt64) : u64.holds n.toNat := by
  have hlt := n.toNat_lt
  refine holds_iff.mpr ⟨Int.natCast_nonneg _, ?_⟩
  show (n.toNat : Int) ≤ 0xFFFFFFFFFFFFFFFF
  omega

/-- No number of the range is changed by its conversion. -/
theorem toNat_toUInt32 (h : u32.holds n) : ((n.toNat.toUInt32).toNat : Int) = n := by
  obtain ⟨hleast, hgreatest⟩ := holds_iff.mp h
  change 0 ≤ n at hleast
  change n ≤ 0xFFFFFFFF at hgreatest
  have hlt : n.toNat < UInt32.size := by
    show n.toNat < 4294967296
    omega
  have hback : (n.toNat.toUInt32).toNat = n.toNat := UInt32.toNat_ofNat_of_lt' hlt
  rw [hback, Int.toNat_of_nonneg hleast]

theorem toNat_toUInt64 (h : u64.holds n) : ((n.toNat.toUInt64).toNat : Int) = n := by
  obtain ⟨hleast, hgreatest⟩ := holds_iff.mp h
  change 0 ≤ n at hleast
  change n ≤ 0xFFFFFFFFFFFFFFFF at hgreatest
  have hlt : n.toNat < UInt64.size := by
    show n.toNat < 18446744073709551616
    omega
  have hback : (n.toNat.toUInt64).toNat = n.toNat := UInt64.toNat_ofNat_of_lt' hlt
  rw [hback, Int.toNat_of_nonneg hleast]

/-- The text writes the integer: a sign, unless it is left out, and one or more digits. A minus sign
is a sign only in a range with negative members. -/
inductive Writes (kind : IntKind) : List Char → Int → Prop
  | plain {digits : List Char} (hne : digits ≠ []) (hdigits : ∀ c ∈ digits, c.isDigit) :
    Writes kind digits (Nat.ofDigitChars 10 digits 0)
  | plus {digits : List Char} (hne : digits ≠ []) (hdigits : ∀ c ∈ digits, c.isDigit) :
    Writes kind ('+' :: digits) (Nat.ofDigitChars 10 digits 0)
  | minus {digits : List Char} (hleast : kind.least < 0) (hne : digits ≠ [])
      (hdigits : ∀ c ∈ digits, c.isDigit) :
    Writes kind ('-' :: digits) (-(Nat.ofDigitChars 10 digits 0 : Nat))

end IntKind

end Courier
