import Courier.Proofs.Draft
import Courier.Proofs.Numeral
import Mathlib.Data.List.Forall2

/-!
# Names of strategies

A strategy is read by its name in three ways: from a plain text, where the case of ASCII letters
does not count; from JSON, by the exact name; and by a draft, where blank characters around the name
do not count either. `readers_agree` says of any text what each of the three makes of it. A draft
that can make nothing of a text reports it as it was given, with the blank characters.

What the case of a letter and a blank character is, is said here by the alphabet and the list of
characters (`Text.letterCases`, `Text.whiteSpace`), and not by the ranges of numbers that the
readers test. So a letter beyond ASCII stands only for itself, even if its small form is an ASCII
letter.
-/

namespace Courier

/-! ## Letters and blanks -/

namespace Text

variable {c d : Char} {s t : List Char}

/-- The capital letters of ASCII, each with its small letter. -/
def letterCases : List (Char × Char) :=
  "ABCDEFGHIJKLMNOPQRSTUVWXYZ".toList.zip "abcdefghijklmnopqrstuvwxyz".toList

/-- The second character is the first one, made small if it is a capital letter of ASCII. -/
inductive Lowers : Char → Char → Prop
  | capital {c d : Char} (h : (c, d) ∈ letterCases) : Lowers c d
  | other {c : Char} (h : ∀ d, (c, d) ∉ letterCases) : Lowers c c

/-- Two texts are the same but for the case of their ASCII letters. -/
def SameButCase (s t : List Char) : Prop :=
  ∃ u, List.Forall₂ Lowers s u ∧ List.Forall₂ Lowers t u

/-- The characters with the Unicode property White_Space. -/
def whiteSpace : List Char :=
  ['\t', '\n', '\x0b', '\x0c', '\r', ' ', '\u0085', '\u00a0', '\u1680', '\u2000', '\u2001',
    '\u2002', '\u2003', '\u2004', '\u2005', '\u2006', '\u2007', '\u2008', '\u2009', '\u200a',
    '\u2028', '\u2029', '\u202f', '\u205f', '\u3000']

/-- Words that begin with capital letters, in small letters with a low line between them. -/
def snakeCase (s : String) : String :=
  match s.toList with
  | [] => ""
  | c :: rest =>
    String.ofList (c.toLower :: rest.flatMap fun d => if d.isUpper then ['_', d.toLower] else [d])

theorem isBlank_iff_mem_whiteSpace : isBlank c ↔ c ∈ whiteSpace := by
  have hcodes : c ∈ whiteSpace ↔ c.toNat ∈ whiteSpace.map Char.toNat :=
    (List.mem_map_of_injective fun _ _ => Char.toNat_inj.mp).symm
  have hlist :
      whiteSpace.map Char.toNat = [0x09, 0x0A, 0x0B, 0x0C, 0x0D, 0x20, 0x85, 0xA0, 0x1680, 0x2000,
      0x2001, 0x2002, 0x2003, 0x2004, 0x2005, 0x2006, 0x2007, 0x2008, 0x2009, 0x200A, 0x2028,
      0x2029, 0x202F, 0x205F, 0x3000] := rfl
  rw [hcodes, hlist]
  simp only [isBlank, inRanges, blankRanges, List.any_cons, List.any_nil, Bool.or_eq_true,
    Bool.and_eq_true, decide_eq_true_eq, List.mem_cons, List.not_mem_nil, Bool.false_eq_true,
    or_false]
  omega

/-- Every character of the range of capital letters is in the alphabet. -/
theorem exists_letterCases (hfirst : 65 ≤ c.toNat) (hlast : c.toNat ≤ 90) :
    ∃ d, (c, d) ∈ letterCases := by
  have hall : ∀ i ∈ List.range 26,
      (Char.ofNat (65 + i), Char.ofNat (97 + i)) ∈ letterCases := by decide
  have hmem := hall (c.toNat - 65) (List.mem_range.mpr (by omega))
  rw [Nat.add_sub_cancel' hfirst, Char.ofNat_toNat] at hmem
  exact ⟨_, hmem⟩

theorem toLower_of_lowers (h : Lowers c d) : c.toLower = d := by
  cases h with
  | capital h =>
    have hall : ∀ p ∈ letterCases, p.1.toLower = p.2 := by decide
    exact hall _ h
  | other h =>
    -- A character that is made small lies between A and Z, and so it is in the alphabet.
    unfold Char.toLower
    refine dif_neg fun ⟨hfirst, hlast⟩ => ?_
    obtain ⟨d, hd⟩ :=
      exists_letterCases (UInt32.le_iff_toNat_le.mp hfirst) (UInt32.le_iff_toNat_le.mp hlast)
    exact h d hd

theorem lowers_iff : Lowers c d ↔ c.toLower = d := by
  constructor
  · exact toLower_of_lowers
  · rintro rfl
    by_cases hcapital : ∃ d, (c, d) ∈ letterCases
    · obtain ⟨d, h⟩ := hcapital
      rw [toLower_of_lowers (.capital h)]
      exact .capital h
    · have hother := Lowers.other (not_exists.mp hcapital)
      rw [toLower_of_lowers hother]
      exact hother

theorem forall₂_lowers_iff : List.Forall₂ Lowers s t ↔ s.map Char.toLower = t := by
  have hlowers : Lowers = fun c d => c.toLower = d := by
    funext c d
    exact propext lowers_iff
  rw [hlowers, ← List.forall₂_map_left_iff, List.forall₂_eq_eq_eq]

theorem sameButCase_iff : SameButCase s t ↔ s.map Char.toLower = t.map Char.toLower := by
  simp only [SameButCase, forall₂_lowers_iff]
  exact ⟨fun ⟨u, hs, ht⟩ => hs.trans ht.symm, fun h => ⟨_, h, rfl⟩⟩

/-- No blank character is a letter. -/
theorem isBlank_toLower (c : Char) : isBlank c.toLower = isBlank c := by
  by_cases hcapital : ∃ d, (c, d) ∈ letterCases
  · obtain ⟨d, h⟩ := hcapital
    have hall : ∀ p ∈ letterCases, isBlank p.2 = isBlank p.1 := by decide
    rw [toLower_of_lowers (.capital h)]
    exact hall _ h
  · rw [toLower_of_lowers (.other (not_exists.mp hcapital))]

/-- The case of letters has no part in what the ends of a text are. -/
theorem trimChars_map_toLower (s : List Char) :
    trimChars (s.map Char.toLower) = (trimChars s).map Char.toLower := by
  have hblank : isBlank ∘ Char.toLower = isBlank := funext isBlank_toLower
  simp only [trimChars, List.dropWhile_map, hblank, ← List.map_reverse]

/-- Further blank characters at the ends are taken off with the others. -/
theorem Trims.pad {l r : List Char} (h : Trims s t) (hl : ∀ c ∈ l, isBlank c)
    (hr : ∀ c ∈ r, isBlank c) : Trims (l ++ s ++ r) t := by
  obtain ⟨⟨l', r', rfl, hl', hr'⟩, hfirst, hlast⟩ := h
  refine ⟨⟨l ++ l', r' ++ r, by simp, ?_, ?_⟩, hfirst, hlast⟩
  · exact fun c hc => (List.mem_append.mp hc).elim (hl c) (hl' c)
  · exact fun c hc => (List.mem_append.mp hc).elim (hr' c) (hr c)

end Text

/-! ## Plain texts and JSON -/

namespace FailStrategy

variable {s : String} {v : FailStrategy} {j : Json}

theorem name_eq_snakeCase (v : FailStrategy) : v.name = Text.snakeCase v.inspect := by
  cases v <;> rfl

theorem ofExactName?_eq_some_iff : ofExactName? s = some v ↔ s = v.name := by
  constructor
  · intro h
    simpa [eq_comm] using List.find?_some h
  · rintro rfl
    cases v <;> rfl

/-- Two strategies with one name would be found as one. -/
theorem name_injective : Function.Injective name := fun _ _ h =>
  Option.some.inj ((ofExactName?_eq_some_iff.mpr rfl).symm.trans (ofExactName?_eq_some_iff.mpr h))

theorem ofName?_eq_some_iff_map :
    ofName? s = some v ↔ s.toList.map Char.toLower = v.name.toList := by
  rw [ofName?, ofExactName?_eq_some_iff, asciiLower, ← String.toList_inj, String.toList_ofList]

/-- A plain text is read as a strategy if it is the name once its ASCII letters are small. -/
theorem ofName?_eq_some_iff :
    ofName? s = some v ↔ List.Forall₂ Text.Lowers s.toList v.name.toList := by
  rw [ofName?_eq_some_iff_map, Text.forall₂_lowers_iff]

/-- What is read from a plain text does not depend on the case of its letters. -/
theorem ofName?_congr {t : String} (h : Text.SameButCase s.toList t.toList) :
    ofName? s = ofName? t := by
  have hmap := Text.sameButCase_iff.mp h
  rw [ofName?, ofName?, asciiLower, asciiLower, hmap]

/-- Names are written in small letters. -/
theorem ofName?_name (v : FailStrategy) : ofName? v.name = some v := by
  rw [ofName?_eq_some_iff_map]
  cases v <;> rfl

theorem trim_name (v : FailStrategy) : Text.trim v.name = v.name := by
  cases v <;> rfl

theorem ofVariant_eq_ok_iff : ofVariant s = .ok v ↔ s = v.name := by
  rw [← ofExactName?_eq_some_iff, ofVariant]
  cases ofExactName? s <;> simp

/-- A strategy is read from JSON by its exact name: as a text, or as the only key of an object, over
null. -/
theorem ofJson_eq_ok_iff : ofJson j = .ok v ↔ j = .text v.name ∨ j = .object [(v.name, .null)] := by
  unfold ofJson
  split
  case h_1 s => simp [ofVariant_eq_ok_iff]
  case h_2 key value =>
    have hnull : value.asUnit = .ok () ↔ value = .null := by cases value <;> simp [Json.asUnit]
    simp only [bind_eq_ok_iff, ofVariant_eq_ok_iff, hnull, exists_const, pure, Except.pure,
      Except.ok.injEq]
    constructor
    · rintro ⟨w, rfl, hvalue, rfl⟩
      exact .inr (by rw [hvalue])
    · rintro (h | h)
      · cases h
      · cases h
        exact ⟨v, rfl, rfl, rfl⟩
  case h_3 members hmembers =>
    simp only [reduceCtorEq, Json.object.injEq, false_or, false_iff]
    exact hmembers _ _
  case h_4 j htext hsingle hobject =>
    simp only [reduceCtorEq, false_iff, not_or]
    exact ⟨htext _, hobject _⟩

theorem ofJson_text_eq_ok_iff : ofJson (.text s) = .ok v ↔ s = v.name := by
  rw [ofJson_eq_ok_iff]
  simp

end FailStrategy

/-! ## Drafts -/

/-- Whether a violation is that no strategy has a name. -/
def Violation.isInvalidStrategy : Violation → Bool
  | .invalidStrategy _ => true
  | _ => false

namespace Draft

variable {π φ : Type} {d : Draft π φ} {parts : List (Part π φ)} {s t : String} {v : FailStrategy}

/-- Giving a name chooses the strategy that it names. -/
theorem put_strategyName_eq_iff :
    d.put (.strategyName s) = d.put (.strategy v) ↔
      FailStrategy.ofName? (Text.trim s) = some v := by
  rw [← readStrategy_eq_ok]
  simp [put]

/-- Parts of other groups leave the strategy as it is. -/
theorem strategy_putAll_of_others (h : ∀ p ∈ parts, p.group ≠ .strategy) :
    (d.putAll parts).strategy = d.strategy := by
  induction parts generalizing d with
  | nil => rfl
  | cons p parts ih =>
    rw [List.forall_mem_cons] at h
    obtain ⟨hp, hparts⟩ := h
    refine (ih hparts).trans ?_
    cases p with
    | strategy | strategyName => exact absurd rfl hp
    | _ => rfl

theorem filter_violations (d : Draft π φ) : d.violations.filter Violation.isInvalidStrategy =
    match d.strategy with
    | .error given => [.invalidStrategy given]
    | .ok _ => [] := by
  simp only [violations, List.filter_append, apply_ite (List.filter Violation.isInvalidStrategy)]
  cases d.strategy <;> cases d.retryWait <;> simp [Violation.isInvalidStrategy]

theorem strategy_of_build {c : Component π φ} (h : d.build = .ok c) :
    d.strategy = .ok c.strategy := by
  obtain ⟨c', rfl, -, hc'⟩ | ⟨-, herror⟩ := build_cases d
  · obtain rfl := Except.ok.inj (h.symm.trans hc')
    rfl
  · cases h.symm.trans herror

/-- What comes of a draft to which a name is given for its strategy, and then other parts: `t` is
the name without the blank characters at its ends. -/
structure TakesName (d : Draft π φ) (parts : List (Part π φ)) (s t : String) : Prop where
  chosen : ∀ v, d.put (.strategyName s) = d.put (.strategy v) ↔ FailStrategy.ofName? t = some v
  built : ∀ v, (∃ c, ((d.put (.strategyName s)).putAll parts).build = .ok c ∧ c.strategy = v) ↔
    FailStrategy.ofName? t = some v ∧ ∃ c, ((d.put (.strategy v)).putAll parts).build = .ok c
  refused : (∀ v, FailStrategy.ofName? t ≠ some v) →
    ∃ vs, ((d.put (.strategyName s)).putAll parts).build = .error vs ∧
      vs.filter Violation.isInvalidStrategy = [.invalidStrategy s]
  unreported : ∀ v vs, FailStrategy.ofName? t = some v →
    ((d.put (.strategyName s)).putAll parts).build = .error vs →
      vs.filter Violation.isInvalidStrategy = []

/-- Every draft takes a name for what it is without the blank characters at its ends. -/
theorem takesName_trim (h : ∀ p ∈ parts, p.group ≠ .strategy) :
    d.TakesName parts s (Text.trim s) := by
  -- What is given after the name leaves the strategy, or the name that is none, as it is.
  have hstrategy : ((d.put (.strategyName s)).putAll parts).strategy = readStrategy s := by
    rw [strategy_putAll_of_others h, put]
  constructor
  case chosen => exact fun v => put_strategyName_eq_iff
  case built =>
    intro v
    constructor
    · rintro ⟨c, hbuild, rfl⟩
      have hread := hstrategy.symm.trans (strategy_of_build hbuild)
      have hname := readStrategy_eq_ok.mp hread
      exact ⟨hname, c, by rw [← put_strategyName_eq_iff.mpr hname, hbuild]⟩
    · rintro ⟨hname, c, hbuild⟩
      rw [← put_strategyName_eq_iff.mpr hname] at hbuild
      have hread := hstrategy.symm.trans (strategy_of_build hbuild)
      exact ⟨c, hbuild, Except.ok.inj (hread.symm.trans (readStrategy_eq_ok.mpr hname))⟩
  case refused =>
    intro hnone
    have hread : readStrategy s = .error s :=
      readStrategy_eq_error.mpr ⟨Option.eq_none_iff_forall_ne_some.mpr hnone, rfl⟩
    rw [hread] at hstrategy
    obtain ⟨c, -, -, hbuild⟩ | ⟨-, hbuild⟩ := build_cases ((d.put (.strategyName s)).putAll parts)
    · exact nomatch hstrategy.symm.trans (strategy_of_build hbuild)
    · refine ⟨_, hbuild, ?_⟩
      rw [filter_violations, hstrategy]
  case unreported =>
    intro v vs hname herror
    obtain ⟨c, -, -, hbuild⟩ | ⟨-, hbuild⟩ := build_cases ((d.put (.strategyName s)).putAll parts)
    · cases herror.symm.trans hbuild
    · obtain rfl := Except.error.inj (hbuild.symm.trans herror)
      rw [filter_violations, hstrategy, readStrategy_eq_ok.mpr hname]

end Draft

namespace FailStrategy

/-- Neither blank characters around a text nor the case of its letters changes what it names. -/
theorem ofName?_trim_pad {s s' : String} {l r : List Char}
    (hcase : Text.SameButCase s.toList s'.toList) (hl : ∀ c ∈ l, c ∈ Text.whiteSpace)
    (hr : ∀ c ∈ r, c ∈ Text.whiteSpace) :
    ofName? (Text.trim (String.ofList (l ++ s'.toList ++ r))) = ofName? (Text.trim s) := by
  simp only [← Text.isBlank_iff_mem_whiteSpace] at hl hr
  have htrim : Text.trimChars (l ++ s'.toList ++ r) = Text.trimChars s'.toList :=
    Text.trimChars_eq_iff.mpr ((Text.trims_trimChars _).pad hl hr)
  rw [Text.trim, String.toList_ofList, htrim]
  refine (ofName?_congr ?_).symm
  rw [Text.trim, String.toList_ofList, String.toList_ofList, Text.sameButCase_iff,
    ← Text.trimChars_map_toLower, Text.sameButCase_iff.mp hcase, Text.trimChars_map_toLower]

/-! ## The result -/

/-- What the three readers make of a text. As a plain text it is read as a strategy if its ASCII
letters made small give the name of the strategy, and as a JSON text if it is that name. A draft
reads it as a plain text without the blank characters at its ends, and reports it as it was given if
that is no name. Hence blank characters around a text and the case of its letters do not change
which strategy a draft takes it for, no two strategies have the same name, and each is found by its
name in all three ways. -/
theorem readers_agree (s : String) :
    (∀ v, ofName? s = some v ↔ List.Forall₂ Text.Lowers s.toList v.name.toList) ∧
    (∀ v, ofJson (.text s) = .ok v ↔ s = v.name) ∧
    (∀ v, ofJson (.text s) = .ok v → ofName? s = some v) ∧
    (∃ t : String, Text.Trims s.toList t.toList ∧
      ∀ (π φ : Type) (d : Draft π φ) (parts : List (Draft.Part π φ)),
        (∀ p ∈ parts, p.group ≠ .strategy) → d.TakesName parts s t) ∧
    (∀ s' : String, Text.SameButCase s.toList s'.toList → ofName? s' = ofName? s ∧
      ∀ l r, (∀ c ∈ l, c ∈ Text.whiteSpace) → (∀ c ∈ r, c ∈ Text.whiteSpace) →
        ∀ (π φ : Type) (d : Draft π φ) (v : FailStrategy),
          d.put (.strategyName (String.ofList (l ++ s'.toList ++ r))) = d.put (.strategy v) ↔
            d.put (.strategyName s) = d.put (.strategy v)) ∧
    (∀ c, Text.isBlank c ↔ c ∈ Text.whiteSpace) ∧
    (∀ v, name v = Text.snakeCase v.inspect) ∧
    Function.Injective name ∧
    ∀ v, ofName? v.name = some v ∧ ofJson (.text v.name) = .ok v ∧
      ∀ (π φ : Type) (d : Draft π φ), d.put (.strategyName v.name) = d.put (.strategy v) := by
  refine ⟨fun v => ofName?_eq_some_iff, fun v => ofJson_text_eq_ok_iff, ?json, ?draft, ?alike,
    fun c => Text.isBlank_iff_mem_whiteSpace, name_eq_snakeCase, name_injective, ?back⟩
  case json =>
    intro v h
    rw [ofJson_text_eq_ok_iff.mp h]
    exact ofName?_name v
  case draft =>
    refine ⟨Text.trim s, ?_, fun π φ d parts h => Draft.takesName_trim h⟩
    rw [Text.trim, String.toList_ofList]
    exact Text.trims_trimChars _
  case alike =>
    intro s' hcase
    refine ⟨(ofName?_congr hcase).symm, fun l r hl hr π φ d v => ?_⟩
    rw [Draft.put_strategyName_eq_iff, Draft.put_strategyName_eq_iff, ofName?_trim_pad hcase hl hr]
  case back =>
    intro v
    refine ⟨ofName?_name v, ofJson_text_eq_ok_iff.mpr rfl, fun π φ d => ?_⟩
    rw [Draft.put_strategyName_eq_iff, trim_name, ofName?_name]

/-- Capitals do not count in a name, and neither do blank characters around it. A Kelvin sign is no
letter of a name although its small form is one; the text is reported with the blank character at
its end. -/
theorem readers_agree_of_kelvin :
    (Draft.ofName "name" : Draft Nat Nat).put (.strategyName "\u2003Nack_EXIT\n") =
      (Draft.ofName "name").put (.strategy .nackExit) ∧
    ∃ vs, (((Draft.ofName "name" : Draft Nat Nat).put (.strategyName "nac\u212a ")).putAll
        [.processor 1, .factory 2]).build = .error vs ∧
      vs.filter Violation.isInvalidStrategy = [.invalidStrategy "nac\u212a "] := by
  constructor
  · obtain ⟨-, -, -, -, halike, -, -, -, hback⟩ := readers_agree "nack_exit"
    obtain ⟨-, hpad⟩ := halike "Nack_EXIT" (Text.sameButCase_iff.mpr (by decide))
    have hname := (hback .nackExit).2.2 Nat Nat (Draft.ofName "name")
    exact (hpad ['\u2003'] ['\n'] (by simp [Text.whiteSpace]) (by simp [Text.whiteSpace])
      Nat Nat (Draft.ofName "name") .nackExit).mpr hname
  · obtain ⟨-, -, -, ⟨t, htrims, htakes⟩, -⟩ := readers_agree "nac\u212a "
    refine (htakes Nat Nat _ [.processor 1, .factory 2] (by simp [Draft.Part.group])).refused
      fun v hv => ?_
    have hname := ofName?_eq_some_iff_map.mp hv
    rw [← Text.trimChars_eq_iff.mpr htrims] at hname
    revert hname
    cases v <;> decide

end FailStrategy

end Courier
