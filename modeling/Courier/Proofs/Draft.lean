import Courier.Draft
import Mathlib.Data.List.Induction

/-!
# The last part of each group counts

The parts given to a draft fall into groups: the processor, the factory, the strategy (as such or by
its name), the retries and the wait between them (as a span or in milliseconds). Parts of one group
replace each other and parts of different groups do not meet, so a draft is determined by its name
and the last part of each group (`putAll_ofName`).

`Complete` and `Violates` say of a name and some parts, without a draft, which component they
describe and which conditions they do not meet. `build_by_last_parts` says that building follows
them.
-/

namespace Courier

namespace Violation

/-- The kinds of violations, in the order in which they are reported. -/
def kinds : List String :=
  ["MissingName", "MissingProcessor", "MissingConsumerFactory", "InvalidStrategy",
    "NegativeRetryWait"]

end Violation

namespace Draft

variable {π φ : Type}

/-! ## Groups -/

/-- The groups of parts. -/
inductive Group where
  | processor
  | factory
  | strategy
  | retries
  | retryWait
deriving DecidableEq

namespace Part

/-- The group of a part. -/
def group : Part π φ → Group
  | .processor _ => .processor
  | .factory _ => .factory
  | .strategy _ | .strategyName _ => .strategy
  | .retries _ => .retries
  | .retryWait _ | .retryWaitMs _ => .retryWait

/-- What is wrong with a part by itself. -/
inductive IsFault : Part π φ → Violation → Prop
  | strategyName {text : String} (unknown : FailStrategy.ofName? (Text.trim text) = none) :
    IsFault (.strategyName text) (.invalidStrategy text)
  | retryWaitMs {millis : Int64} (negative : millis < 0) :
    IsFault (.retryWaitMs millis) (.negativeRetryWait millis)

end Part

/-- The last part of a group, if there is one. -/
def lastOf (g : Group) (parts : List (Part π φ)) : Option (Part π φ) :=
  (parts.filter (·.group = g)).getLast?

theorem lastOf_append (g : Group) (l₁ l₂ : List (Part π φ)) :
    lastOf g (l₁ ++ l₂) = (lastOf g l₂).or (lastOf g l₁) := by
  rw [lastOf, List.filter_append, List.getLast?_append]
  rfl

theorem lastOf_cons (g : Group) (p : Part π φ) (parts : List (Part π φ)) :
    lastOf g (p :: parts) = (lastOf g parts).or (if p.group = g then some p else none) := by
  rw [← List.singleton_append, lastOf_append]
  congr 1
  by_cases h : p.group = g <;> simp [lastOf, h]

theorem group_of_lastOf {g : Group} {parts : List (Part π φ)} {p : Part π φ}
    (h : lastOf g parts = some p) : p.group = g := by
  simpa using (List.mem_filter.mp (List.mem_of_getLast? h)).2

/-- There is no part of a group, or the last one of the group is one of it. -/
theorem lastOf_cases (g : Group) (parts : List (Part π φ)) :
    lastOf g parts = none ∨ ∃ p, lastOf g parts = some p ∧ p.group = g := by
  cases h : lastOf g parts with
  | none => exact .inl rfl
  | some p => exact .inr ⟨p, rfl, group_of_lastOf h⟩

theorem lastOf_isSome_of_mem {parts : List (Part π φ)} {p : Part π φ} (h : p ∈ parts) :
    (lastOf p.group parts).isSome := by
  rw [Option.isSome_iff_ne_none, lastOf, Ne, List.getLast?_eq_none_iff]
  exact List.ne_nil_of_mem (List.mem_filter.mpr ⟨h, by simp⟩)

theorem lastOf_eq_none {g : Group} {parts : List (Part π φ)} (h : ∀ p ∈ parts, p.group ≠ g) :
    lastOf g parts = none := by
  rw [lastOf, List.getLast?_eq_none_iff, List.filter_eq_nil_iff]
  simpa using h

/-- The last part of its group in a list stands after every other one of the group. -/
theorem lastOf_append_cons {l₁ l₂ : List (Part π φ)} {p : Part π φ}
    (h : ∀ q ∈ l₂, q.group ≠ p.group) : lastOf p.group (l₁ ++ p :: l₂) = some p := by
  rw [lastOf_append, lastOf_cons, lastOf_eq_none h, if_pos rfl]
  rfl

/-- Parts of different groups can change places. -/
theorem lastOf_swap (g : Group) {p q : Part π φ} (h : p.group ≠ q.group)
    (l₁ l₂ : List (Part π φ)) : lastOf g (l₁ ++ q :: p :: l₂) = lastOf g (l₁ ++ p :: q :: l₂) := by
  simp only [lastOf_append, lastOf_cons, Option.or_assoc]
  congr 1
  by_cases hp : p.group = g
  · have hq : q.group ≠ g := fun hq => h (hp.trans hq.symm)
    simp [hp, hq]
  · simp [hp]

/-- A part before another one of its group does not count. -/
theorem lastOf_replaced (g : Group) {p q : Part π φ} (h : q.group = p.group)
    (l₁ l₂ l₃ : List (Part π φ)) :
    lastOf g (l₁ ++ (l₂ ++ q :: l₃)) = lastOf g (l₁ ++ p :: (l₂ ++ q :: l₃)) := by
  rw [lastOf_append g l₁, lastOf_append g l₁, lastOf_cons g p]
  by_cases hp : p.group = g
  · have hq : q ∈ l₂ ++ q :: l₃ := by simp
    obtain ⟨last, hlast⟩ := Option.isSome_iff_exists.mp (lastOf_isSome_of_mem hq)
    rw [h, hp] at hlast
    simp [hlast]
  · simp [hp]

/-! ## What the last parts describe -/

/-- The strategy that the last part of its group gives, or the default one. -/
def GivesStrategy : Option (Part π φ) → FailStrategy → Prop
  | none, s => s = .nackExit
  | some (.strategy given), s => s = given
  | some (.strategyName text), s => FailStrategy.ofName? (Text.trim text) = some s
  | some _, _ => False

/-- The number of retries that the last part of its group gives, or none. -/
def GivesRetries : Option (Part π φ) → UInt32 → Prop
  | none, n => n = 0
  | some (.retries given), n => n = given
  | some _, _ => False

/-- The wait that the last part of its group gives, or the empty one. -/
def GivesWait : Option (Part π φ) → Span → Prop
  | none, wait => wait = .zero
  | some (.retryWait given), wait => wait = given
  | some (.retryWaitMs millis), wait => 0 ≤ millis ∧ wait = .ofMillis millis.toInt.toNat
  | some _, _ => False

/-- The component that a name and parts describe. -/
structure Complete (name : String) (parts : List (Part π φ)) (c : Component π φ) : Prop where
  named : name ≠ ""
  name_eq : c.name = name
  processor : lastOf .processor parts = some (.processor c.processor)
  factory : lastOf .factory parts = some (.factory c.factory)
  strategy : GivesStrategy (lastOf .strategy parts) c.strategy
  retries : GivesRetries (lastOf .retries parts) c.retries
  retryWait : GivesWait (lastOf .retryWait parts) c.retryWait

/-- The conditions that a name and parts do not meet. -/
inductive Violates (name : String) (parts : List (Part π φ)) : Violation → Prop
  | missingName (h : name = "") : Violates name parts .missingName
  | missingProcessor (h : lastOf .processor parts = none) : Violates name parts .missingProcessor
  | missingFactory (h : lastOf .factory parts = none) : Violates name parts .missingFactory
  | fault {g : Group} {p : Part π φ} {v : Violation} (h : lastOf g parts = some p)
      (bad : p.IsFault v) : Violates name parts v

/-- A list of violations that reports exactly the conditions not met, in order and each once. -/
structure Reports (name : String) (parts : List (Part π φ)) (vs : List Violation) : Prop where
  nonempty : vs ≠ []
  inOrder : (vs.map Violation.kind).Sublist Violation.kinds
  mem_iff : ∀ v, v ∈ vs ↔ Violates name parts v

/-! ## Drafts by their last parts -/

/-- The draft with a name and the last part of each group. -/
def ofLast (name : String) (last : Group → Option (Part π φ)) : Draft π φ where
  name := name
  processor := match last .processor with
    | some (.processor p) => some p
    | _ => none
  factory := match last .factory with
    | some (.factory f) => some f
    | _ => none
  strategy := match last .strategy with
    | some (.strategy s) => .ok s
    | some (.strategyName text) => readStrategy text
    | _ => .ok .nackExit
  retries := match last .retries with
    | some (.retries n) => n
    | _ => 0
  retryWait := match last .retryWait with
    | some (.retryWait wait) => .ok wait
    | some (.retryWaitMs millis) => readWait millis
    | _ => .ok .zero

/-- Giving a part to a draft replaces the last part of its group. -/
theorem put_ofLast (name : String) (last : Group → Option (Part π φ)) (p : Part π φ) :
    (ofLast name last).put p = ofLast name fun g => if p.group = g then some p else last g := by
  cases p <;> rfl

theorem putAll_append (d : Draft π φ) (l₁ l₂ : List (Part π φ)) :
    d.putAll (l₁ ++ l₂) = (d.putAll l₁).putAll l₂ :=
  List.foldl_append

/-- A draft is determined by its name and the last part of each group. -/
theorem putAll_ofName (name : String) (parts : List (Part π φ)) :
    (ofName name).putAll parts = ofLast name fun g => lastOf g parts := by
  induction parts using List.reverseRecOn with
  | nil => rfl
  | append_singleton parts p ih =>
    rw [putAll_append, ih]
    refine (put_ofLast name _ p).trans ?_
    congr 1
    funext g
    rw [lastOf_append, lastOf_cons]
    by_cases h : p.group = g <;> simp [h, lastOf]

theorem readStrategy_eq_ok {text : String} {s : FailStrategy} :
    readStrategy text = .ok s ↔ FailStrategy.ofName? (Text.trim text) = some s := by
  unfold readStrategy
  split <;> simp_all

theorem readStrategy_eq_error {text given : String} :
    readStrategy text = .error given ↔
      FailStrategy.ofName? (Text.trim text) = none ∧ text = given := by
  unfold readStrategy
  split <;> simp_all

theorem readWait_eq_ok {millis : Int64} {wait : Span} :
    readWait millis = .ok wait ↔ 0 ≤ millis ∧ wait = .ofMillis millis.toInt.toNat := by
  rw [Int64.le_iff_toInt_le, readWait]
  split
  · next h => simp [h, eq_comm]
  · next h => simp [h]

theorem readWait_eq_error {millis given : Int64} :
    readWait millis = .error given ↔ millis < 0 ∧ millis = given := by
  rw [Int64.lt_iff_toInt_lt, readWait]
  split
  · next h => simp [Int.not_lt.mpr h]
  · next h => simp [Int.not_le.mp h]

section Fields

variable {name : String} {parts : List (Part π φ)}

theorem processor_putAll {p : π} :
    ((ofName name).putAll parts).processor = some p ↔
      lastOf .processor parts = some (.processor p) := by
  rw [putAll_ofName]
  obtain h | ⟨part, h, hgroup⟩ := lastOf_cases .processor parts
  · simp [ofLast, h]
  · cases part <;> cases hgroup
    simp [ofLast, h]

theorem factory_putAll {f : φ} :
    ((ofName name).putAll parts).factory = some f ↔
      lastOf .factory parts = some (.factory f) := by
  rw [putAll_ofName]
  obtain h | ⟨part, h, hgroup⟩ := lastOf_cases .factory parts
  · simp [ofLast, h]
  · cases part <;> cases hgroup
    simp [ofLast, h]

theorem strategy_putAll {s : FailStrategy} :
    ((ofName name).putAll parts).strategy = .ok s ↔ GivesStrategy (lastOf .strategy parts) s := by
  rw [putAll_ofName]
  obtain h | ⟨part, h, hgroup⟩ := lastOf_cases .strategy parts
  · simp [ofLast, h, GivesStrategy, eq_comm]
  · cases part <;> cases hgroup
    · simp [ofLast, h, GivesStrategy, eq_comm]
    · simp [ofLast, h, GivesStrategy, readStrategy_eq_ok]

theorem retries_putAll {n : UInt32} :
    ((ofName name).putAll parts).retries = n ↔ GivesRetries (lastOf .retries parts) n := by
  rw [putAll_ofName]
  obtain h | ⟨part, h, hgroup⟩ := lastOf_cases .retries parts
  · simp [ofLast, h, GivesRetries, eq_comm]
  · cases part <;> cases hgroup
    simp [ofLast, h, GivesRetries, eq_comm]

theorem retryWait_putAll {wait : Span} :
    ((ofName name).putAll parts).retryWait = .ok wait ↔
      GivesWait (lastOf .retryWait parts) wait := by
  rw [putAll_ofName]
  obtain h | ⟨part, h, hgroup⟩ := lastOf_cases .retryWait parts
  · simp [ofLast, h, GivesWait, eq_comm]
  · cases part <;> cases hgroup
    · simp [ofLast, h, GivesWait, eq_comm]
    · simp [ofLast, h, GivesWait, readWait_eq_ok]

/-- A draft has a bad value exactly if the last part of a group is at fault. -/
theorem fault_putAll (name : String) {parts : List (Part π φ)} {v : Violation} :
    (∃ g p, lastOf g parts = some p ∧ p.IsFault v) ↔
      (∃ text, v = .invalidStrategy text ∧ ((ofName name).putAll parts).strategy = .error text) ∨
        ∃ millis, v = .negativeRetryWait millis ∧
          ((ofName name).putAll parts).retryWait = .error millis := by
  rw [putAll_ofName]
  constructor
  · rintro ⟨g, p, hlast, hfault⟩
    cases hfault with
    | strategyName unknown =>
      obtain rfl : Group.strategy = g := group_of_lastOf hlast
      exact .inl ⟨_, rfl, by simp [ofLast, hlast, readStrategy_eq_error, unknown]⟩
    | retryWaitMs negative =>
      obtain rfl : Group.retryWait = g := group_of_lastOf hlast
      exact .inr ⟨_, rfl, by simp [ofLast, hlast, readWait_eq_error, negative]⟩
  · rintro (⟨text, rfl, hstrategy⟩ | ⟨millis, rfl, hwait⟩)
    · obtain h | ⟨part, h, hgroup⟩ := lastOf_cases .strategy parts
      · simp [ofLast, h] at hstrategy
      · refine ⟨.strategy, part, h, ?_⟩
        cases part <;> cases hgroup <;> simp only [ofLast, h, reduceCtorEq] at hstrategy
        obtain ⟨unknown, rfl⟩ := readStrategy_eq_error.mp hstrategy
        exact .strategyName unknown
    · obtain h | ⟨part, h, hgroup⟩ := lastOf_cases .retryWait parts
      · simp [ofLast, h] at hwait
      · refine ⟨.retryWait, part, h, ?_⟩
        cases part <;> cases hgroup <;> simp only [ofLast, h, reduceCtorEq] at hwait
        obtain ⟨negative, rfl⟩ := readWait_eq_error.mp hwait
        exact .retryWaitMs negative

end Fields

/-! ## Building -/

/-- A condition that a draft does not meet. -/
def Fails (d : Draft π φ) : Violation → Prop
  | .missingName => d.name = ""
  | .missingProcessor => d.processor = none
  | .missingFactory => d.factory = none
  | .invalidStrategy text => d.strategy = .error text
  | .negativeRetryWait millis => d.retryWait = .error millis

/-- The violations of a draft are the conditions that it does not meet. -/
theorem mem_violations {d : Draft π φ} {v : Violation} : v ∈ d.violations ↔ d.Fails v := by
  obtain ⟨name, processor, factory, strategy, retries, retryWait⟩ := d
  cases strategy <;> cases retryWait <;> cases v <;> simp [violations, Fails] <;> exact eq_comm

/-- Each condition is reported at most once, in the order of the kinds. -/
theorem kinds_violations (d : Draft π φ) :
    (d.violations.map Violation.kind).Sublist Violation.kinds := by
  have hkinds : Violation.kinds = ["MissingName"] ++ ["MissingProcessor"]
    ++ ["MissingConsumerFactory"] ++ ["InvalidStrategy"] ++ ["NegativeRetryWait"] := rfl
  rw [hkinds]
  simp only [violations, List.map_append]
  refine (((List.Sublist.append ?_ ?_).append ?_).append ?_).append ?_ <;> split <;>
    simp [Violation.kind]

/-- The draft of a component that is complete. -/
def ofComponent (c : Component π φ) : Draft π φ where
  name := c.name
  processor := some c.processor
  factory := some c.factory
  strategy := .ok c.strategy
  retries := c.retries
  retryWait := .ok c.retryWait

theorem eq_ofComponent_iff {d : Draft π φ} {c : Component π φ} :
    d = ofComponent c ↔ d.name = c.name ∧ d.processor = some c.processor ∧
      d.factory = some c.factory ∧ d.strategy = .ok c.strategy ∧ d.retries = c.retries ∧
      d.retryWait = .ok c.retryWait := by
  cases d
  simp [ofComponent]

/-- A draft without violations has all parts of a component. -/
theorem exists_component {d : Draft π φ} (h : d.violations = []) :
    ∃ c, d = ofComponent c ∧ c.name ≠ "" := by
  have hfails : ∀ v, ¬d.Fails v := fun v hv => by
    simpa [h] using mem_violations.mpr hv
  obtain ⟨name, processor, factory, strategy, retries, retryWait⟩ := d
  cases processor with
  | none => exact absurd rfl (hfails .missingProcessor)
  | some p =>
    cases factory with
    | none => exact absurd rfl (hfails .missingFactory)
    | some f =>
      cases strategy with
      | error text => exact absurd rfl (hfails (.invalidStrategy text))
      | ok s =>
        cases retryWait with
        | error millis => exact absurd rfl (hfails (.negativeRetryWait millis))
        | ok wait => exact ⟨⟨name, p, f, s, retries, wait⟩, rfl, hfails .missingName⟩

theorem violations_ofComponent {c : Component π φ} (h : c.name ≠ "") :
    (ofComponent c).violations = [] := by
  simp [violations, ofComponent, h]

theorem build_ofComponent {c : Component π φ} (h : c.name ≠ "") :
    (ofComponent c).build = .ok c := by
  simp only [build, violations_ofComponent h]
  rfl

/-- A draft with violations is refused with all of them: whichever way the parts are there or
not. -/
theorem build_of_violations {d : Draft π φ} (h : d.violations ≠ []) :
    d.build = .error d.violations := by
  unfold build
  split
  · rw [if_neg (by simpa using h)]
  · rfl

/-- Building gives the component that a draft has all parts of, or reports all violations. -/
theorem build_cases (d : Draft π φ) :
    (∃ c, d = ofComponent c ∧ c.name ≠ "" ∧ d.build = .ok c) ∨
      d.violations ≠ [] ∧ d.build = .error d.violations := by
  by_cases h : d.violations = []
  · obtain ⟨c, rfl, hne⟩ := exists_component h
    exact .inl ⟨c, rfl, hne, build_ofComponent hne⟩
  · exact .inr ⟨h, build_of_violations h⟩

section Described

variable {name : String} {parts : List (Part π φ)}

/-- The draft of some parts is that of a component if they describe the component. -/
theorem putAll_eq_ofComponent {c : Component π φ} :
    (ofName name).putAll parts = ofComponent c ∧ c.name ≠ "" ↔ Complete name parts c := by
  have hname : ((ofName name).putAll parts).name = name := by rw [putAll_ofName, ofLast]
  rw [eq_ofComponent_iff, hname, processor_putAll, factory_putAll, strategy_putAll,
    retries_putAll, retryWait_putAll]
  constructor
  · rintro ⟨⟨rfl, hprocessor, hfactory, hstrategy, hretries, hwait⟩, hne⟩
    exact ⟨hne, rfl, hprocessor, hfactory, hstrategy, hretries, hwait⟩
  · rintro ⟨hne, rfl, hprocessor, hfactory, hstrategy, hretries, hwait⟩
    exact ⟨⟨rfl, hprocessor, hfactory, hstrategy, hretries, hwait⟩, hne⟩

/-- The draft of some parts fails the conditions that the parts violate. -/
theorem fails_putAll {v : Violation} :
    ((ofName name).putAll parts).Fails v ↔ Violates name parts v := by
  constructor
  · intro h
    cases v with
    | missingName => exact .missingName (by simpa [putAll_ofName, Fails, ofLast] using h)
    | missingProcessor =>
      refine .missingProcessor ?_
      obtain hnone | ⟨part, hlast, hgroup⟩ := lastOf_cases .processor parts
      · exact hnone
      · cases part <;> cases hgroup
        exact absurd (h.symm.trans (processor_putAll.mpr hlast)) (by simp)
    | missingFactory =>
      refine .missingFactory ?_
      obtain hnone | ⟨part, hlast, hgroup⟩ := lastOf_cases .factory parts
      · exact hnone
      · cases part <;> cases hgroup
        exact absurd (h.symm.trans (factory_putAll.mpr hlast)) (by simp)
    | invalidStrategy text =>
      obtain ⟨g, p, hlast, hfault⟩ := (fault_putAll name).mpr (.inl ⟨text, rfl, h⟩)
      exact .fault hlast hfault
    | negativeRetryWait millis =>
      obtain ⟨g, p, hlast, hfault⟩ := (fault_putAll name).mpr (.inr ⟨millis, rfl, h⟩)
      exact .fault hlast hfault
  · intro h
    cases h with
    | missingName h => simpa [putAll_ofName, Fails, ofLast] using h
    | missingProcessor h => simp [putAll_ofName, Fails, ofLast, h]
    | missingFactory h => simp [putAll_ofName, Fails, ofLast, h]
    | fault hlast hfault =>
      obtain ⟨text, rfl, h⟩ | ⟨millis, rfl, h⟩ := (fault_putAll name).mp ⟨_, _, hlast, hfault⟩
      · exact h
      · exact h

/-- Building gives the component that name and parts describe, or a report of what is wrong. -/
theorem build_putAll (name : String) (parts : List (Part π φ)) :
    match ((ofName name).putAll parts).build with
    | .ok c => Complete name parts c ∧ ∀ v, ¬Violates name parts v
    | .error vs => Reports name parts vs ∧ ∀ c, ¬Complete name parts c := by
  have hmem : ∀ v, v ∈ ((ofName name).putAll parts).violations ↔ Violates name parts v :=
    fun v => mem_violations.trans fails_putAll
  cases hviolations : ((ofName name).putAll parts).violations with
  | nil =>
    obtain ⟨c, hc, hne⟩ := exists_component hviolations
    rw [hc, build_ofComponent hne]
    exact ⟨putAll_eq_ofComponent.mp ⟨hc, hne⟩, fun v hv => by
      simpa [hviolations] using (hmem v).mpr hv⟩
  | cons v vs =>
    rw [build_of_violations (by simp [hviolations])]
    refine ⟨⟨by simp [hviolations], kinds_violations _, hmem⟩, fun c hc => ?_⟩
    obtain ⟨hc, hne⟩ := putAll_eq_ofComponent.mpr hc
    simp [hc, violations_ofComponent hne] at hviolations

end Described

/-! ## The result -/

/-- What building makes of a name and any parts, in any order and number. It gives the component
that the name and the last part of each group describe, or a report of every condition that is not
met. Parts of different groups can change places, a part that is replaced later leaves no trace, and
a bad one that is not is reported. -/
theorem build_by_last_parts (name : String) (parts : List (Part π φ)) :
    (match ((ofName name).putAll parts).build with
      | .ok c => Complete name parts c ∧ ∀ v, ¬Violates name parts v
      | .error vs => Reports name parts vs ∧ ∀ c, ¬Complete name parts c) ∧
    (∀ c, ((ofName name).putAll parts).build = .ok c ↔ Complete name parts c) ∧
    (∀ others, (∀ g, lastOf g others = lastOf g parts) →
      ((ofName name).putAll others).build = ((ofName name).putAll parts).build) ∧
    (∀ before p q after, parts = before ++ p :: q :: after → p.group ≠ q.group →
      ((ofName name).putAll (before ++ q :: p :: after)).build =
        ((ofName name).putAll parts).build) ∧
    (∀ before p between q after, parts = before ++ p :: (between ++ q :: after) →
      q.group = p.group →
      ((ofName name).putAll (before ++ (between ++ q :: after))).build =
        ((ofName name).putAll parts).build) ∧
    (∀ before p after v, parts = before ++ p :: after → (∀ q ∈ after, q.group ≠ p.group) →
      p.IsFault v → ∃ vs, ((ofName name).putAll parts).build = .error vs ∧ v ∈ vs) ∧
    ∀ s : Settings, (ofSettings s).putAll parts =
      (ofName s.name).putAll (settingsParts s ++ parts) := by
  have hlast : ∀ others, (∀ g, lastOf g others = lastOf g parts) →
      ((ofName name).putAll others).build = ((ofName name).putAll parts).build := by
    intro others h
    rw [putAll_ofName, putAll_ofName, funext h]
  refine ⟨build_putAll name parts, ?_, hlast, ?_, ?_, ?_, fun s => (putAll_append _ _ _).symm⟩
  · intro c
    constructor
    · intro h
      have hbuild := build_putAll name parts
      rw [h] at hbuild
      exact hbuild.1
    · intro h
      obtain ⟨hc, hne⟩ := putAll_eq_ofComponent.mpr h
      rw [hc, build_ofComponent hne]
  · rintro before p q after rfl hne
    exact hlast _ fun g => lastOf_swap g hne before after
  · rintro before p between q after rfl hgroup
    exact hlast _ fun g => lastOf_replaced g hgroup before between after
  · rintro before p after v rfl hafter hfault
    have hv : Violates name (before ++ p :: after) v :=
      .fault (lastOf_append_cons hafter) hfault
    have hbuild := build_putAll name (before ++ p :: after)
    split at hbuild
    · exact absurd hv (hbuild.2 v)
    · next vs hvs => exact ⟨vs, hvs, (hbuild.1.mem_iff v).mpr hv⟩

/-- A draft whose unknown strategy was replaced later, and whose wait was replaced by a negative
one: only the wait is reported. -/
theorem build_by_last_parts_of_replaced :
    ∃ vs, ((ofName "name" : Draft Nat Nat).putAll [.strategyName "bogus", .processor 1,
        .retryWait .zero, .factory 2, .strategy .ack, .retryWaitMs (-2)]).build = .error vs ∧
      .negativeRetryWait (-2) ∈ vs ∧
      ((ofName "name" : Draft Nat Nat).putAll [.processor 1, .retryWait .zero, .factory 2,
        .strategy .ack, .retryWaitMs (-2)]).build = .error vs := by
  obtain ⟨-, -, -, -, hreplaced, hbad, -⟩ := @build_by_last_parts Nat Nat "name"
    [.strategyName "bogus", .processor 1, .retryWait .zero, .factory 2, .strategy .ack,
      .retryWaitMs (-2)]
  obtain ⟨vs, hvs, hmem⟩ := hbad [.strategyName "bogus", .processor 1, .retryWait .zero, .factory 2,
    .strategy .ack] (.retryWaitMs (-2)) [] _ rfl (by simp) (.retryWaitMs (by decide))
  exact ⟨vs, hvs, hmem, (hreplaced [] (.strategyName "bogus") [.processor 1, .retryWait .zero,
    .factory 2] (.strategy .ack) [.retryWaitMs (-2)] rfl rfl).trans hvs⟩

end Draft

end Courier
