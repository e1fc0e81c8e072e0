import Courier.Proofs.Worker.Drained
import Courier.Proofs.Worker.Ownership

/-!
# A budget of failures

The factory of the in-memory transport can be told to fail the next `k` requests for a consumer. A
component is run over it again and again, each time after the run before has ended, and no run sees
a request to stop while it waits to try again. Then the failures are spent in turn: with at most `M`
attempts to a run, the first `k / M` runs fail, the next one gets its consumer after `k % M`
failures, and every later one at once.

`Budget.registerStep` is the step from one event to the next. While a run is at its attempts, what
is left of the budget is what the runs before have left, less the failures of this one (`Underway`);
a run that is past acquisition has had the failures that were its share (`Concluded`).
`Counted.registerStep` keeps the counters of the factory.
-/

namespace Courier

/-! ## The requests of a run -/

/-- The requests for a consumer that were made by the `n`-th run, with what the factory answered. -/
def askedBy (asked : List (Nat × Except String Nat)) (n : Nat) : List (Except String Nat) :=
  (asked.filter fun x => x.1 = n).map Prod.snd

theorem askedBy_append_self (asked : List (Nat × Except String Nat)) (n : Nat)
    (new : List (Except String Nat)) :
    askedBy (asked ++ new.map (Prod.mk n)) n = askedBy asked n ++ new := by
  simp [askedBy, List.filter_append, List.filter_map, Function.comp_def]

theorem askedBy_append_of_ne (asked : List (Nat × Except String Nat)) {n m : Nat} (h : m ≠ n)
    (new : List (Except String Nat)) :
    askedBy (asked ++ new.map (Prod.mk n)) m = askedBy asked m := by
  simp [askedBy, List.filter_append, List.filter_map, Function.comp_def, Ne.symm h]

theorem askedBy_eq_nil {asked : List (Nat × Except String Nat)} {n : Nat}
    (h : ∀ x ∈ asked, x.1 < n) :
    askedBy asked n = [] := by
  have hnone : (asked.filter fun x => x.1 = n) = [] := by
    refine List.filter_eq_nil_iff.mpr fun x hx => ?_
    have hlt := h x hx
    simp only [decide_eq_true_eq]
    omega
  rw [askedBy, hnone, List.map_nil]

/-- What the factory answers as long as it is to fail. -/
def unavailable : Except String Nat := .error Broker.unavailableError

/-- How the `n`-th run stands that is past acquisition and has asked as `mine` says, with `k`
failures in all and at most `M` attempts to a run. -/
structure Concluded (k M n : Nat) (mine : List (Except String Nat)) (phase : Phase Delivery) :
    Prop where
  /-- If the budget lasts for this run and all before, it has failed, with as many attempts as it
  may make. -/
  exhausted : (n + 1) * M ≤ k → mine = List.replicate M unavailable ∧
    ∃ m : UInt32, m.toNat = M ∧ phase = .stopped (.error (.acquisition m Broker.unavailableError))
  /-- The first run for which it does not last has had the rest of the failures, and then a
  consumer. -/
  first : n * M ≤ k → k < (n + 1) * M → ∃ c, mine = List.replicate (k % M) unavailable ++ [.ok c]
  /-- A later run has had a consumer at once. -/
  later : k < n * M → ∃ c, mine = [.ok c]
  /-- Neither of them fails for want of a consumer. -/
  acquired : k < (n + 1) * M → ∀ m cause, phase.outcome? ≠ some (.error (.acquisition m cause))

/-- How the `n`-th run stands that is at its attempts, with `left` failures left. -/
def Underway (p : Profile) (k M n : Nat) (mine : List (Except String Nat)) (left : Nat)
    (phase : Phase Delivery) : Prop :=
  ∃ failed, phase.Attempted p failed ∧ failed < M ∧ failed ≤ k - n * M ∧
    mine = List.replicate failed unavailable ∧ left = k - n * M - failed

/-- How the runs of a component stand with the budget. -/
structure Budget (retries : UInt32) (k M : Nat) (g : Register) (ps : List ProfiledRun)
    (asked : List (Nat × Except String Nat)) : Prop where
  rules : ∀ q ∈ ps, q.profile.retries = retries
  fresh : ∀ x ∈ asked, x.1 < ps.length
  concluded : ∀ (n : Nat) (q : ProfiledRun), ps[n]? = some q → ¬ q.state.phase.IsAcquiring →
    Concluded k M n (askedBy asked n) q.state.phase
  underway : ∀ (n : Nat) (q : ProfiledRun), ps[n]? = some q → q.state.phase.IsAcquiring →
    n + 1 = ps.length ∧ Underway q.profile k M n (askedBy asked n) g.failuresLeft q.state.phase
  left : (∀ q ∈ ps, ¬ q.state.phase.IsAcquiring) → g.failuresLeft = k - ps.length * M

/-! ## One event -/

/-- A run that handles messages does not fail for want of a consumer. -/
theorem Phase.acquired_of_handling {p : Profile} {now : Nat} {phase : Phase Delivery}
    {a : Answer Delivery} {turn : Turn Delivery} (h : phase.IsHandling)
    (hstepsTo : phase.StepsTo p now a turn) :
    turn.phase.HasLane ∧ ∀ m cause, turn.phase.outcome? ≠ some (.error (.acquisition m cause)) := by
  cases hstepsTo
  case idled | reassured | received | succeeded | broke | accepted | absorbed =>
    exact ⟨trivial, fun m cause => nofun⟩
  case interrupted | alerted | ranOut | rejected | unrejected | unaccepted | unsettled =>
    exact ⟨trivial, fun m cause houtcome => nomatch Option.some.inj houtcome⟩
  all_goals exact h.elim

theorem Phase.not_isAcquiring_of_hasLane {phase : Phase Delivery} (h : phase.HasLane) :
    ¬ phase.IsAcquiring := by
  cases phase <;> first | exact fun hacq => hacq | exact h.elim

namespace Budget

variable {retries : UInt32} {k M n : Nat} {g g' : Register} {ps : List ProfiledRun}
  {q : ProfiledRun} {asked : List (Nat × Except String Nat)}

/-- A run that is past acquisition goes on. -/
theorem moveOn (h : Budget retries k M g ps asked) (hn : ps[n]? = some q) {s' : RunState}
    (hleft : g'.failuresLeft = g.failuresLeft)
    (hpast : ¬ q.state.phase.IsAcquiring) (hactive : q.state.phase.result? = none)
    (hpast' : ¬ s'.phase.IsAcquiring)
    (hacquired : (∀ m cause, q.state.phase.outcome? ≠ some (.error (.acquisition m cause))) →
      ∀ m cause, s'.phase.outcome? ≠ some (.error (.acquisition m cause))) :
    Budget retries k M g' (ps.set n { q with state := s' }) asked := by
  have hmine := h.concluded n q hn hpast
  -- Otherwise it would have ended.
  have hlt : k < (n + 1) * M := by
    by_contra hle
    obtain ⟨-, m, -, hphase⟩ := hmine.exhausted (Nat.le_of_not_lt hle)
    rw [hphase] at hactive
    cases hactive
  constructor
  case rules =>
    intro x hx
    rcases List.mem_or_eq_of_mem_set hx with hx | rfl
    · exact h.rules x hx
    · exact h.rules q (List.mem_of_getElem? hn)
  case fresh =>
    intro x hx
    rw [List.length_set]
    exact h.fresh x hx
  case concluded =>
    intro i x hi hx
    rcases getElem?_set_cases hi with ⟨rfl, rfl⟩ | ⟨-, hi⟩
    · exact ⟨fun hle => absurd hlt (Nat.not_lt.mpr hle), hmine.first, hmine.later,
        fun _ => hacquired (hmine.acquired hlt)⟩
    · exact h.concluded i x hi hx
  case underway =>
    intro i x hi hx
    rcases getElem?_set_cases hi with ⟨-, rfl⟩ | ⟨-, hi⟩
    · exact absurd hx hpast'
    · rw [List.length_set, hleft]
      exact h.underway i x hi hx
  case left =>
    intro hall
    rw [List.length_set, hleft]
    refine h.left fun x hx hacq => ?_
    obtain ⟨i, hi⟩ := List.mem_iff_getElem?.mp hx
    by_cases hin : i = n
    · subst hin
      obtain rfl := Option.some.inj (hn.symm.trans hi)
      exact hpast hacq
    · refine hall x (List.mem_iff_getElem?.mpr ⟨i, ?_⟩) hacq
      rw [List.getElem?_set_ne (Ne.symm hin)]
      exact hi

/-- The run at its attempts goes on, and may have asked once more. -/
theorem attempt (h : Budget retries k M g ps asked) (hn : ps[n]? = some q) (s' : RunState)
    (hacq : q.state.phase.IsAcquiring) (new : List (Except String Nat))
    (hpast : ¬ s'.phase.IsAcquiring →
      Concluded k M n (askedBy asked n ++ new) s'.phase ∧ g'.failuresLeft = k - (n + 1) * M)
    (hunderway : s'.phase.IsAcquiring →
      Underway q.profile k M n (askedBy asked n ++ new) g'.failuresLeft s'.phase) :
    Budget retries k M g' (ps.set n { q with state := s' }) (asked ++ new.map (Prod.mk n)) := by
  obtain ⟨hlast, -⟩ := h.underway n q hn hacq
  constructor
  case rules =>
    intro x hx
    rcases List.mem_or_eq_of_mem_set hx with hx | rfl
    · exact h.rules x hx
    · exact h.rules q (List.mem_of_getElem? hn)
  case fresh =>
    intro x hx
    rw [List.length_set]
    rcases List.mem_append.mp hx with hx | hx
    · exact h.fresh x hx
    · obtain ⟨_, -, rfl⟩ := List.mem_map.mp hx
      show n < ps.length
      omega
  case concluded =>
    intro i x hi hx
    rcases getElem?_set_cases hi with ⟨rfl, rfl⟩ | ⟨hne, hi⟩
    · rw [askedBy_append_self]
      exact (hpast hx).1
    · rw [askedBy_append_of_ne asked hne]
      exact h.concluded i x hi hx
  case underway =>
    intro i x hi hx
    rcases getElem?_set_cases hi with ⟨rfl, rfl⟩ | ⟨hne, hi⟩
    · rw [List.length_set, askedBy_append_self]
      exact ⟨hlast, hunderway hx⟩
    · obtain ⟨hlast', -⟩ := h.underway i x hi hx
      omega
  case left =>
    intro hall
    rw [List.length_set, ← hlast]
    refine (hpast (hall { q with state := s' } ?_)).2
    obtain ⟨hlt, -⟩ := List.getElem?_eq_some_iff.mp hn
    exact List.mem_iff_getElem?.mpr ⟨n, List.getElem?_set_self hlt⟩

/-- Another run starts when all others have ended. -/
theorem start (h : Budget retries k M g ps asked) (hM : 0 < M)
    (hended : ∀ x ∈ ps, x.state.phase.result?.isSome) {p : Profile} (hp : p.retries = retries) :
    Budget retries k M g (ps ++ [⟨p, ⟨.creating 1, 0, 0⟩⟩]) asked := by
  have hpast : ∀ x ∈ ps, ¬ x.state.phase.IsAcquiring := by
    intro x hx hacq
    have hsome := hended x hx
    cases hphase : x.state.phase with
    | stopped =>
      rw [hphase] at hacq
      exact hacq
    | _ =>
      rw [hphase] at hsome
      cases hsome
  constructor
  case rules =>
    intro x hx
    rcases List.mem_append.mp hx with hx | hx
    · exact h.rules x hx
    · rw [List.mem_singleton.mp hx]
      exact hp
  case fresh =>
    intro x hx
    have hlt := h.fresh x hx
    rw [List.length_append, List.length_singleton]
    omega
  case concluded =>
    intro i x hi hx
    rcases getElem?_concat_cases hi with hi | ⟨-, rfl⟩
    · exact h.concluded i x hi hx
    · exact absurd trivial hx
  case underway =>
    intro i x hi hx
    rcases getElem?_concat_cases hi with hi | ⟨rfl, rfl⟩
    · exact absurd hx (hpast x (List.mem_of_getElem? hi))
    · rw [List.length_append, List.length_singleton]
      refine ⟨rfl, 0, ⟨rfl, p.one_le_maxAttempts⟩, hM, Nat.zero_le _, ?_, ?_⟩
      · rw [askedBy_eq_nil h.fresh]
        rfl
      · rw [h.left hpast, Nat.sub_zero]
  case left =>
    intro hall
    exact absurd trivial (hall ⟨p, ⟨.creating 1, 0, 0⟩⟩ (by simp))

/-- A run asks for a consumer while there are failures left. -/
theorem refuse (h : Budget retries k M g ps asked)
    (hM : M = min (retries.toNat + 1) (UInt32.size - 1)) (hn : ps[n]? = some q) {attempt : UInt32}
    (hphase : q.state.phase = .creating attempt) (now : Nat) (hleft : 0 < g.failuresLeft)
    (hleft' : g'.failuresLeft = g.failuresLeft - 1) :
    Budget retries k M g' (ps.set n (q.onto
      (Phase.afterCreate q.profile now attempt (.error Broker.unavailableError)).phase))
      (asked ++ [(n, unavailable)]) := by
  have hacq : q.state.phase.IsAcquiring := by
    rw [hphase]
    trivial
  obtain ⟨-, failed, hattempted, hfew, hspent, hmine, hrest⟩ := h.underway n q hn hacq
  rw [hphase] at hattempted
  have hmax : q.profile.maxAttempts.toNat = M := by
    rw [Profile.maxAttempts_toNat, h.rules q (List.mem_of_getElem? hn), hM]
  have hnext : (n + 1) * M = n * M + M := Nat.succ_mul n M
  have hmine' : askedBy asked n ++ [unavailable] = List.replicate (failed + 1) unavailable := by
    rw [hmine, List.replicate_succ']
  refine h.attempt hn _ hacq [unavailable] (fun hpast => ?_) fun hacq' => ?_
  · -- This was the last attempt that it may make.
    have hover : q.profile.maxAttempts ≤ attempt := by
      by_contra hmore
      rw [Phase.afterCreate, if_neg hmore] at hpast
      exact hpast trivial
    have hall : failed + 1 = M := by
      have hle := UInt32.le_iff_toNat_le.mp hover
      rw [hattempted.1, hmax] at hle
      omega
    refine ⟨⟨fun _ => ⟨by rw [hmine', hall], attempt, hattempted.1.trans hall, ?_⟩,
      fun hle hlt => by omega, fun hlt => by omega, fun hlt => by omega⟩, by omega⟩
    rw [Phase.afterCreate, if_pos hover]
  · have hattempted' : (Phase.afterCreate q.profile now attempt (.error Broker.unavailableError) :
        Turn Delivery).phase.Attempted q.profile (failed + 1) :=
          Phase.attempted_afterCreate hattempted _
    refine ⟨failed + 1, hattempted', ?_, by omega, hmine', by omega⟩
    by_contra hover
    have hle : q.profile.maxAttempts ≤ attempt := by
      rw [UInt32.le_iff_toNat_le, hattempted.1, hmax]
      exact Nat.le_of_not_lt hover
    rw [Phase.afterCreate, if_pos hle] at hacq'
    exact hacq'

/-- A run asks for a consumer when there are no failures left. -/
theorem create (h : Budget retries k M g ps asked) (hn : ps[n]? = some q) {attempt : UInt32}
    (hphase : q.state.phase = .creating attempt) (hleft : g.failuresLeft = 0)
    (hleft' : g'.failuresLeft = 0) (c : Nat) :
    Budget retries k M g' (ps.set n { q with
      state := { q.state with phase := .consuming, consumer := c } }) (asked ++ [(n, .ok c)]) := by
  have hacq : q.state.phase.IsAcquiring := by
    rw [hphase]
    trivial
  obtain ⟨-, failed, -, hfew, hspent, hmine, hrest⟩ := h.underway n q hn hacq
  have hnext : (n + 1) * M = n * M + M := Nat.succ_mul n M
  -- It has had all failures that were left to it.
  have hshare : failed = k - n * M := by omega
  refine h.attempt hn _ hacq [.ok c] (fun _ => ?_) fun hacq' => hacq'.elim
  rw [hmine]
  refine ⟨⟨fun hle => by omega, fun hle hlt => ⟨c, ?_⟩, fun hlt => ⟨c, ?_⟩, fun _ m cause => nofun⟩,
    by omega⟩
  · have hmod : k % M = failed := by
      obtain ⟨rest, rfl⟩ := Nat.exists_eq_add_of_le hle
      rw [Nat.mul_add_mod_self_right, Nat.mod_eq_of_lt] <;> omega
    rw [hmod]
  · have hnone : failed = 0 := by omega
    rw [hnone]
    rfl

/-- A run waits to try again. -/
theorem wait (h : Budget retries k M g ps asked) (hn : ps[n]? = some q) {attempt : UInt32}
    {deadline now : Nat} (hphase : q.state.phase = .retrying attempt deadline)
    (hover : deadline ≤ now) :
    Budget retries k M g
      (ps.set n (q.onto (Phase.afterWait now attempt deadline false : Turn Delivery).phase))
      asked := by
  have hacq : q.state.phase.IsAcquiring := by
    rw [hphase]
    trivial
  obtain ⟨-, failed, hattempted, hfew, hspent, hmine, hrest⟩ := h.underway n q hn hacq
  rw [hphase] at hattempted
  have hattempted' : (Phase.afterWait now attempt deadline false : Turn Delivery).phase.Attempted
      q.profile failed := Phase.attempted_afterWait hattempted false
  have hacq' : (Phase.afterWait now attempt deadline false : Turn Delivery).phase.IsAcquiring := by
    rw [Phase.afterWait, if_neg Bool.false_ne_true, if_pos hover]
    trivial
  rw [← List.append_nil asked]
  refine h.attempt hn _ hacq [] (fun hpast => absurd hacq' hpast) fun _ => ?_
  rw [List.append_nil]
  exact ⟨failed, hattempted', hfew, hspent, hmine, hrest⟩

/-- Each event takes the runs on with what is left of the budget. -/
theorem registerStep (h : Budget retries k M g ps asked)
    (hM : M = min (retries.toNat + 1) (UInt32.size - 1)) {seen : Nat → Bool} {e : Worker.Event}
    {ps' : List ProfiledRun} {new : List (Nat × Except String Nat)}
    (hregisterStep : RegisterStep seen e g ps g' ps' new) (hfail : ∀ count, e ≠ .failAttempts count)
    (hstart : ∀ p processor signal, e = .start p processor signal → p.retries = retries ∧
      ∀ x ∈ ps, x.state.phase.result?.isSome)
    (hunstopped : ∀ n q attempt deadline, e = .run n → ps[n]? = some q →
      q.state.phase = .retrying attempt deadline → seen n = false) :
    Budget retries k M g' ps' (asked ++ new) := by
  cases hregisterStep with
  | rest => rwa [List.append_nil]
  | @fail count he => exact absurd he (hfail count)
  | @start p processor signal he =>
    obtain ⟨hp, hended⟩ := hstart p processor signal he
    rw [List.append_nil]
    refine h.start ?_ hended hp
    rw [hM]
    exact Nat.lt_min.mpr ⟨Nat.succ_pos _, by decide⟩
  | @refuse n now q attempt _ hn hphase hleft => exact h.refuse hM hn hphase now hleft rfl
  | create _ hn hphase hleft =>
    refine h.create hn hphase hleft ?_ g.consumerLanes.length
    exact hleft
  | @wait n now q attempt deadline he hn hphase hover =>
    have hfalse := hunstopped n q attempt deadline he hn hphase
    rw [hfalse] at hover
    rw [List.append_nil, hfalse]
    exact h.wait hn hphase (hover.resolve_left Bool.false_ne_true)
  | @begin n q limit _ hn hphase _ =>
    rw [List.append_nil]
    exact h.moveOn hn rfl (by rw [hphase]; exact id) (by rw [hphase]; rfl) id
      fun _ m cause => nofun
  | @turnAway n q _ hn hphase _ =>
    rw [List.append_nil]
    exact h.moveOn hn rfl (by rw [hphase]; exact id) (by rw [hphase]; rfl) id
      fun _ m cause houtcome => nomatch Option.some.inj houtcome
  | @work n now q a turn hn hphase hstepsTo _ =>
    obtain ⟨hhasLane, hacquired⟩ := Phase.acquired_of_handling hphase hstepsTo
    have hbefore := Phase.hasLane_of_isHandling hphase
    have hactive : q.state.phase.result? = none := by
      cases hq : q.state.phase <;> rw [hq] at hphase <;> first | rfl | exact hphase.elim
    rw [List.append_nil]
    exact h.moveOn hn rfl (Phase.not_isAcquiring_of_hasLane hbefore) hactive
      (Phase.not_isAcquiring_of_hasLane hhasLane) fun _ => hacquired
  | @release n q result _ hn hphase =>
    rw [List.append_nil]
    refine h.moveOn hn rfl (by rw [hphase]; exact id) (by rw [hphase]; rfl) id fun hbefore => ?_
    rw [hphase] at hbefore
    exact hbefore
  | @close n q result _ hn hphase =>
    rw [List.append_nil]
    refine h.moveOn hn rfl (by rw [hphase]; exact id) (by rw [hphase]; rfl) id fun hbefore => ?_
    rw [hphase] at hbefore
    exact hbefore

end Budget

/-! ## The counters of the factory -/

/-- What the factory has counted, when all but its first `k` requests were granted. -/
structure Counted (k : Nat) (g : Register) (ps : List ProfiledRun)
    (asked : List (Nat × Except String Nat)) :
    Prop where
  /-- Every request counts. -/
  attempts : g.stats.createAttempts = asked.length
  /-- Those that did not fail led to a consumer. -/
  created : g.stats.createAttempts = g.stats.created + min k g.stats.createAttempts
  left : g.failuresLeft = k - g.stats.createAttempts
  /-- The consumers that are not closed are those of runs that are in progress. -/
  consumers : g.stats.created = g.stats.closed + ps.countP fun q => q.state.phase.hasConsumer

namespace Counted

variable {k n : Nat} {g g' : Register} {ps : List ProfiledRun} {q : ProfiledRun}
  {asked : List (Nat × Except String Nat)}

/-- A run goes on, and may close its consumer. -/
theorem moveOn (h : Counted k g ps asked) (hn : ps[n]? = some q) {s' : RunState}
    (hstats : g'.stats = { g.stats with closed := g'.stats.closed })
    (hleft : g'.failuresLeft = g.failuresLeft)
    (hclosed : g'.stats.closed + s'.phase.hasConsumer.toNat =
      g.stats.closed + q.state.phase.hasConsumer.toNat) :
    Counted k g' (ps.set n { q with state := s' }) asked := by
  have hset := countP_set hn (fun x => x.state.phase.hasConsumer) { q with state := s' }
  have hattempts : g'.stats.createAttempts = g.stats.createAttempts := by rw [hstats]
  have hcreated : g'.stats.created = g.stats.created := by rw [hstats]
  have hhave := h.consumers
  refine ⟨hattempts.trans h.attempts, ?_, ?_, ?_⟩
  · rw [hattempts, hcreated]
    exact h.created
  · rw [hattempts, hleft]
    exact h.left
  · rw [hcreated]
    simp only at hset
    omega

/-- Each event is counted. -/
theorem registerStep (h : Counted k g ps asked) {seen : Nat → Bool} {e : Worker.Event}
    {ps' : List ProfiledRun} {new : List (Nat × Except String Nat)}
    (hregisterStep : RegisterStep seen e g ps g' ps' new)
    (hfail : ∀ count, e ≠ .failAttempts count) : Counted k g' ps' (asked ++ new) := by
  have ⟨hattempts, hcreated, hleft, hhave⟩ := h
  cases hregisterStep with
  | rest => rwa [List.append_nil]
  | @fail count he => exact absurd he (hfail count)
  | start _ =>
    rw [List.append_nil]
    refine ⟨hattempts, hcreated, hleft, ?_⟩
    rw [List.countP_append]
    exact hhave
  | @refuse n now q attempt _ hn hphase hmore =>
    have hnot : (Phase.afterCreate q.profile now attempt
        (.error Broker.unavailableError) : Turn Delivery).phase.hasConsumer = false := by
      rw [Phase.afterCreate]
      split <;> rfl
    have hset :=
      countP_set hn (fun x => x.state.phase.hasConsumer) (q.onto (Phase.afterCreate q.profile now
      attempt (.error Broker.unavailableError)).phase)
    change _ + q.state.phase.hasConsumer.toNat = _ + (Phase.hasConsumer (Turn.phase _)).toNat
      at hset
    rw [hnot, hphase] at hset
    refine ⟨?_, ?_, ?_, ?_⟩
    · rw [List.length_append]
      exact congrArg (· + 1) hattempts
    · show g.stats.createAttempts + 1 = g.stats.created + min k (g.stats.createAttempts + 1)
      omega
    · show g.failuresLeft - 1 = k - (g.stats.createAttempts + 1)
      omega
    · exact hhave.trans (congrArg (_ + ·) hset.symm)
  | @create n q attempt _ hn hphase hnone =>
    have hset := countP_set hn (fun x => x.state.phase.hasConsumer)
      { q with state := { q.state with phase := .consuming, consumer := g.consumerLanes.length } }
    change _ + q.state.phase.hasConsumer.toNat = _ + (Phase.hasConsumer .consuming).toNat at hset
    rw [hphase] at hset
    refine ⟨?_, ?_, ?_, ?_⟩
    · rw [List.length_append]
      exact congrArg (· + 1) hattempts
    · show g.stats.createAttempts + 1 = g.stats.created + 1 + min k (g.stats.createAttempts + 1)
      omega
    · show g.failuresLeft = k - (g.stats.createAttempts + 1)
      omega
    · show g.stats.created + 1 = _
      exact (congrArg (· + 1) hhave).trans (congrArg (_ + ·) hset.symm)
  | @wait n now q attempt deadline _ hn hphase _ =>
    have hnot : (Phase.afterWait now attempt deadline (seen n) : Turn Delivery).phase.hasConsumer =
        false := by
      rw [Phase.afterWait]
      split
      · rfl
      · split <;> rfl
    rw [List.append_nil]
    refine h.moveOn hn rfl rfl ?_
    rw [hnot, hphase]
    rfl
  | begin _ hn hphase _ =>
    rw [List.append_nil]
    refine h.moveOn hn rfl rfl ?_
    rw [hphase]
    rfl
  | turnAway _ hn hphase _ =>
    rw [List.append_nil]
    refine h.moveOn hn rfl rfl ?_
    rw [hphase]
    rfl
  | work hn hphase hstepsTo _ =>
    have hbefore := Phase.hasConsumer_of_hasLane (Phase.hasLane_of_isHandling hphase)
    have hafter := Phase.hasConsumer_of_hasLane (Phase.acquired_of_handling hphase hstepsTo).1
    rw [List.append_nil]
    refine h.moveOn hn rfl rfl ?_
    rw [hbefore, hafter]
  | release _ hn hphase =>
    rw [List.append_nil]
    refine h.moveOn hn rfl rfl ?_
    rw [hphase]
    rfl
  | close _ hn hphase =>
    rw [List.append_nil]
    refine h.moveOn hn rfl rfl ?_
    rw [hphase]
    rfl

/-- When all runs have ended, all consumers are closed. -/
theorem closed_eq (h : Counted k g ps asked) (hended : ∀ q ∈ ps, q.state.phase.result?.isSome) :
    g.stats.closed = g.stats.created := by
  have hnone : (ps.countP fun q => q.state.phase.hasConsumer) = 0 := by
    refine List.countP_eq_zero.mpr fun q hq => ?_
    have hsome := hended q hq
    cases hphase : q.state.phase with
    | stopped => exact Bool.false_ne_true
    | _ =>
      rw [hphase] at hsome
      cases hsome
  have hhave := h.consumers
  omega

end Counted

end Courier
