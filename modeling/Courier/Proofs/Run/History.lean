import Courier.Proofs.Lists
import Courier.Run
import Mathlib.Data.List.Infix

/-!
# Histories of a run

A run is carried by a list of answers. `Run.follow` carries a run on from any state, so that a
history can be cut anywhere (`replay_append`), and what one answer preserves a whole history
preserves (`follow_induction`). `Run.requests` lists what a run has asked for along a history.

`Phase.IsAcquiring` holds of the phases before a run has a consumer; there is no way back to them.
`attempted_replay` counts attempts: the number that a run keeps is the number of answers to its
requests for a consumer, and it stays within the limit, so it never overflows.
-/

namespace Courier

variable {μ : Type}

namespace Answer

/-- Whether an answer is about a consumer that was asked for. -/
def isCreate : Answer μ → Bool
  | .create _ => true
  | _ => false

/-- What an answer says about the stop signal, if it says anything. -/
def sample? : Answer μ → Option Bool
  | .wait stop => some stop
  | .poll view => some view.stop
  | _ => none

end Answer

/-- How many consumers were asked for and not left unanswered in a history. -/
def attemptsIn (history : List (Stamped μ)) : Nat := history.countP fun a => a.answer.isCreate

namespace Run

variable [Identified μ]

/-- The run after further answers, if each answers the request made. -/
def follow (p : Profile) (r : Run μ) (history : List (Stamped μ)) : Option (Run μ) :=
  history.foldlM (step p) r

@[simp] theorem follow_nil (p : Profile) (r : Run μ) : follow p r [] = some r := rfl

@[simp] theorem follow_cons (p : Profile) (r : Run μ) (a : Stamped μ) (history : List (Stamped μ)) :
    follow p r (a :: history) = (r.step p a).bind fun r => follow p r history := rfl

/-- A history can be cut in two. -/
theorem follow_append (p : Profile) (r : Run μ) (h₁ h₂ : List (Stamped μ)) :
    follow p r (h₁ ++ h₂) = (follow p r h₁).bind fun r => follow p r h₂ := by
  simp only [follow, List.foldlM_append]
  rfl

theorem replay_append (p : Profile) (h₁ h₂ : List (Stamped μ)) :
    replay p (h₁ ++ h₂) = (replay p h₁).bind fun r => follow p r h₂ :=
  follow_append p (start p) h₁ h₂

/-- One more answer takes one more step. -/
theorem replay_concat (p : Profile) (h : List (Stamped μ)) (a : Stamped μ) :
    replay p (h ++ [a]) = (replay p h).bind fun r => r.step p a := by
  rw [replay_append]
  congr 1
  funext r
  exact Option.bind_fun_some _

/-- A run steps as its phase does. -/
theorem step_eq_some_iff {p : Profile} {r r' : Run μ} {a : Stamped μ} :
    r.step p a = some r' ↔ ∃ turn, r.phase.step p a.now a.answer = some turn ∧ r.take turn = r' :=
  Option.map_eq_some_iff

/-- What each answer of a history preserves, the history preserves. -/
theorem follow_induction {p : Profile} {P : Run μ → Prop} {r r' : Run μ}
    {history : List (Stamped μ)} (h : follow p r history = some r') (base : P r)
    (next : ∀ a ∈ history, ∀ s s', P s → s.step p a = some s' → P s') : P r' :=
  foldlM_induction h base next

/-- A run that has ended takes no more answers. -/
theorem follow_of_stopped {p : Profile} {r r' : Run μ} {history : List (Stamped μ)}
    {result : RunResult} (hend : r.phase = .stopped result) (h : follow p r history = some r') :
    history = [] ∧ r' = r := by
  cases history with
  | nil => exact ⟨rfl, (Option.some.inj h).symm⟩
  | cons a history =>
    obtain ⟨s, hs, _⟩ := Option.bind_eq_some_iff.mp h
    obtain ⟨turn, hturn, _⟩ := step_eq_some_iff.mp hs
    rw [hend] at hturn
    exact absurd hturn (by simp [Phase.step])

/-- What a run has asked for along a history; the last request may still wait for its answer. -/
def requests (p : Profile) (history : List (Stamped μ)) : List (Request μ) :=
  history.inits.filterMap fun h => (replay p h).bind fun r => r.phase.request p

theorem mem_requests {p : Profile} {history : List (Stamped μ)} {q : Request μ} :
    q ∈ requests p history ↔
      ∃ h, h <+: history ∧ ∃ r, replay p h = some r ∧ r.phase.request p = some q := by
  simp only [requests, List.mem_filterMap, List.mem_inits, Option.bind_eq_some_iff]

end Run

/-! ## The outcome of a run -/

/-- The result that a run has ended with or is about to end with. -/
def Phase.outcome? : Phase μ → Option RunResult
  | .releasing result | .closing result | .stopped result => some result
  | _ => none

/-- A run that is about to end does so with the same result. -/
theorem Phase.outcome?_of_step [Identified μ] {p : Profile} {now : Nat} {phase : Phase μ}
    {a : Answer μ} {turn : Turn μ} {result : RunResult} (h : phase.step p now a = some turn)
    (hresult : phase.outcome? = some result) : turn.phase.outcome? = some result := by
  unfold step at h
  split at h <;> cases h
  case h_9 | h_10 => exact hresult
  all_goals exact absurd hresult (by simp [outcome?])

/-- A run that was about to end with a result has ended with it, if it has ended. -/
theorem Run.result_of_outcome? [Identified μ] {p : Profile} {r r' : Run μ}
    {history : List (Stamped μ)} {result result' : RunResult} (h : follow p r history = some r')
    (houtcome : r.phase.outcome? = some result') (hresult : r'.phase.result? = some result) :
    result = result' := by
  have houtcome' : r'.phase.outcome? = some result' :=
    follow_induction (P := fun r => r.phase.outcome? = some result') h houtcome
      fun a _ s s' hs hstep => by
        obtain ⟨turn, hturn, rfl⟩ := step_eq_some_iff.mp hstep
        exact Phase.outcome?_of_step hturn hs
  cases hphase : r'.phase <;> simp_all [Phase.result?, Phase.outcome?]

/-! ## The phases of acquisition -/

namespace Profile

/-- The limit of attempts is one more than the retries, as far as there is a number for it. -/
theorem maxAttempts_toNat (p : Profile) :
    p.maxAttempts.toNat = min (p.retries.toNat + 1) (UInt32.size - 1) := by
  have hsize : UInt32.size = 2 ^ 32 := rfl
  have hlt : p.retries.toNat < UInt32.size := p.retries.toNat_lt
  rw [maxAttempts]
  split
  · next h =>
    rw [h]
    decide
  · next h =>
    have hne : p.retries.toNat ≠ UInt32.size - 1 :=
      fun hn => h (UInt32.toNat_inj.mp (by rw [hn]; rfl))
    rw [UInt32.toNat_add]
    have hone : (1 : UInt32).toNat = 1 := rfl
    omega

/-- There is a number for the attempt after one that is not the last. -/
theorem toNat_add_one (p : Profile) {attempt : UInt32}
    (h : attempt.toNat < p.maxAttempts.toNat) : (attempt + 1).toNat = attempt.toNat + 1 := by
  have hmax := p.maxAttempts.toNat_lt
  have hone : (1 : UInt32).toNat = 1 := rfl
  rw [UInt32.toNat_add]
  omega

theorem one_le_maxAttempts (p : Profile) : 1 ≤ p.maxAttempts.toNat := by
  rw [maxAttempts_toNat]
  exact Nat.le_min.mpr ⟨Nat.le_add_left .., by decide⟩

end Profile

namespace Phase

/-- Whether a run has not got a consumer yet. -/
def IsAcquiring : Phase μ → Prop
  | .creating _ | .retrying _ _ => True
  | _ => False

/-- How many attempts a run that has not got a consumer yet has had an answer to. -/
def Attempted (p : Profile) (n : Nat) : Phase μ → Prop
  | .creating attempt => attempt.toNat = n + 1 ∧ n + 1 ≤ p.maxAttempts.toNat
  | .retrying attempt _ => attempt.toNat = n ∧ n < p.maxAttempts.toNat
  | _ => True

/-- An attempt is the last one if there have been as many as are allowed. -/
theorem attempted_afterCreate {p : Profile} {now : Nat} {attempt : UInt32} {n : Nat}
    (h : (creating attempt : Phase μ).Attempted p n) (result : Except String Unit) :
    (afterCreate p now attempt result : Turn μ).phase.Attempted p (n + 1) := by
  obtain ⟨hcount, hlimit⟩ := h
  cases result with
  | ok => trivial
  | error cause =>
    simp only [afterCreate]
    split
    · trivial
    · next hlt =>
      rw [UInt32.le_iff_toNat_le, hcount] at hlt
      exact ⟨hcount, by omega⟩

/-- The wait for the next attempt leaves the number of attempts as it is. -/
theorem attempted_afterWait {p : Profile} {now : Nat} {attempt : UInt32} {deadline n : Nat}
    (h : (retrying attempt deadline : Phase μ).Attempted p n) (stop : Bool) :
    (afterWait now attempt deadline stop : Turn μ).phase.Attempted p n := by
  obtain ⟨hcount, hlimit⟩ := h
  have hnext : (attempt + 1).toNat = n + 1 := by
    rw [p.toNat_add_one (by omega), hcount]
  simp only [afterWait]
  split
  · trivial
  · split
    · exact ⟨hnext, hlimit⟩
    · exact ⟨hcount, hlimit⟩

variable [Identified μ]

/-- A run that has got past acquisition does not come back to it. -/
theorem isAcquiring_of_step {p : Profile} {now : Nat} {phase : Phase μ} {a : Answer μ}
    {turn : Turn μ} (h : phase.step p now a = some turn) (hnext : turn.phase.IsAcquiring) :
    phase.IsAcquiring := by
  unfold step at h
  split at h <;> cases h
  case h_1 | h_2 => trivial
  case h_5 errorsOpen view =>
    rcases hpick : view.pick errorsOpen with _ | choice
    · simp [hpick, afterPoll, IsAcquiring] at hnext
    · cases choice <;> simp [hpick, afterPoll, IsAcquiring] at hnext
  case h_6 result => cases result <;> simp [afterProcess, IsAcquiring] at hnext
  case h_7 result => cases result <;> simp [afterAccepting, IsAcquiring] at hnext
  case h_8 result =>
    cases hflow : p.strategy.flow <;> cases result <;>
      simp [afterFailing, hflow, IsAcquiring] at hnext
  all_goals simp [IsAcquiring] at hnext

/-- Every answer to a request for a consumer is an attempt, and nothing else is. -/
theorem attempted_of_step {p : Profile} {now n : Nat} {phase : Phase μ} {a : Answer μ}
    {turn : Turn μ} (h : phase.step p now a = some turn) (hn : phase.Attempted p n)
    (hnext : turn.phase.IsAcquiring) :
    turn.phase.Attempted p (n + if a.isCreate then 1 else 0) := by
  have hacq := isAcquiring_of_step h hnext
  unfold step at h
  split at h <;> cases h
  case h_1 result => exact attempted_afterCreate hn result
  case h_2 stop => exact attempted_afterWait hn stop
  all_goals exact absurd hacq (by simp [IsAcquiring])

/-- Only a run that makes an attempt can have an answer to it. -/
theorem creating_of_create {p : Profile} {now : Nat} {phase : Phase μ}
    {created : Except String Unit} {turn : Turn μ}
    (h : phase.step p now (.create created) = some turn) :
    ∃ attempt, phase = .creating attempt ∧ turn = afterCreate p now attempt created := by
  cases phase with
  | creating attempt => exact ⟨attempt, rfl, (Option.some.inj h).symm⟩
  | settling errorsOpen m failure => cases failure <;> simp [step] at h
  | _ => simp [step] at h

end Phase

/-- A run that has no consumer has not had one. -/
theorem Run.isAcquiring_of_follow [Identified μ] {p : Profile} {r r' : Run μ}
    {history : List (Stamped μ)} (h : Run.follow p r history = some r')
    (hacq : r'.phase.IsAcquiring) : r.phase.IsAcquiring := by
  by_contra hnot
  refine follow_induction (P := fun r => ¬ r.phase.IsAcquiring) h hnot ?_ hacq
  intro a _ s s' hs hstep hs'
  obtain ⟨turn, hturn, rfl⟩ := step_eq_some_iff.mp hstep
  exact hs (Phase.isAcquiring_of_step hturn hs')

/-- While a run has no consumer, it knows how many attempts it has made, and may make another
one. -/
theorem Run.attempted_replay [Identified μ] {p : Profile} {history : List (Stamped μ)} {r : Run μ}
    (h : Run.replay p history = some r) (hacq : r.phase.IsAcquiring) :
    r.phase.Attempted p (attemptsIn history) := by
  induction history using List.reverseRecOn generalizing r with
  | nil =>
    obtain rfl := Option.some.inj h
    exact ⟨rfl, p.one_le_maxAttempts⟩
  | append_singleton history a ih =>
    rw [Run.replay_concat] at h
    obtain ⟨s, hs, hstep⟩ := Option.bind_eq_some_iff.mp h
    obtain ⟨turn, hturn, rfl⟩ := Run.step_eq_some_iff.mp hstep
    have hcount : attemptsIn (history ++ [a])
        = attemptsIn history + if a.answer.isCreate then 1 else 0 := by
      simp [attemptsIn, List.countP_append, List.countP_cons]
    rw [hcount]
    exact Phase.attempted_of_step hturn (ih hs (Phase.isAcquiring_of_step hturn hacq)) hacq

end Courier
