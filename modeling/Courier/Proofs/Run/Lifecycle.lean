import Courier.Proofs.Run.History
import Courier.Worker.Basic
import Mathlib.Algebra.GroupWithZero.Nat

/-!
# The life of a consumer

Runs of a component follow one another, and every one of them may create a consumer. Each answer
stands for the call that it answers. The consumers are numbered in the order in which they are
created, and a call is about the consumer that was created last (`number`): a run knows of no other.

The calls about one consumer are its life, which is complete if it was asked to start, its messages
were handled if it did, its streams were let go of, and it was closed (`FullLife`). The phase of a
run says how far the life of its consumer has come (`Phase.Lifespan`). `lives_of_consumers` says
that each consumer leads one full life, within the run that created it.
-/

namespace Courier

variable {μ : Type}

namespace Answer

/-- The result of an attempt to create a consumer. -/
def created? : Answer μ → Option (Except String Unit)
  | .create result => some result
  | _ => none

/-- Whether a consumer was created. -/
def isSuccess : Answer μ → Bool
  | .create (.ok ()) => true
  | _ => false

/-- Whether the call that is answered is about a consumer that there is: to start it, to take
something from its streams, to process or settle one of its messages, to let go of its streams, or
to close it. -/
def concernsConsumer : Answer μ → Bool
  | .create _ | .wait _ => false
  | _ => true

/-- Whether the call that is answered is about the streams of a consumer or one of its messages. -/
def isHandling : Answer μ → Bool
  | .poll _ | .process _ | .settle _ => true
  | _ => false

end Answer

/-! ## The calls of a run -/

/-- Calls in order, each with the number of the consumer that was created last; `n` were before. -/
def number : Nat → List (Answer μ) → List (Nat × Answer μ)
  | _, [] => []
  | n, a :: calls => (n + a.isSuccess.toNat, a) :: number (n + a.isSuccess.toNat) calls

/-- How many consumers were created in a history. -/
def consumersIn (history : List (Stamped μ)) : Nat := history.countP fun a => a.answer.isSuccess

/-- The calls of runs that follow one another, numbered through. -/
def numberRuns : Nat → List (List (Stamped μ)) → List (List (Nat × Answer μ))
  | _, [] => []
  | n, history :: histories =>
    number n (history.map Stamped.answer) :: numberRuns (n + consumersIn history) histories

/-- The calls about one consumer. -/
def lifeOf (n : Nat) (calls : List (Nat × Answer μ)) : List (Answer μ) :=
  (calls.filter fun c => c.1 = n && c.2.concernsConsumer).map Prod.snd

/-- The results of the attempts to create a consumer, in order. -/
def attempts (calls : List (Nat × Answer μ)) : List (Except String Unit) :=
  calls.filterMap fun c => c.2.created?

/-- Whether no attempt was successful. -/
def AllFailed (results : List (Except String Unit)) : Prop :=
  ∃ causes : List String, results = causes.map .error

/-- Whether the last attempt was successful, and no other one. -/
def LastSucceeded (results : List (Except String Unit)) : Prop :=
  ∃ causes : List String, results = causes.map .error ++ [.ok ()]

/-- Whether a consumer was asked to start, and closed at last. If it has started, its messages were
handled in between, and then its streams were let go of. -/
def FullLife (life : List (Answer μ)) : Prop :=
  (∃ cause closed, life = [.consume (.error cause), .close closed]) ∨
    ∃ handling closed, life = .consume (.ok ()) :: handling ++ [.release, .close closed] ∧
      ∀ a ∈ handling, a.isHandling

/-- Whether the calls about consumers are those about the `n`-th one, which have come to `life`. -/
def Lives (n : Nat) (life : List (Answer μ)) (calls : List (Nat × Answer μ)) : Prop :=
  ∀ i, lifeOf i calls = if i = n then life else []

theorem number_append (n : Nat) (xs ys : List (Answer μ)) :
    number n (xs ++ ys) = number n xs ++ number (n + xs.countP Answer.isSuccess) ys := by
  induction xs generalizing n with
  | nil => rfl
  | cons a xs ih =>
    have hcount : n + (a :: xs).countP Answer.isSuccess =
        n + a.isSuccess.toNat + xs.countP Answer.isSuccess := by
      rw [List.countP_cons, Nat.add_assoc, Nat.add_comm (xs.countP _)]
      cases a.isSuccess <;> rfl
    rw [List.cons_append, number, number, ih, hcount, List.cons_append]

/-- One more call. -/
theorem number_concat (n : Nat) (xs : List (Answer μ)) (a : Answer μ) :
    number n (xs ++ [a]) =
      number n xs ++ [(n + xs.countP Answer.isSuccess + a.isSuccess.toNat, a)] :=
  number_append n xs [a]

theorem attempts_concat (calls : List (Nat × Answer μ)) (n : Nat) (a : Answer μ) :
    attempts (calls ++ [(n, a)]) = attempts calls ++ a.created?.toList := by
  rw [attempts, List.filterMap_append, attempts]
  cases h : a.created? <;> simp [h]

/-- How many consumers were created shows in the results of the attempts. -/
theorem countP_isSuccess (n : Nat) (xs : List (Answer μ)) :
    xs.countP Answer.isSuccess = (attempts (number n xs)).countP Except.isOk := by
  induction xs generalizing n with
  | nil => rfl
  | cons a xs ih =>
    have hhead : attempts (number n (a :: xs)) =
        a.created?.toList ++ attempts (number (n + a.isSuccess.toNat) xs) := by
      rw [number, attempts, List.filterMap_cons]
      cases a.created? <;> rfl
    rw [hhead, List.countP_append, List.countP_cons, ih (n + a.isSuccess.toNat), Nat.add_comm]
    congr 1
    cases a with
    | create result => cases result <;> rfl
    | _ => rfl

theorem AllFailed.countP_isOk {results : List (Except String Unit)} (h : AllFailed results) :
    results.countP Except.isOk = 0 := by
  obtain ⟨causes, rfl⟩ := h
  rw [List.countP_map, List.countP_eq_zero]
  intro cause _
  exact Bool.false_ne_true

theorem LastSucceeded.countP_isOk {results : List (Except String Unit)}
    (h : LastSucceeded results) :
    results.countP Except.isOk = 1 := by
  obtain ⟨causes, rfl⟩ := h
  rw [List.countP_append, AllFailed.countP_isOk ⟨causes, rfl⟩]
  rfl

namespace Lives

variable {n : Nat} {life : List (Answer μ)} {calls : List (Nat × Answer μ)} {a : Answer μ}

/-- A call that is about a consumer belongs to its life. -/
theorem concern (h : Lives n life calls) (ha : a.concernsConsumer) :
    Lives n (life ++ [a]) (calls ++ [(n, a)]) := by
  intro i
  rw [lifeOf, List.filter_append, List.map_append, ← lifeOf, h i]
  by_cases hi : i = n
  · simp [hi, ha]
  · simp [hi, Ne.symm hi]

/-- A call that is about no consumer leaves their lives as they are. -/
theorem pass (h : Lives n life calls) (ha : a.concernsConsumer = false) (m : Nat) :
    Lives n life (calls ++ [(m, a)]) := by
  intro i
  rw [lifeOf, List.filter_append, List.map_append, ← lifeOf, h i]
  simp [ha]

end Lives

/-! ## How far the life of a consumer has come -/

/-- Whether a run has created a consumer, the first one after `n` others, started it, and handled
messages since. -/
def Handles (n : Nat) (calls : List (Nat × Answer μ)) : Prop :=
  LastSucceeded (attempts calls) ∧ ∃ handling : List (Answer μ), (∀ a ∈ handling, a.isHandling) ∧
    Lives (n + 1) (.consume (.ok ()) :: handling) calls

/-- What a run that stands in a phase has done about its consumer, the first one after `n`
others. -/
def Phase.Lifespan (n : Nat) (calls : List (Nat × Answer μ)) : Phase μ → Prop
  | .creating _ | .retrying .. => AllFailed (attempts calls) ∧ Lives (n + 1) [] calls
  | .consuming => LastSucceeded (attempts calls) ∧ Lives (n + 1) [] calls
  | .polling _ | .processing .. | .settling .. | .releasing _ => Handles n calls
  | .closing _ =>
    LastSucceeded (attempts calls) ∧ ∃ life, (∀ closed, FullLife (life ++ [.close closed])) ∧
      Lives (n + 1) life calls
  | .stopped _ =>
    AllFailed (attempts calls) ∧ Lives (n + 1) [] calls ∨
      LastSucceeded (attempts calls) ∧ ∃ life, FullLife life ∧ Lives (n + 1) life calls

theorem Handles.handle {n : Nat} {calls : List (Nat × Answer μ)} (h : Handles n calls)
    {a : Answer μ} (ha : a.isHandling) : Handles n (calls ++ [(n + 1, a)]) := by
  obtain ⟨hattempts, handling, hhandling, hlives⟩ := h
  have hconcerns : a.concernsConsumer ∧ a.created? = none := by
    cases a with
    | poll | process | settle => exact ⟨rfl, rfl⟩
    | create | wait | consume | release | close => cases ha
  refine ⟨?_, handling ++ [a], ?_, hlives.concern hconcerns.1⟩
  · rw [attempts_concat, hconcerns.2]
    exact (List.append_nil _).symm ▸ hattempts
  · intro b hb
    rcases List.mem_append.mp hb with hb | hb
    · exact hhandling b hb
    · rw [List.mem_singleton.mp hb]
      exact ha

namespace Phase

variable [Identified μ] {p : Profile} {n : Nat} {calls : List (Nat × Answer μ)}

/-- The number of a call that is made in a phase: `n` before there is a consumer, and one more
then. -/
theorem lifespan_concat {phase : Phase μ} {now : Nat} {a : Answer μ} {turn : Turn μ}
    (h : phase.step p now a = some turn) (hlife : phase.Lifespan n calls) :
    turn.phase.Lifespan n
      (calls ++ [(n + (attempts calls).countP Except.isOk + a.isSuccess.toNat, a)]) := by
  unfold step at h
  split at h <;> cases h
  case h_1 attempt result =>
    obtain ⟨hattempts, hlives⟩ := hlife
    have hpass := hlives.pass (a := .create result) rfl
    obtain ⟨causes, hcauses⟩ := hattempts
    have hattempts' (m : Nat) : attempts (calls ++ [(m, .create result)]) =
        causes.map .error ++ [result] := by
      rw [attempts_concat, hcauses]
      rfl
    cases result with
    | ok => exact ⟨⟨causes, hattempts' _⟩, hpass _⟩
    | error cause =>
      have hfailed (m : Nat) : AllFailed (attempts (calls ++ [(m, .create (.error cause))])) :=
        ⟨causes ++ [cause], by rw [hattempts', List.map_append]; rfl⟩
      simp only [afterCreate]
      split
      · exact .inl ⟨hfailed _, hpass _⟩
      · exact ⟨hfailed _, hpass _⟩
  case h_2 attempt deadline stop =>
    obtain ⟨hattempts, hlives⟩ := hlife
    have hpass := hlives.pass (a := .wait stop) rfl
    have hattempts' (m : Nat) : AllFailed (attempts (calls ++ [(m, .wait stop)])) := by
      rw [attempts_concat]
      exact (List.append_nil _).symm ▸ hattempts
    simp only [afterWait]
    split
    · exact .inl ⟨hattempts' _, hpass _⟩
    · split <;> exact ⟨hattempts' _, hpass _⟩
  case h_3 =>
    obtain ⟨hattempts, hlives⟩ := hlife
    rw [hattempts.countP_isOk]
    refine ⟨?_, [], by simp, hlives.concern rfl⟩
    rw [attempts_concat]
    exact (List.append_nil _).symm ▸ hattempts
  case h_4 cause =>
    obtain ⟨hattempts, hlives⟩ := hlife
    rw [hattempts.countP_isOk]
    refine ⟨?_, _, fun closed => .inl ⟨cause, closed, rfl⟩, hlives.concern rfl⟩
    rw [attempts_concat]
    exact (List.append_nil _).symm ▸ hattempts
  case h_5 errorsOpen view =>
    have hhandles : Handles n calls := hlife
    rw [hhandles.1.countP_isOk]
    have hnext := hhandles.handle (a := .poll view) rfl
    rcases view.pick errorsOpen with _ | choice
    · exact hnext
    · cases choice <;> exact hnext
  case h_6 result =>
    have hhandles : Handles n calls := hlife
    rw [hhandles.1.countP_isOk]
    have hnext := hhandles.handle (a := .process result) rfl
    cases result <;> exact hnext
  case h_7 result =>
    have hhandles : Handles n calls := hlife
    rw [hhandles.1.countP_isOk]
    have hnext := hhandles.handle (a := .settle result) rfl
    cases result <;> exact hnext
  case h_8 result =>
    have hhandles : Handles n calls := hlife
    rw [hhandles.1.countP_isOk]
    have hnext := hhandles.handle (a := .settle result) rfl
    unfold afterFailing
    cases p.strategy.flow <;> cases result <;> exact hnext
  case h_9 =>
    obtain ⟨hattempts, handling, hhandling, hlives⟩ : Handles n calls := hlife
    rw [hattempts.countP_isOk]
    refine ⟨?_, _, fun closed => .inr ⟨handling, closed, ?_, hhandling⟩, hlives.concern rfl⟩
    · rw [attempts_concat]
      exact (List.append_nil _).symm ▸ hattempts
    · simp
  case h_10 closed =>
    obtain ⟨hattempts, life, hfull, hlives⟩ := hlife
    rw [hattempts.countP_isOk]
    refine .inr ⟨?_, _, hfull closed, hlives.concern rfl⟩
    rw [attempts_concat]
    exact (List.append_nil _).symm ▸ hattempts

end Phase

/-- What a run has done about its consumer is as its phase says. -/
theorem Run.lifespan_replay [Identified μ] {p : Profile} {history : List (Stamped μ)} {r : Run μ}
    (n : Nat) (h : Run.replay p history = some r) :
    r.phase.Lifespan n (number n (history.map Stamped.answer)) := by
  induction history using List.reverseRecOn generalizing r with
  | nil =>
    obtain rfl := Option.some.inj h
    exact ⟨⟨[], rfl⟩, fun i => by rw [ite_self]; rfl⟩
  | append_singleton history a ih =>
    rw [Run.replay_concat] at h
    obtain ⟨s, hs, hstep⟩ := Option.bind_eq_some_iff.mp h
    obtain ⟨turn, hturn, rfl⟩ := Run.step_eq_some_iff.mp hstep
    rw [List.map_append, List.map_singleton, number_concat, countP_isSuccess n]
    exact Phase.lifespan_concat hturn (ih hs)

/-! ## Runs that follow one another -/

/-- The life of a consumer will be a full one, and is so when the run has ended. -/
theorem Phase.Lifespan.life {phase : Phase μ} {n : Nat} {calls : List (Nat × Answer μ)}
    (h : phase.Lifespan n calls) :
    AllFailed (attempts calls) ∧ Lives (n + 1) [] calls ∨
      LastSucceeded (attempts calls) ∧ ∃ life, Lives (n + 1) life calls ∧
        ∃ rest, FullLife (life ++ rest) ∧ (phase.result?.isSome → rest = []) := by
  have hhandles (h : Handles n calls) : LastSucceeded (attempts calls) ∧
      ∃ life, Lives (n + 1) life calls ∧ ∃ rest, FullLife (life ++ rest) := by
    obtain ⟨hattempts, handling, hhandling, hlives⟩ := h
    exact ⟨hattempts, _, hlives, [.release, .close (.ok ())], .inr ⟨handling, _, rfl, hhandling⟩⟩
  cases phase with
  | creating | retrying => exact .inl h
  | consuming =>
    obtain ⟨hattempts, hlives⟩ := h
    refine .inr ⟨hattempts, [], hlives, [.consume (.error ""), .close (.ok ())], ?_, ?_⟩
    · exact .inl ⟨"", .ok (), rfl⟩
    · exact fun hended => absurd hended Bool.false_ne_true
  | polling | processing | settling | releasing =>
    obtain ⟨hattempts, life, hlives, rest, hfull⟩ := hhandles h
    exact .inr ⟨hattempts, life, hlives, rest, hfull, fun hended =>
      absurd hended Bool.false_ne_true⟩
  | closing =>
    obtain ⟨hattempts, life, hfull, hlives⟩ := h
    refine .inr ⟨hattempts, life, hlives, [.close (.ok ())], hfull _, ?_⟩
    exact fun hended => absurd hended Bool.false_ne_true
  | stopped =>
    rcases h with hnone | ⟨hattempts, life, hfull, hlives⟩
    · exact .inl hnone
    · exact .inr ⟨hattempts, life, hlives, [], (List.append_nil life).symm ▸ hfull, fun _ => rfl⟩

/-- The first consumer that is created has the next number. -/
theorem mem_number {n : Nat} {xs : List (Answer μ)} (h : xs.countP Answer.isSuccess ≠ 0) :
    (n + 1, .create (.ok ())) ∈ number n xs := by
  induction xs generalizing n with
  | nil => exact absurd rfl h
  | cons a xs ih =>
    rw [number]
    cases hsuccess : a.isSuccess with
    | true =>
      have ha : a = .create (.ok ()) := by
        cases a with
        | create result =>
          cases result with
          | ok => rfl
          | error => cases hsuccess
        | _ => cases hsuccess
      rw [ha]
      exact List.mem_cons_self ..
    | false =>
      rw [List.countP_cons, hsuccess] at h
      exact List.mem_cons_of_mem _ (ih h)

namespace Run

variable [Identified μ] {p : Profile}

/-- Whether a run has ended. -/
def HasEnded (p : Profile) (history : List (Stamped μ)) : Prop :=
  ((replay p history).bind fun r => r.phase.result?).isSome

/-- Whether a run has created no consumer, and made no call about one. -/
def KeepsNone (calls : List (Nat × Answer μ)) : Prop :=
  AllFailed (attempts calls) ∧ ∀ i, lifeOf i calls = []

/-- Whether a run has created the `n`-th consumer with its last attempt and made calls about no
other one, and these are a full life once the run has ended. -/
def Keeps (p : Profile) (history : List (Stamped μ)) (n : Nat) (calls : List (Nat × Answer μ)) :
    Prop :=
  LastSucceeded (attempts calls) ∧ (n, .create (.ok ())) ∈ calls ∧ (∀ i ≠ n, lifeOf i calls = []) ∧
    ∃ rest, FullLife (lifeOf n calls ++ rest) ∧ (HasEnded p history → rest = [])

/-- A run after `n` consumers creates none, or the next one. -/
theorem keeps_replay {history : List (Stamped μ)} (n : Nat) (h : (replay p history).isSome) :
    KeepsNone (number n (history.map Stamped.answer)) ∧ consumersIn history = 0 ∨
      Keeps p history (n + 1) (number n (history.map Stamped.answer)) ∧
      consumersIn history = 1 := by
  obtain ⟨r, hr⟩ := Option.isSome_iff_exists.mp h
  have hcount : consumersIn history =
      (attempts (number n (history.map Stamped.answer))).countP Except.isOk := by
    rw [← countP_isSuccess, List.countP_map]
    rfl
  rcases (lifespan_replay n hr).life with
    ⟨hattempts, hlives⟩ | ⟨hattempts, life, hlives, rest, hfull, hrest⟩
  · refine .inl ⟨⟨hattempts, fun i => ?_⟩, hcount.trans hattempts.countP_isOk⟩
    rw [hlives i, ite_self]
  · refine .inr ⟨⟨hattempts, ?_, fun i hi => ?_, rest, ?_, ?_⟩, hcount.trans hattempts.countP_isOk⟩
    · refine mem_number ?_
      rw [countP_isSuccess n, hattempts.countP_isOk]
      exact Nat.one_ne_zero
    · rw [hlives i, if_neg hi]
    · rw [hlives, if_pos rfl]
      exact hfull
    · intro hended
      rw [HasEnded, hr] at hended
      exact hrest hended

/-- Runs make no calls about the consumers that were there before. -/
theorem lifeOf_numberRuns {n m : Nat} {histories : List (List (Stamped μ))}
    (hruns : ∀ history ∈ histories, (replay p history).isSome) (hle : n ≤ m) :
    ∀ calls ∈ numberRuns m histories, lifeOf n calls = [] := by
  induction histories generalizing m with
  | nil => exact fun _ hcalls => absurd hcalls List.not_mem_nil
  | cons history histories ih =>
    have hrest (k : Nat) :=
      ih (m := m + k) (fun h hh => hruns h (List.mem_cons_of_mem _ hh)) (by omega)
    intro calls hcalls
    rcases List.mem_cons.mp hcalls with rfl | hcalls
    · rcases keeps_replay m (hruns history (List.mem_cons_self ..)) with ⟨hnone, -⟩ | ⟨hkeeps, -⟩
      · exact hnone.2 n
      · exact hkeeps.2.2.1 n (by omega)
    · exact hrest _ calls hcalls

/-- Every run keeps one consumer at most. -/
theorem getElem?_numberRuns {n : Nat} {histories : List (List (Stamped μ))}
    (hruns : ∀ history ∈ histories, (replay p history).isSome) {k : Nat}
    {history : List (Stamped μ)} (hk : histories[k]? = some history) :
    ∃ calls, (numberRuns n histories)[k]? = some calls ∧
      (KeepsNone calls ∨ ∃ i, Keeps p history i calls) := by
  induction histories generalizing n k with
  | nil => cases hk
  | cons first histories ih =>
    cases k with
    | zero =>
      obtain rfl := Option.some.inj hk
      refine ⟨_, rfl, ?_⟩
      rcases keeps_replay n (hruns first (List.mem_cons_self ..)) with ⟨hnone, -⟩ | ⟨hkeeps, -⟩
      · exact .inl hnone
      · exact .inr ⟨n + 1, hkeeps⟩
    | succ k => exact ih (fun h hh => hruns h (List.mem_cons_of_mem _ hh)) hk

/-- Every consumer is kept by one run, and the others make no calls about it. -/
theorem exists_keeps {n i : Nat} {histories : List (List (Stamped μ))}
    (hruns : ∀ history ∈ histories, (replay p history).isSome) (hlt : n < i)
    (hle : i ≤ n + (histories.map consumersIn).sum) :
    ∃ (k : Nat) (history : List (Stamped μ)) (calls : List (Nat × Answer μ)),
      histories[k]? = some history ∧ (numberRuns n histories)[k]? = some calls ∧
      Keeps p history i calls ∧
      ∀ (j : Nat) calls', (numberRuns n histories)[j]? = some calls' → j ≠ k →
        lifeOf i calls' = [] := by
  induction histories generalizing n with
  | nil => exact absurd hle (by simpa using hlt)
  | cons first histories ih =>
    have hrest : ∀ history ∈ histories, (replay p history).isSome :=
      fun h hh => hruns h (List.mem_cons_of_mem _ hh)
    rw [List.map_cons, List.sum_cons, ← Nat.add_assoc] at hle
    by_cases hnow : i ≤ n + consumersIn first
    -- The consumer is that of the first run, so the later ones come after it.
    · obtain ⟨hkeeps, hone⟩ | ⟨hkeeps, hone⟩ := keeps_replay n (hruns first (List.mem_cons_self ..))
      · omega
      · obtain rfl : i = n + 1 := by omega
        refine ⟨0, first, _, rfl, rfl, hkeeps, fun j calls hj hne => ?_⟩
        obtain ⟨j, rfl⟩ := Nat.exists_eq_succ_of_ne_zero hne
        exact lifeOf_numberRuns hrest (by omega) calls (List.mem_of_getElem? hj)
    · obtain ⟨k, history, calls, hhistory, hcalls, hkeeps, hothers⟩ :=
        ih (n := n + consumersIn first) hrest (by omega) hle
      refine ⟨k + 1, history, calls, hhistory, hcalls, hkeeps, fun j calls' hj hne => ?_⟩
      cases j with
      | zero =>
        obtain rfl := Option.some.inj hj
        rcases keeps_replay n (hruns first (List.mem_cons_self ..)) with ⟨hnone, -⟩ | ⟨hfirst, hone⟩
        · exact hnone.2 i
        · exact hfirst.2.2.1 i (by omega)
      | succ j => exact hothers j calls' hj (by omega)

/-- Whatever its collaborators do, a run creates one consumer at most, with its last attempt, and if
it creates none it makes no call about one. Each consumer leads a full life within the run that
created it: it is asked to start once, and closed once, last of all and after its streams are
gone. -/
theorem lives_of_consumers {histories : List (List (Stamped μ))}
    (hruns : ∀ history ∈ histories, (replay p history).isSome) :
    (∀ (k : Nat) history, histories[k]? = some history →
      ∃ calls, (numberRuns 0 histories)[k]? = some calls ∧
        (KeepsNone calls ∨ ∃ i, Keeps p history i calls)) ∧
    ∀ i, 1 ≤ i → i ≤ (histories.map consumersIn).sum →
      ∃ (k : Nat) (history : List (Stamped μ)) (calls : List (Nat × Answer μ)),
        histories[k]? = some history ∧ (numberRuns 0 histories)[k]? = some calls ∧
        Keeps p history i calls ∧
        ∀ (j : Nat) calls', (numberRuns 0 histories)[j]? = some calls' → j ≠ k →
          lifeOf i calls' = [] := by
  constructor
  · exact fun k history hk => getElem?_numberRuns hruns hk
  · exact fun i hpos hle => exists_keeps hruns hpos (by simpa using hle)

/-- Two runs: the consumer of the first one refuses to start; the second one creates its consumer
with its second attempt, and the processor, the settlement and the closing all fail. -/
theorem lives_of_failing_consumers :
    let p : Profile := ⟨"c", "script", .nackExit, 1, .zero⟩
    let histories : List (List (Stamped Delivery)) :=
      [[⟨0, .create (.ok ())⟩, ⟨0, .consume (.error "REFUSED")⟩,
        ⟨0, .close (.error "CLOSE ERROR")⟩], [⟨0, .create (.error "DOWN")⟩, ⟨0, .wait false⟩,
          ⟨1, .create (.ok ())⟩, ⟨1, .consume (.ok ())⟩,
          ⟨1, .poll ⟨false, .nothing, .item ⟨0, .given "a", .null⟩⟩⟩,
          ⟨2, .process (.error "PROC ERROR")⟩, ⟨2, .settle (.error "NACK ERROR")⟩, ⟨2, .release⟩,
          ⟨2, .close (.error "CLOSE ERROR")⟩]]
    (∀ history ∈ histories, (replay p history).isSome ∧ HasEnded p history) ∧
      (histories.map consumersIn).sum = 2 ∧
      ∃ (k : Nat) (history : List (Stamped Delivery)) (calls : List (Nat × Answer Delivery)),
        histories[k]? = some history ∧ (numberRuns 0 histories)[k]? = some calls ∧
        Keeps p history 2 calls := by
  -- The histories are written out, for they are to be computed with.
  dsimp only
  refine (fun hended => ⟨hended, rfl, ?consumer⟩) ?ended
  case ended =>
    intro history hhistory
    simp only [List.mem_cons, List.not_mem_nil, or_false] at hhistory
    rcases hhistory with rfl | rfl
    · exact ⟨rfl, rfl⟩
    · exact ⟨rfl, rfl⟩
  case consumer =>
    obtain ⟨k, history, calls, hhistory, hcalls, hkeeps, -⟩ :=
      (lives_of_consumers fun history h => (hended history h).1).2 2 (by decide) (Nat.le_refl 2)
    exact ⟨k, history, calls, hhistory, hcalls, hkeeps⟩

end Run

end Courier
