import Courier.Proofs.Run.Surroundings
import Courier.Worker.Basic
import Mathlib.Data.List.Chain
import Mathlib.Tactic.IntervalCases

/-!
# How a run handles its messages

The calls of a run are the requests that it has made, with their answers (`Run.calls`); only the
last one may still wait. They are read off the stages that the run has been at (`Run.stages`), each
of which leads to the next one (`isChain_stages`). So what comes right after a call, and what came
right before it, is a matter of one step.

`handled_in_turn` says what follows for messages: they are processed in the order of the stream, and
each one is settled at once, in the way that its processing calls for, before anything else happens.
-/

namespace Courier

variable {μ : Type}

/-- A run comes to settle a message by processing it. -/
theorem Phase.processing_of_settling [Identified μ] {p : Profile} {now : Nat} {phase : Phase μ}
    {a : Answer μ} {turn : Turn μ} (hturn : phase.step p now a = some turn) {errorsOpen : Bool}
    {m : μ} {failure : Option String} (h : turn.phase = .settling errorsOpen m failure) :
    ∃ since result, phase = .processing errorsOpen m since ∧ a = .process result ∧
      failure? result = failure := by
  unfold step at hturn
  split at hturn <;> cases hturn
  case h_1 attempt created =>
    cases created with
    | ok => cases h
    | error =>
      simp only [afterCreate] at h
      split at h <;> cases h
  case h_2 =>
    simp only [afterWait] at h
    split at h
    · cases h
    · split at h <;> cases h
  case h_5 errorsOpen view =>
    rcases hpick : view.pick errorsOpen with _ | choice <;> rw [hpick] at h
    · cases h
    · cases choice <;> cases h
  case h_6 since result =>
    cases result with
    | ok =>
      cases h
      exact ⟨since, .ok (), rfl, rfl, rfl⟩
    | error cause =>
      cases h
      exact ⟨since, .error cause, rfl, rfl, rfl⟩
  case h_7 result => cases result <;> cases h
  case h_8 result =>
    cases hflow :
      p.strategy.flow <;> cases result <;> simp only [afterFailing, hflow] at h <;> cases h
  all_goals cases h

/-- A request of a run, and the answer to it unless the run still waits for it. -/
structure Call (μ : Type) where
  /-- The request. -/
  request : Request μ
  /-- The answer. -/
  answer? : Option (Answer μ)

/-- The message that was passed to the processor. -/
def Call.processed? (c : Call μ) : Option μ :=
  match c.request with
  | .process m => some m
  | _ => none

/-- Where a run has been, and the answer that took it on from there. -/
structure Stage (μ : Type) where
  /-- Where the run stood. -/
  phase : Phase μ
  /-- The answer, if there has been one. -/
  answer? : Option (Answer μ)

/-- Where a run is. -/
def Run.stage (r : Run μ) : Stage μ := ⟨r.phase, none⟩

/-- Where an exchange took place. -/
def Exchange.stage (x : Exchange μ) : Stage μ := ⟨x.phase, some x.answer⟩

/-- Whether a run goes on after a message, by the results of its processing and of its
settlement. -/
def GoesOn (p : Profile) (result settled : Except String Unit) : Prop :=
  settled = .ok () ∧ ¬ (p.strategy = .nackExit ∧ ∃ cause, result = .error cause)

namespace Stage

/-- The call that a run made from there, unless it had ended. -/
def call? (p : Profile) (x : Stage μ) : Option (Call μ) :=
  (x.phase.request p).map fun request => ⟨request, x.answer?⟩

/-- Whether the answer took the run from one stage to another. -/
def LeadsTo [Identified μ] (p : Profile) (x y : Stage μ) : Prop :=
  ∃ now a turn, x.answer? = some a ∧ x.phase.step p now a = some turn ∧ y.phase = turn.phase

variable {p : Profile} {x y : Stage μ} {m : μ} {d : Disposition}

theorem call?_eq_some {c : Call μ} :
    x.call? p = some c ↔ x.phase.request p = some c.request ∧ x.answer? = c.answer? := by
  rw [call?, Option.map_eq_some_iff]
  constructor
  · rintro ⟨request, hrequest, rfl⟩
    exact ⟨hrequest, rfl⟩
  · rintro ⟨hrequest, hanswer⟩
    exact ⟨c.request, hrequest, by rw [hanswer]⟩

theorem settling_of_request {phase : Phase μ} (h : phase.request p = some (.settle m d)) :
    ∃ errorsOpen failure, phase = .settling errorsOpen m failure ∧
      d = p.dispositionAfter failure := by
  cases phase with
  | settling errorsOpen m' failure =>
    obtain ⟨rfl, rfl⟩ := Request.settle.inj (Option.some.inj h)
    exact ⟨errorsOpen, failure, rfl, rfl⟩
  | _ => cases h

variable [Identified μ]

/-- A message that was processed is settled next. -/
theorem LeadsTo.settling (h : x.LeadsTo p y) {errorsOpen : Bool} {since : Nat}
    (hx : x.phase = .processing errorsOpen m since) :
    ∃ result, x.answer? = some (.process result) ∧
      y.phase = .settling errorsOpen m (failure? result) := by
  obtain ⟨now, a, turn, ha, hturn, hy⟩ := h
  rw [hx] at hturn
  cases a with
  | process result =>
    obtain rfl := Option.some.inj hturn
    refine ⟨result, ha, hy.trans ?_⟩
    cases result <;> rfl
  | _ => cases hturn

/-- A message that is to be settled has just been processed. -/
theorem LeadsTo.processing (h : x.LeadsTo p y) {errorsOpen : Bool} {failure : Option String}
    (hy : y.phase = .settling errorsOpen m failure) :
    ∃ since result, x.phase = .processing errorsOpen m since ∧
      x.answer? = some (.process result) ∧ failure? result = failure := by
  obtain ⟨now, a, turn, ha, hturn, hphase⟩ := h
  obtain ⟨since, result, hx, rfl, hfailure⟩ :=
    Phase.processing_of_settling hturn (hphase.symm.trans hy)
  exact ⟨since, result, hx, ha, hfailure⟩

/-- After the settlement of a message a run looks around again, if it goes on, and is about to end
otherwise. -/
theorem LeadsTo.settled (h : x.LeadsTo p y) {errorsOpen : Bool} {result : Except String Unit}
    (hx : x.phase = .settling errorsOpen m (failure? result)) :
    ∃ settled, x.answer? = some (.settle settled) ∧
      (GoesOn p result settled ∧ y.phase = .polling errorsOpen ∨
        ¬ GoesOn p result settled ∧ y.phase.outcome?.isSome) := by
  obtain ⟨now, a, turn, ha, hturn, hy⟩ := h
  rw [hx] at hturn
  rw [hy]
  obtain ⟨settled, rfl⟩ : ∃ settled, a = .settle settled := by
    cases a with
    | settle settled => exact ⟨settled, rfl⟩
    | _ => cases result <;> cases hturn
  refine ⟨settled, ha, ?_⟩
  cases result with
  | ok =>
    obtain rfl := Option.some.inj hturn
    cases settled with
    | ok => exact .inl ⟨⟨rfl, fun hfailed => (nomatch hfailed.2)⟩, rfl⟩
    | error => exact .inr ⟨fun hgoesOn => (nomatch hgoesOn.1), rfl⟩
  | error cause =>
    obtain rfl := Option.some.inj hturn
    cases hflow : p.strategy.flow with
    | «continue» =>
      cases settled with
      | ok =>
        simp only [Phase.afterFailing, hflow]
        refine .inl ⟨⟨rfl, fun hfailed => ?_⟩, trivial⟩
        rw [hfailed.1] at hflow
        cases hflow
      | error =>
        simp only [Phase.afterFailing, hflow]
        exact .inr ⟨fun hgoesOn => (nomatch hgoesOn.1), rfl⟩
    | exit =>
      have hnot : ¬ GoesOn p (.error cause) settled :=
        fun hgoesOn => hgoesOn.2 ⟨FailStrategy.flow_eq_exit_iff.mp hflow, cause, rfl⟩
      cases settled <;> (simp only [Phase.afterFailing, hflow]; exact .inr ⟨hnot, rfl⟩)

/-- A run that is about to end stays so. -/
theorem LeadsTo.outcome? (h : x.LeadsTo p y) (hx : x.phase.outcome?.isSome) :
    y.phase.outcome?.isSome := by
  obtain ⟨now, a, turn, -, hturn, hy⟩ := h
  obtain ⟨result, hresult⟩ := Option.isSome_iff_exists.mp hx
  rw [hy, Phase.outcome?_of_step hturn hresult]
  rfl

end Stage

namespace Run

variable [Identified μ]

/-- Where a run has been, in order; the last stage is where it is. -/
def stages (p : Profile) (history : List (Stamped μ)) : List (Stage μ) :=
  (exchanges p history).map Exchange.stage ++
    ((replay p history).map Run.stage).toList

/-- The calls of a run, in order. -/
def calls (p : Profile) (history : List (Stamped μ)) : List (Call μ) :=
  (stages p history).filterMap (Stage.call? p)

variable {p : Profile} {history : List (Stamped μ)} {r : Run μ}

/-- A run goes from one stage to the next by its answers. -/
theorem isChain_stages (h : replay p history = some r) :
    (stages p history).IsChain (Stage.LeadsTo p) := by
  rw [stages, h]
  refine replay_induction (P := fun xs phase =>
    (xs.map Exchange.stage ++ [(⟨phase, none⟩ : Stage μ)]).IsChain (Stage.LeadsTo p)) h
    (List.isChain_singleton _) ?_
  intro xs phase a turn hprevious hturn
  rw [List.map_append, List.append_assoc]
  obtain ⟨hxs, -, hlast⟩ := List.isChain_append.mp hprevious
  refine List.isChain_append.mpr ⟨hxs, ?_, ?_⟩
  · exact List.isChain_pair.mpr ⟨a.now, a.answer, turn, rfl, hturn, rfl⟩
  · intro x hx y hy
    obtain rfl := Option.some.inj hy
    obtain ⟨now, b, turn, hb, hstep, hphase⟩ := hlast x hx _ rfl
    exact ⟨now, b, turn, hb, hstep, hphase⟩

/-- A run that has got an answer has come to another stage. -/
theorem exists_next_stage (h : replay p history = some r) {earlier later : List (Stage μ)}
    {x : Stage μ} (hcut : stages p history = earlier ++ x :: later) (hx : x.answer?.isSome) :
    ∃ y rest, later = y :: rest ∧ x.LeadsTo p y := by
  have hchain := isChain_stages h
  rw [hcut] at hchain
  obtain ⟨-, hlater, -⟩ := List.isChain_append.mp hchain
  cases later with
  | nil =>
    -- Only the last stage has no answer.
    rw [stages, h] at hcut
    have hlast := congrArg List.getLast? hcut
    rw [Option.map_some, Option.toList_some, List.getLast?_concat, List.getLast?_concat] at hlast
    obtain rfl := Option.some.inj hlast
    cases hx
  | cons y rest => exact ⟨y, rest, rfl, (List.isChain_cons_cons.mp hlater).1⟩

end Run

end Courier
