import Courier.Proofs.Worker.Draining

/-!
# Failures that end runs

Under a strategy that stops, each failure of a processor ends one run, and a run that is to end with
a failure has met it last. `Drain.Traced` says so of the runs so far, whatever happens
(`Drain.Traced.act`).

As long as somebody can publish, no errors are published and nobody asks a run to stop, there is
nothing else that a run could end with (`Drain.Sound.processing_of_ended`). The results of the runs
are then the failures of the processor, in turn (`Drain.Sound.results_of_isIdle`,
`Drain.Sound.results_of_active`).
-/

namespace Courier

/-- The failure of its processor that a run is to end with, or has ended with. -/
def Phase.cause? (p : Profile) : Phase Delivery → Option String
  | .settling _ _ failure => if p.strategy = .nackExit then failure else none
  | .releasing (.error (.processing cause)) | .closing (.error (.processing cause))
  | .stopped (.error (.processing cause)) => some cause
  | _ => none

/-- The failures of processors that end runs. -/
def causes (p : Profile) (judged : List (Delivery × Except String Unit)) : List String :=
  if p.strategy = .nackExit then judged.filterMap fun c => failure? c.2 else []

/-- The results of runs that have ended with these failures. -/
def failedRuns (met : List String) : List (Option RunResult) :=
  met.map fun cause => some (.error (.processing cause))

theorem causes_concat (p : Profile) (judged : List (Delivery × Except String Unit))
    (c : Delivery × Except String Unit) :
    causes p (judged ++ [c]) =
      causes p judged ++ (if p.strategy = .nackExit then failure? c.2 else none).toList := by
  unfold causes
  split
  · rw [List.filterMap_append]
    cases hfailure : failure? c.2 <;> simp [hfailure]
  · rfl

/-- A run that goes on is to end with the same failure as before, until its processor is done with a
message. -/
theorem RunState.Steps.cause?_eq {p : Profile} {stop : Bool} {g g' : Core} {s s' : RunState}
    (h : s.Steps p stop g g' s') (hphase : ∀ e d t, s.phase ≠ .processing e d t) :
    s'.phase.cause? p = s.phase.cause? p := by
  cases h with
  | finish h => exact absurd h (hphase _ _ _)
  | create h | consume h | stop h | error h | errorsEnded h | message h | messagesEnded h =>
    rw [h]
    rfl
  | @goOn _ _ failure h hflow =>
    rw [h]
    rcases hflow with rfl | hflow
    · simp [Phase.cause?]
    · have hother : p.strategy ≠ .nackExit := fun hexit => by
        rw [hexit] at hflow
        cases hflow
      simp [Phase.cause?, hother]
  | giveUp h hflow =>
    rw [h]
    simp [Phase.cause?, FailStrategy.flow_eq_exit_iff.mp hflow]
  | dropErrors | dropMessages => rfl
  | @release result _ _ _ _ h | @close result _ h =>
    rw [h]
    rcases result with (_ | _) | _ <;> rfl

/-- The failures that runs are to end with are those of the older runs and that of the last one. -/
theorem Worker.IsLast.filterMap_cause? {w : Worker} {older : List WorkerRun} {r : WorkerRun}
    (h : w.IsLast older r) (p : Profile) :
    (w.states.filterMap fun s => s.phase.cause? p) =
      (older.filterMap fun q => q.phase.cause? p) ++ (r.phase.cause? p).toList := by
  rw [h.states_eq, List.filterMap_append, List.filterMap_map]
  refine congrArg _ ?_
  show [r.state].filterMap (fun s => s.phase.cause? p) = (r.state.phase.cause? p).toList
  rw [List.filterMap_cons]
  cases r.state.phase.cause? p <;> rfl

namespace Drain

variable {p : Profile} {may : Delivery → Except String Unit → Prop} {script : List Item}
  {stops n : Nat} {x x' : Drain} {accepted : List Parcel}

/-- The failures that runs are to end with are those of processors, in turn, and a run that is to
end with one has met it last. -/
structure Traced (p : Profile) (x : Drain) : Prop where
  causes : (x.worker.states.filterMap fun s => s.phase.cause? p) = causes p x.judged
  last : ∀ cause, x.worker.state.phase.cause? p = some cause →
    (x.judged.getLast?.bind fun c => failure? c.2) = some cause

namespace Traced

/-- What leaves the states of the runs leaves their failures. -/
theorem of_states (h : x.Traced p) (hstates : x'.worker.states = x.worker.states)
    (hjudged : x'.judged = x.judged) : x'.Traced p := by
  have hstate : x'.worker.state = x.worker.state := by rw [Worker.state, hstates, Worker.state]
  exact ⟨by rw [hstates, hjudged, h.causes], by rw [hstate, hjudged]; exact h.last⟩

/-- The last run goes on, while its processor has no message. -/
theorem lastSteps (h : x.Traced p) {older : List WorkerRun} {r : WorkerRun} {w : Worker}
    (hlast : x.worker.IsLast older r) (hp : r.profile = p)
    (hphase : ∀ e d t, r.phase ≠ .processing e d t) (hlastSteps : x.worker.LastSteps older r w) :
    ({ x with worker := w } : Drain).Traced p := by
  obtain ⟨r', hlast', -, -, hsteps⟩ := hlastSteps
  have hsame : r'.phase.cause? p = r.phase.cause? p := (hp ▸ hsteps).cause?_eq hphase
  have hmet := h.last
  rw [hlast.state_eq] at hmet
  constructor
  · show (w.states.filterMap fun s => s.phase.cause? p) = _
    rw [hlast'.filterMap_cause?, hsame, ← hlast.filterMap_cause?]
    exact h.causes
  · show ∀ cause, w.state.phase.cause? p = some cause → _
    rw [hlast'.state_eq]
    exact fun cause hcause => hmet cause (hsame.symm.trans hcause)

/-- The processor of the last run is done with its message. -/
theorem finish (h : x.Traced p) {older : List WorkerRun} {r r' : WorkerRun} {w : Worker}
    {errorsOpen : Bool} {d : Delivery} {since : Nat} {result : Except String Unit}
    (hlast : x.worker.IsLast older r) (hphase : r.phase = .processing errorsOpen d since)
    (hlast' : w.IsLast older r') (hphase' : r'.phase = .settling errorsOpen d (failure? result)) :
    ({ x with worker := w, judged := x.judged ++ [(d, result)] } : Drain).Traced p := by
  have hcauses := h.causes
  rw [hlast.filterMap_cause?, hphase] at hcauses
  constructor
  · show (w.states.filterMap fun s => s.phase.cause? p) = _
    rw [hlast'.filterMap_cause?, hphase', causes_concat, ← hcauses]
    exact congrArg (· ++ _) (List.append_nil _).symm
  · intro cause hcause
    change w.state.phase.cause? p = some cause at hcause
    rw [hlast'.state_eq, show r'.state.phase = _ from hphase', Phase.cause?] at hcause
    show ((x.judged ++ [(d, result)]).getLast?.bind _) = _
    rw [List.getLast?_concat]
    split at hcause
    · exact hcause
    · cases hcause

/-- A run that starts is to end with no failure yet. -/
theorem start (h : x.Traced p) (hidle : x.worker.isIdle) (processor : Processor) (signal : Signal)
    (left : Nat) :
    ({ x with worker := x.worker.start p processor signal, stops := left } : Drain).Traced p := by
  have hlast := Worker.isLast_start hidle p processor signal
  constructor
  · show ((Worker.states _).filterMap fun s => s.phase.cause? p) = _
    rw [hlast.filterMap_cause?]
    refine (List.append_nil _).trans (Eq.trans ?_ h.causes)
    rw [Worker.states, List.filterMap_map]
    rfl
  · show ∀ cause, (Worker.state _).phase.cause? p = some cause → _
    rw [hlast.state_eq]
    rintro _ ⟨⟩

/-- Whatever happens, the failures of processors are those that runs are to end with. -/
theorem act (ht : x.Traced p) (h : x.Sound p may script stops n accepted) (hact : Act p may x x') :
    x'.Traced p := by
  have hprofile {older : List WorkerRun} {r : WorkerRun} (hlast : x.worker.IsLast older r) :
      r.profile = p := h.profile r hlast.mem
  cases hact with
  | @publish item rest w hscript hfree hstep =>
    refine ht.of_states ?_ rfl
    cases item <;> exact Option.some.inj hstep ▸ rfl
  | leave hscript hfree hpublishers hstep =>
    exact ht.of_states (Option.some.inj hstep ▸ rfl) rfl
  | start hagain hstops hstep =>
    simp only [Worker.apply] at hstep
    split at hstep
    · next hidle =>
      obtain rfl := Option.some.inj hstep
      exact ht.start hidle _ _ _
    · cases hstep
  | request hstops hstep =>
    obtain rfl := Option.some.inj hstep
    refine ht.of_states (Worker.states_of_modify rfl fun r => ?_) rfl
    unfold WorkerRun.setSignal
    split <;> rfl
  | abandon hstops hstep =>
    obtain rfl := Option.some.inj hstep
    exact ht.of_states (Worker.states_of_modify rfl fun _ => rfl) rfl
  | run hphase hstep =>
    obtain ⟨older, r, hlast, -, hother, hlastSteps⟩ := h.lastSteps_run hphase hstep
    exact ht.lastSteps hlast (hprofile hlast) hother hlastSteps
  | finish hr hphase hmay hstep =>
    obtain ⟨older, hlast, rfl, -⟩ := h.orderly.isLast_of_active hr (by rw [hphase]; rfl)
    obtain ⟨r', hlast', -, -, hstate, -⟩ := hlast.lastSteps_finishFor hphase hstep
    exact ht.finish hlast hphase hlast' (congrArg RunState.phase hstate)
  | dropErrors hr hl hreads hstep =>
    obtain ⟨older, result, hlast, hphase, hlastSteps⟩ := h.lastSteps_dropErrors hr hl hreads hstep
    exact ht.lastSteps hlast (hprofile hlast) (by simp [hphase]) hlastSteps
  | dropMessages hr hl hreads hstep =>
    obtain ⟨older, result, hlast, hphase, hlastSteps⟩ := h.lastSteps_dropMessages hr hl hreads hstep
    exact ht.lastSteps hlast (hprofile hlast) (by simp [hphase]) hlastSteps
  | forward hstep hchange | overrun hstep hchange =>
    exact ht.of_states (Option.some.inj hstep ▸ rfl) rfl

end Traced

namespace Sound

/-- As long as somebody can publish, a run that has ended was cut short. -/
theorem cutShort_of_stopped (h : x.Sound p may script stops n accepted)
    (hpublishers : x.core.publishers ≠ 0) {q : WorkerRun} (hq : q ∈ x.worker.runs)
    {result : RunResult} (hphase : q.phase = .stopped result) : CutShort result := by
  obtain ⟨older, r, hlast⟩ := h.eq_nil_or_isLast.resolve_left (List.ne_nil_of_mem hq)
  rw [hlast.runs, List.mem_append, List.mem_singleton] at hq
  rcases hq with hq | rfl
  · obtain ⟨result', hresult, hcut⟩ := h.cutShort_run (q := q) (by
      rw [hlast.runs, List.dropLast_concat]
      exact hq)
    rw [hphase] at hresult
    rwa [Option.some.inj hresult]
  · have hfits := h.fits
    rw [hlast.state_eq] at hfits
    simp only [RunState.Fits, WorkerRun.state, hphase] at hfits
    refine cutShort_of_allowsResult hfits fun hclosed => ?_
    rw [hclosed] at hfits
    exact hpublishers hfits.publishers

/-- As long as somebody can publish, runs that have met no error and were not asked to stop have
ended with a failure of the processor. -/
theorem processing_of_ended (h : x.Sound p may script 0 n accepted)
    (herrors : script.countP Item.isError = 0) (hpublishers : x.core.publishers ≠ 0) {q : WorkerRun}
    (hq : q ∈ x.worker.runs) {result : RunResult} (hresult : q.phase.result? = some result) :
    ∃ cause, q.phase = .stopped (.error (.processing cause)) := by
  have hphase : q.phase = .stopped result := by
    cases hcase : q.phase with
    | stopped result' =>
      rw [hcase] at hresult
      rw [Option.some.inj hresult]
    | _ =>
      rw [hcase] at hresult
      cases hresult
  have hcut := h.cutShort_of_stopped hpublishers hq hphase
  -- Neither a request to stop nor an error can have cut it short.
  unfold CutShort at hcut
  split at hcut
  · have hstop := h.stopped q hq (by rw [hphase]; rfl)
    have hsome := List.countP_pos_iff (p := fun q : WorkerRun => q.signal.isStop).mpr ⟨q, hq, hstop⟩
    have hnone := h.stops_le
    omega
  · have hstate : q.state ∈ x.worker.states := List.mem_map_of_mem hq
    have hmet : q.state.phase.meetsError = true := by
      show q.phase.meetsError = true
      rw [hphase]
      rfl
    have hsome := List.countP_pos_iff (p := fun s : RunState => s.phase.meetsError).mpr
      ⟨q.state, hstate, hmet⟩
    have hnone := h.errors_le
    omega
  · exact ⟨_, hphase⟩
  · exact hcut.elim

/-- The results of runs that have ended with failures. -/
theorem results_of_processing {runs : List WorkerRun}
    (h : ∀ q ∈ runs, ∃ cause, q.phase = .stopped (.error (.processing cause))) :
    (runs.map fun q => q.phase.result?) = failedRuns (runs.filterMap fun q =>
      q.phase.cause? p) := by
  induction runs with
  | nil => rfl
  | cons q runs ih =>
    rw [List.forall_mem_cons] at h
    obtain ⟨⟨cause, hphase⟩, hrest⟩ := h
    rw [List.map_cons, List.filterMap_cons, hphase, ih hrest]
    rfl

/-- When all runs have ended, their results are the failures of the processor. -/
theorem results_of_isIdle (h : x.Sound p may script 0 n accepted) (ht : x.Traced p)
    (herrors : script.countP Item.isError = 0) (hpublishers : x.core.publishers ≠ 0)
    (hidle : x.worker.isIdle) :
    x.worker.results = failedRuns (causes p x.judged) := by
  rw [← ht.causes, Worker.states, List.filterMap_map]
  refine results_of_processing fun q hq => ?_
  obtain ⟨result, hresult⟩ := Option.isSome_iff_exists.mp (List.all_eq_true.mp hidle q hq)
  exact h.processing_of_ended herrors hpublishers hq hresult

/-- While the last run is in progress, the results of the others are the failures of the processor,
but for one that the last run is to end with. -/
theorem results_of_active (h : x.Sound p may script 0 n accepted) (ht : x.Traced p)
    (herrors : script.countP Item.isError = 0) (hpublishers : x.core.publishers ≠ 0)
    {older : List WorkerRun} {r : WorkerRun} (hlast : x.worker.IsLast older r)
    (hactive : r.phase.result? = none) :
    ∃ met, causes p x.judged = met ++ (r.phase.cause? p).toList ∧
      x.worker.results = failedRuns met ++ [none] := by
  have holder := results_of_processing (p := p) fun q (hq : q ∈ older) => by
    obtain ⟨result, hresult⟩ := Option.isSome_iff_exists.mp (hlast.ended q hq)
    refine h.processing_of_ended herrors hpublishers ?_ hresult
    rw [hlast.runs]
    exact List.mem_append_left _ hq
  refine ⟨_, ht.causes.symm.trans (hlast.filterMap_cause? p), ?_⟩
  rw [Worker.results, hlast.runs, List.map_append, List.map_singleton, hactive, holder]

/-- The result of a run that has ended is the failure of the processor whose turn it is. -/
theorem cause_of_result (h : x.Sound p may script 0 n accepted) (ht : x.Traced p)
    (herrors : script.countP Item.isError = 0) (hpublishers : x.core.publishers ≠ 0) {k : Nat}
    {result : RunResult} (hk : x.worker.results[k]? = some (some result)) :
    ∃ cause, (causes p x.judged)[k]? = some cause ∧ result = .error (.processing cause) := by
  have hmapped {met : List String}
      (hk : (failedRuns met)[k]? = some (some result)) :
      ∃ cause, met[k]? = some cause ∧ result = .error (.processing cause) := by
    rw [failedRuns, List.getElem?_map] at hk
    obtain ⟨cause, hcause, hresult⟩ := Option.map_eq_some_iff.mp hk
    exact ⟨cause, hcause, (Option.some.inj hresult).symm⟩
  by_cases hidle : x.worker.isIdle
  · rw [h.results_of_isIdle ht herrors hpublishers hidle] at hk
    exact hmapped hk
  · obtain ⟨older, r, hlast⟩ := h.eq_nil_or_isLast.resolve_left fun hnone =>
      hidle (by rw [Worker.isIdle, hnone]; rfl)
    have hactive : r.phase.result? = none := by
      by_contra hended
      exact hidle (hlast.isIdle (Option.isSome_iff_ne_none.mpr hended))
    obtain ⟨met, hcauses, hresults⟩ := h.results_of_active ht herrors hpublishers hlast hactive
    rw [hresults] at hk
    -- The last run has not ended, so that the run is an older one.
    have hlt : k < (failedRuns met).length := by
      by_contra hge
      rw [List.getElem?_append_right (Nat.le_of_not_lt hge)] at hk
      have hnone := List.mem_of_getElem? hk
      rw [List.mem_singleton] at hnone
      cases hnone
    rw [List.getElem?_append_left hlt] at hk
    obtain ⟨cause, hcause, hresult⟩ := hmapped hk
    refine ⟨cause, ?_, hresult⟩
    rw [hcauses, List.getElem?_append_left ((List.length_map _).symm ▸ hlt), hcause]

end Sound

end Drain

end Courier
