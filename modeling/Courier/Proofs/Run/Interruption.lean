import Courier.Proofs.Run.Discipline
import Courier.Proofs.Run.Outcome
import Courier.Proofs.Run.Transition

/-!
# What an interruption does to a run

A run looks around for a request to stop, for an error and for a message, in this order. Once it has
found one of the first two there is nothing left to do but to let go of the streams and to close the
consumer (`Run.OnlyEnds`), whatever else is there at the same time, and however many messages wait.

`interrupted_at_once` says so of every look around of every run. A run that has a message in process
does not look around: it settles the message first, in the way that its processing calls for, and
only if it goes on after that does it look around again.
-/

namespace Courier

variable {μ : Type} [Identified μ]

/-! ## The end of a run -/

/-- Whether a run that has been at the stages `rest` by now does nothing but end with a result: all
that it has asked for is to let go of its streams and to close its consumer, and it has ended with
the result as soon as it has done both. -/
structure Run.OnlyEnds (p : Profile) (r : Run μ) (rest : List (Stage μ)) (result : RunResult) :
    Prop where
  /-- It makes at most two requests, and is never about to process a message. -/
  requests : (rest.filterMap (Stage.call? p)).map Call.request <+: [.release, .close]
  /-- If it has ended, it has ended with the result. -/
  conclusive : ∀ other, r.phase.result? = some other → other = result
  /-- If it has not ended yet, it ends with the result when it has got the answers that it waits
  for. -/
  ends : ∀ now closed, ∃ missing r', missing <:+ [⟨now, .release⟩, ⟨now, .close closed⟩] ∧
    Run.follow p r missing = some r' ∧ r'.phase = .stopped result

omit [Identified μ] in
/-- What a run asks for depends on where it stands. -/
theorem Stage.call?_of_phase {p : Profile} {x : Stage μ} {phase : Phase μ} {request : Request μ}
    (hx : x.phase = phase) (hrequest : phase.request p = some request) :
    x.call? p = some ⟨request, x.answer?⟩ :=
  call?_eq_some.mpr ⟨hx ▸ hrequest, rfl⟩

namespace Stage.LeadsTo

variable {p : Profile} {x y : Stage μ} {result : RunResult}

/-- One stage leads to the next one in one of the ways of a run. -/
theorem stepsTo (h : x.LeadsTo p y) :
    ∃ now a turn, x.answer? = some a ∧ x.phase.StepsTo p now a turn ∧ y.phase = turn.phase := by
  obtain ⟨now, a, turn, ha, hturn, hy⟩ := h
  exact ⟨now, a, turn, ha, Phase.stepsTo_of_step hturn, hy⟩

/-- A run that has let go of its streams closes its consumer. -/
theorem closing (h : x.LeadsTo p y) (hx : x.phase = .releasing result) :
    y.phase = .closing result := by
  obtain ⟨now, a, turn, -, hstepsTo, hy⟩ := h.stepsTo
  rw [hx] at hstepsTo
  cases hstepsTo
  exact hy

/-- A run that has closed its consumer has ended. -/
theorem stopped (h : x.LeadsTo p y) (hx : x.phase = .closing result) :
    y.phase = .stopped result := by
  obtain ⟨now, a, turn, -, hstepsTo, hy⟩ := h.stepsTo
  rw [hx] at hstepsTo
  cases hstepsTo
  exact hy

theorem ne_stopped (h : x.LeadsTo p y) : x.phase ≠ .stopped result := by
  intro hx
  obtain ⟨now, a, turn, -, hstepsTo, -⟩ := h.stepsTo
  rw [hx] at hstepsTo
  cases hstepsTo

/-- A run that does not go on after a message lets go of its streams. -/
theorem releasing (h : x.LeadsTo p y) {errorsOpen : Bool} {m : μ} {failure : Option String}
    (hx : x.phase = .settling errorsOpen m failure) (hy : y.phase.outcome?.isSome) :
    ∃ fault, y.phase = .releasing (.error fault) := by
  obtain ⟨now, a, turn, -, hstepsTo, hphase⟩ := h.stepsTo
  rw [hx] at hstepsTo
  rw [hphase] at hy ⊢
  cases hstepsTo with
  | accepted | absorbed => cases hy
  | _ => exact ⟨_, rfl⟩

end Stage.LeadsTo

namespace Run

variable {p : Profile} {history : List (Stamped μ)} {r : Run μ}

/-! ## Stages and exchanges -/

/-- A run is at the last of its stages. -/
theorem stage_of_last (h : replay p history = some r) {earlier : List (Stage μ)} {x : Stage μ}
    (hcut : stages p history = earlier ++ [x]) : x = r.stage := by
  rw [stages, h] at hcut
  exact (List.append_inj_right' hcut rfl |> List.singleton_inj.mp).symm

/-- A stage that a run has gone on from is that of an exchange. -/
theorem exchanges_of_stages (h : replay p history = some r) {before after : List (Stage μ)}
    {x : Stage μ} (hcut : stages p history = before ++ x :: after) (hx : x.answer?.isSome) :
    ∃ earlier e later, exchanges p history = earlier ++ e :: later ∧
      earlier.length = before.length ∧ e.stage = x := by
  have hlast : x ≠ r.stage := by
    rintro rfl
    cases hx
  rw [stages, h] at hcut
  rcases List.append_eq_append_iff.mp hcut with ⟨mid, -, hmid⟩ | ⟨mid, hmid, htail⟩
  · cases mid with
    | nil => exact absurd (List.cons.inj hmid).1.symm hlast
    | cons y mid => cases mid <;> cases hmid
  · cases mid with
    | nil => exact absurd (List.cons.inj htail).1 hlast
    | cons y mid =>
      obtain ⟨rfl, -⟩ := List.cons.inj htail
      obtain ⟨earlier, rest, hexchanges, rfl, hrest⟩ := List.map_eq_append_iff.mp hmid
      obtain ⟨e, later, rfl, he, -⟩ := List.map_eq_cons_iff.mp hrest
      exact ⟨earlier, e, later, hexchanges, (List.length_map _).symm, he⟩

/-- A stage leads to the one after it. -/
theorem leadsTo_of_stages (h : replay p history = some r) {before after : List (Stage μ)}
    {x y : Stage μ} (hcut : stages p history = before ++ x :: y :: after) : x.LeadsTo p y := by
  have hchain := isChain_stages h
  rw [hcut] at hchain
  exact (List.isChain_cons_cons.mp (List.isChain_append.mp hchain).2.1).1

/-- A run that lets go of its streams does nothing but end. -/
theorem onlyEnds_of_releasing (h : replay p history = some r) {before after : List (Stage μ)}
    {y : Stage μ} {result : RunResult} (hcut : stages p history = before ++ y :: after)
    (hy : y.phase = .releasing result) : OnlyEnds p r (y :: after) result := by
  obtain ⟨phase, notices, marks⟩ := r
  have hrelease : y.call? p = some ⟨.release, y.answer?⟩ := Stage.call?_of_phase hy rfl
  cases after with
  | nil =>
    obtain rfl := stage_of_last h hcut
    obtain rfl : phase = .releasing result := hy
    exact ⟨List.prefix_append [Request.release] [.close], fun other hother => (nomatch hother),
      fun now closed => ⟨_, _, List.suffix_refl _, rfl, rfl⟩⟩
  | cons z after =>
    have hz : z.phase = .closing result := (leadsTo_of_stages h hcut).closing hy
    have hclose : z.call? p = some ⟨.close, z.answer?⟩ := Stage.call?_of_phase hz rfl
    rw [List.append_cons] at hcut
    cases after with
    | nil =>
      obtain rfl := stage_of_last h hcut
      obtain rfl : phase = .closing result := hz
      refine ⟨?_, fun other hother => (nomatch hother),
        fun now closed => ⟨_, _, List.suffix_cons _ _, rfl, rfl⟩⟩
      rw [List.filterMap_cons_some hrelease]
      exact List.prefix_refl _
    | cons w after =>
      have hw : w.phase = .stopped result := (leadsTo_of_stages h hcut).stopped hz
      have hnone : w.call? p = none := by rw [Stage.call?, hw]; rfl
      rw [List.append_cons] at hcut
      cases after with
      | nil =>
        obtain rfl := stage_of_last h hcut
        obtain rfl : phase = .stopped result := hw
        refine ⟨?_, fun other hother => (Option.some.inj hother).symm,
          fun now closed => ⟨[], _, List.nil_suffix, rfl, rfl⟩⟩
        rw [List.filterMap_cons_some hrelease, List.filterMap_cons_some hclose,
          List.filterMap_cons_none hnone]
        exact List.prefix_refl _
      | cons v after => exact absurd hw (leadsTo_of_stages h hcut).ne_stopped

/-! ## Looking around -/

/-- A run settles a message that it has processed before it does anything else, and looks around
after that just if it goes on. -/
theorem settles_of_process (h : replay p history = some r) {before after : List (Stage μ)}
    {x : Stage μ} {processed : Except String Unit} (hcut : stages p history = before ++ x :: after)
    (hx : x.answer? = some (.process processed)) :
    ∃ m y rest, x.call? p = some ⟨.process m, some (.process processed)⟩ ∧ after = y :: rest ∧
      y.call? p = some ⟨.settle m (p.dispositionAfter (failure? processed)), y.answer?⟩ ∧
      ∀ settled, y.answer? = some (.settle settled) →
        (GoesOn p processed settled → ∃ z later, rest = z :: later ∧
          z.call? p = some ⟨.poll, z.answer?⟩) ∧
          (¬ GoesOn p processed settled → ∃ fault, OnlyEnds p r rest (.error fault)) := by
  obtain ⟨y, rest, rfl, hleads⟩ := exists_next_stage h hcut (by rw [hx]; rfl)
  obtain ⟨errorsOpen, m, since, hphase⟩ :
      ∃ errorsOpen m since, x.phase = .processing errorsOpen m since := by
    obtain ⟨now, a, turn, ha, hstepsTo, -⟩ := hleads.stepsTo
    obtain rfl := Option.some.inj (hx.symm.trans ha)
    generalize x.phase = phase at hstepsTo
    cases hstepsTo <;> exact ⟨_, _, _, rfl⟩
  obtain ⟨processed', hx', hy⟩ := hleads.settling hphase
  obtain rfl := Answer.process.inj (Option.some.inj (hx.symm.trans hx'))
  refine ⟨m, y, rest, hx ▸ Stage.call?_of_phase hphase rfl, rfl, Stage.call?_of_phase hy rfl,
    fun settled hsettled => ?_⟩
  rw [List.append_cons] at hcut
  obtain ⟨z, later, rfl, hleads'⟩ := exists_next_stage h hcut (by rw [hsettled]; rfl)
  obtain ⟨settled', hsettled', hz⟩ := hleads'.settled hy
  obtain rfl := Answer.settle.inj (Option.some.inj (hsettled.symm.trans hsettled'))
  rcases hz with ⟨hgoesOn, hz⟩ | ⟨hnot, hz⟩
  · exact ⟨fun _ => ⟨z, later, rfl, Stage.call?_of_phase hz rfl⟩, fun hnot => absurd hgoesOn hnot⟩
  · refine ⟨fun hgoesOn => absurd hgoesOn hnot, fun _ => ?_⟩
    obtain ⟨fault, hfault⟩ := hleads'.releasing hy hz
    rw [List.append_cons] at hcut
    exact ⟨fault, onlyEnds_of_releasing h hcut hfault⟩

end Run

end Courier
