import Courier.Proofs.Broker.WaitLimit
import Courier.Proofs.Worker.Reading

/-!
# Runs whose forwarders give up

An error that a forwarder gives up with stays where its run cannot miss it (`Lane.Leaves`): the
forwarder holds it until the slot is free, and ends as it puts it there. The run still looks for
errors then, since it stops doing so only when there will be none (`Lane.Attended`). So it fails
with that error, or with one that was in the slot before, unless it is asked to stop or its
processor fails.

There is one way past the error. A run that has looked for errors and found none may look at its
messages after the forwarder has put its error in the slot and ended. It finds its messages ended
then, and fails because of that, with the error unread (`Worker.Overlooks`). This takes a second
thread: a run that looks around at once does not overlook anything.

`times_out` says so of all runs, and of all transports when their forwarders give up.
`overlooks_timeOut` is a run that overlooks the error, and another one that gets an error with the
same words from a publisher, which no forwarder has given up with.
-/

namespace Courier

/-! ## What a run finds in its lane -/

namespace Broker.Advances

variable {b : Broker} {n : Nat} {l l' : Lane} {line : List Nat} {incoming : List Envelope}
  {returned : List Parcel}

/-- A forwarder changes nothing about what its reader takes, nor about whether it is asked to
end. -/
theorem reader_eq (h : b.Advances n l l' line incoming returned) :
    l'.readsMessages = l.readsMessages ∧ l'.readsErrors = l.readsErrors ∧
      l'.aborted = l.aborted := by
  cases h <;> exact ⟨rfl, rfl, rfl⟩

theorem of_ended (h : b.Advances n l l' line incoming returned) (hended : l.forwarder = .ended) :
    l' = l := by
  cases h with
  | rest => rfl
  | followSign h | timeOut h =>
    rcases h with h | h <;> cases h.symm.trans hended
  | takeMessage h | takeError h | finish h =>
    rw [hended] at h
    cases h
  | join h | enter h | takeReturned h | choose h | park h | handOver h | report h | reportLast h
  | giveBack h =>
    cases h.symm.trans hended

end Broker.Advances

/-- What a run that handles messages finds in its lane. -/
structure Lane.Attended (errorsOpen : Bool) (l : Lane) : Prop where
  readsMessages : l.readsMessages = true
  readsErrors : l.readsErrors = true
  aborted : l.aborted = false
  /-- If it does not look for errors any more there will be none. -/
  closed : errorsOpen = false → l.forwarder = .ended ∧ l.errorSlot = none
  /-- Without a limit its forwarder waits for ever. -/
  limitless : l.limit = none → l.forwarder.until? = none
  /-- A forwarder that has given up says after how long. -/
  last : ∀ error, l.forwarder = .reporting error true →
    ∃ limit, l.limit = some limit ∧ error = Broker.idleError limit

/-- Whether the forwarder of a lane leaves a last error to its reader, who finds an `earlier` one
first if there is one. -/
def Lane.Leaves (error : String) (earlier : Option String) (l : Lane) : Prop :=
  l.forwarder = .reporting error true ∧ l.errorSlot = earlier ∨
    earlier = none ∧ l.forwarder = .ended ∧ l.errorSlot = some error

/-- Whether a result is due to an error of the transport, unless the run was asked to stop or its
processor has failed before. -/
def IsDueTo (error : String) (result : RunResult) : Prop :=
  result = .error (.transport error) ∨ result = .ok () ∨
    ∃ cause, result = .error (.processing cause)

namespace Lane

variable {b : Broker} {n : Nat} {l l' : Lane} {line : List Nat} {incoming : List Envelope}
  {returned : List Parcel} {errorsOpen : Bool} {alone : Prop} {phase phase' : Phase Delivery}
  {error : String}
  {earlier : Option String}

theorem attended_start (owner : Nat) (limit : Option Span) :
    (Lane.start owner limit).Attended true where
  readsMessages := rfl
  readsErrors := rfl
  aborted := rfl
  closed h := by cases h
  limitless _ := rfl
  last error h := by cases h

namespace Attended

theorem sameUpToSign (h : l.Attended errorsOpen) (hupToSign : l.SameUpToSign l') :
    l'.Attended errorsOpen := by
  rcases hupToSign with rfl | ⟨deadline, hparked, rfl⟩
  · exact h
  · constructor
    case readsMessages => exact h.readsMessages
    case readsErrors => exact h.readsErrors
    case aborted => exact h.aborted
    case closed =>
      intro hclosed
      cases hparked.symm.trans (h.closed hclosed).1
    case limitless =>
      intro hlimit
      have huntil := h.limitless hlimit
      rw [hparked] at huntil
      exact huntil
    case last =>
      rintro error ⟨⟩

theorem advances (h : l.Attended errorsOpen)
    (hadvances : b.Advances n l l' line incoming returned) :
    l'.Attended errorsOpen := by
  obtain ⟨hmessages, herrors, haborted⟩ := hadvances.reader_eq
  constructor
  case readsMessages => exact hmessages.trans h.readsMessages
  case readsErrors => exact herrors.trans h.readsErrors
  case aborted => exact haborted.trans h.aborted
  case closed =>
    intro hclosed
    obtain rfl := hadvances.of_ended (h.closed hclosed).1
    exact h.closed hclosed
  case limitless =>
    intro hlimit
    rw [hadvances.limit_eq] at hlimit
    cases hseeking : l'.forwarder.isSeeking with
    | true =>
      rcases hadvances.seeks_cases hseeking with ⟨-, huntil⟩ | ⟨-, hlooking, -⟩
      · rw [huntil]
        exact h.limitless hlimit
      · rw [hlooking, hlimit]
        rfl
    | false =>
      cases hforwarder : l'.forwarder with
      | looking | choosing | parked =>
        rw [hforwarder] at hseeking
        cases hseeking
      | _ => rfl
  case last =>
    intro error hlast
    rcases hadvances.last_cases (by rw [hlast]; rfl) with rfl | ⟨-, hgaveUp, -, -, hover⟩
    · exact h.last error hlast
    · cases hlimit : l.limit with
      | none =>
        rw [h.limitless hlimit] at hover
        cases hover
      | some limit =>
        rw [hgaveUp, hlimit] at hlast
        injection hlast with herror
        exact ⟨limit, hadvances.limit_eq.trans hlimit, herror.symm⟩

/-- It looks for errors until there will be none. -/
theorem reads (h : l.Attended errorsOpen) (hopen : phase.errorsOpen? = some errorsOpen)
    (hreads : phase.Reads alone l phase' l') {errorsOpen' : Bool}
    (hopen' : phase'.errorsOpen? = some errorsOpen') :
    l'.Attended errorsOpen' := by
  cases hreads with
  | goOn =>
    obtain rfl := Option.some.inj (hopen.symm.trans hopen')
    exact h
  | errorsEnded hslot hended =>
    obtain rfl := Option.some.inj hopen'
    exact ⟨h.readsMessages, h.readsErrors, h.aborted, fun _ => ⟨hended, hslot⟩, h.limitless, h.last⟩
  | message =>
    obtain rfl := Option.some.inj (hopen.symm.trans hopen')
    exact ⟨h.readsMessages, h.readsErrors, h.aborted, h.closed, h.limitless, h.last⟩
  | finish =>
    obtain rfl := Option.some.inj (hopen.symm.trans hopen')
    exact h
  | settle hupToSign =>
    obtain rfl := Option.some.inj (hopen.symm.trans hopen')
    exact h.sameUpToSign hupToSign
  | stop | error | messagesEnded | errorsMissed | giveUp => cases hopen'

end Attended

namespace Leaves

theorem sameUpToSign (h : l.Leaves error earlier) (hupToSign : l.SameUpToSign l') :
    l'.Leaves error earlier := by
  rcases hupToSign with rfl | ⟨deadline, hparked, -⟩
  · exact h
  · rcases h with ⟨hlast, -⟩ | ⟨-, hended, -⟩
    · cases hparked.symm.trans hlast
    · cases hparked.symm.trans hended

/-- The forwarder holds its last error until the slot is free, and ends as it puts it there. -/
theorem advances (h : l.Leaves error earlier) (hattended : l.Attended errorsOpen)
    (hadvances : b.Advances n l l' line incoming returned) : l'.Leaves error earlier := by
  rcases h with ⟨hlast, hslot⟩ | ⟨hnone, hended, hslot⟩
  · cases hadvances with
    | rest => exact .inl ⟨hlast, hslot⟩
    | reportLast h hfree =>
      injection h.symm.trans hlast with herror
      exact .inr ⟨hslot.symm.trans hfree, rfl, congrArg some herror⟩
    | finish _ _ hwhy =>
      cases hwhy with
      | aborted haborted => cases hattended.aborted.symm.trans haborted
      | unread h =>
        rw [hlast] at h
        cases h
      | unheard _ hreads => cases hattended.readsErrors.symm.trans hreads
      | drained h =>
        rw [hlast] at h
        cases h
    | followSign h | timeOut h => rcases h with h | h <;> cases h.symm.trans hlast
    | takeMessage h | takeError h =>
      rw [hlast] at h
      cases h
    | join h | enter h | takeReturned h | choose h | park h | handOver h | report h | giveBack h =>
      cases h.symm.trans hlast
  · obtain rfl := hadvances.of_ended hended
    exact .inr ⟨hnone, hended, hslot⟩

/-- The run still looks for errors. -/
theorem looks (h : l.Leaves error earlier) (hattended : l.Attended errorsOpen) :
    errorsOpen = true := by
  by_contra hclosed
  obtain ⟨hended, hempty⟩ := hattended.closed (Bool.eq_false_of_not_eq_true hclosed)
  rcases h with ⟨hlast, -⟩ | ⟨-, -, hslot⟩
  · cases hended.symm.trans hlast
  · cases hempty.symm.trans hslot

/-- A run that does not take the error leaves it where it is, and one that does ends with it. A run
that looks at its messages alone may overlook it. -/
theorem reads (h : l.Leaves error earlier) (hattended : l.Attended errorsOpen)
    (hopen : phase.errorsOpen? = some errorsOpen) (hreads : phase.Reads alone l phase' l') :
    phase'.IsHandling ∧ l'.Leaves error earlier ∨
      (∃ result, phase'.outcome? = some result ∧ IsDueTo (earlier.getD error) result) ∨
      alone ∧ phase = .polling true ∧ phase'.outcome? = some (.error .streamClosed) ∧
        l.slot = none ∧ l.forwarder = .ended ∧ l.errorSlot = some (earlier.getD error) := by
  have hlooks := h.looks hattended
  cases hreads with
  | goOn => exact .inl ⟨Phase.isHandling_of_errorsOpen? hopen, h⟩
  | stop => exact .inr (.inl ⟨.ok (), rfl, .inr (.inl rfl)⟩)
  | @error text htext =>
    refine .inr (.inl ⟨.error (.transport text), rfl, .inl ?_⟩)
    rcases h with ⟨-, hslot⟩ | ⟨hnone, -, hslot⟩
    · rw [← hslot, htext, Option.getD_some]
    · rw [hnone, Option.getD_none, Option.some.inj (htext.symm.trans hslot)]
  | errorsEnded hempty hended =>
    rcases h with ⟨hlast, -⟩ | ⟨-, -, hslot⟩
    · cases hended.symm.trans hlast
    · cases hempty.symm.trans hslot
  | message => exact .inl ⟨trivial, h⟩
  | messagesEnded => cases hlooks.symm.trans (Option.some.inj hopen).symm
  | errorsMissed halone hempty hended =>
    rcases h with ⟨hlast, -⟩ | ⟨hnone, -, hslot⟩
    · cases hended.symm.trans hlast
    · exact .inr (.inr ⟨halone, rfl, rfl, hempty, hended, by rw [hnone, hslot, Option.getD_none]⟩)
  | finish => exact .inl ⟨trivial, h⟩
  | settle hupToSign => exact .inl ⟨trivial, h.sameUpToSign hupToSign⟩
  | giveUp => exact .inr (.inl ⟨_, rfl, .inr (.inr ⟨_, rfl⟩)⟩)

end Leaves

end Lane

/-! ## Any event -/

namespace Worker

variable {w w' : Worker} {n : Nat} {r : WorkerRun} {e : Event} {events : List Event} {l : Lane}
  {error : String} {earlier : Option String}

/-- What is known of a worker whose runs may overlap. -/
structure Steady (w : Worker) : Prop where
  signsKept : w.broker.queueState.SignsKept
  ownership : Ownership w.broker.register w.profiledRuns
  /-- Each run that handles messages finds what it needs in its lane. -/
  attended : ∀ (n : Nat) (r : WorkerRun) (errorsOpen : Bool), w.runs[n]? = some r →
    r.phase.errorsOpen? = some errorsOpen → ∃ l, w.broker.lanes[r.lane]? = some l ∧
    l.Attended errorsOpen

namespace Steady

theorem occur (h : w.Steady) (hoccur : w.occur e = some w') : w'.Steady where
  signsKept := signsKept_of_occur h.signsKept hoccur
  ownership := h.ownership.registerStep (registerStep_of_occur hoccur)
  attended n r' errorsOpen' hr' hopen' := by
    have hhandling' := Phase.isHandling_of_errorsOpen? hopen'
    rcases handling_before hoccur (getElem?_profiledRuns hr') hhandling' with
      ⟨r, hr, hhandling⟩ | ⟨limit, hpolling, hlane⟩
    · obtain ⟨errorsOpen, hopen⟩ := Phase.exists_of_isHandling hhandling
      obtain ⟨l, hl, hattended⟩ := h.attended n r errorsOpen hr hopen
      obtain ⟨phase, l', hprofiled, hl', hmeets⟩ :=
        happens_of_occur h.signsKept h.ownership hr hhandling hl hoccur
      obtain hsame := Option.some.inj ((getElem?_profiledRuns hr').symm.trans hprofiled)
      have hlane : r'.lane = r.lane := congrArg (fun q => q.state.lane) hsame
      have hphase : r'.phase = phase := congrArg (fun q => q.state.phase) hsame
      rw [hphase] at hopen'
      refine ⟨l', hlane ▸ hl', ?_⟩
      rcases hmeets with ⟨rfl, hupToSign | hadvances⟩ | hreads
      · obtain rfl := Option.some.inj (hopen.symm.trans hopen')
        exact hattended.sameUpToSign hupToSign
      · obtain rfl := Option.some.inj (hopen.symm.trans hopen')
        exact hattended.advances hadvances
      · exact hattended.reads hopen hreads hopen'
    · change r'.phase = .polling true at hpolling
      rw [hpolling] at hopen'
      obtain rfl := Option.some.inj hopen'
      exact ⟨_, hlane, Lane.attended_start n limit⟩

theorem after (h : w.Steady) (hafter : w.after events = some w') : w'.Steady :=
  foldlM_induction (motive := Steady) hafter h fun _ _ _ _ hsteady => hsteady.occur

end Steady

theorem steady_ofCapacity? {capacity : Nat} {b : Broker}
    (h : Broker.ofCapacity? capacity = some b) :
    ({ broker := b } : Worker).Steady where
  signsKept := Ledger.signsKept_ofCapacity? h
  ownership := ownership_of_no_runs b
  attended n r _ hr := by simp at hr

/-- How a run stands whose forwarder has given up with an error. -/
def Warned (w : Worker) (n : Nat) (error : String) (earlier : Option String) : Prop :=
  ∃ r, w.runs[n]? = some r ∧
    ((r.phase.IsHandling ∧ ∃ l, w.broker.lanes[r.lane]? = some l ∧ l.Leaves error earlier) ∨
      ∃ result, r.phase.outcome? = some result ∧ IsDueTo (earlier.getD error) result)

/-- Whether a run that looks at its messages alone overlooks an error: they have ended, and the
error is in the slot. -/
def Overlooks (w : Worker) (n : Nat) (error : String) : Prop :=
  ∃ r l, w.runs[n]? = some r ∧ r.phase = .polling true ∧ r.upNext = .messages ∧
    w.broker.lanes[r.lane]? = some l ∧ l.slot = none ∧ l.forwarder = .ended ∧
    l.errorSlot = some error

/-- Whether a run overlooks an error in one of several events. -/
def OverlooksAmong (w : Worker) (n : Nat) (error : String) (events : List Event) : Prop :=
  ∃ before after w', events = before ++ .glance n :: after ∧ w.after before = some w' ∧
    w'.Overlooks n error

/-- A run whose forwarder has given up stays warned, unless it overlooks the error. -/
theorem Warned.occur (h : w.Warned n error earlier) (hsteady : w.Steady)
    (hoccur : w.occur e = some w') :
    w'.Warned n error earlier ∨ e = .glance n ∧ w.Overlooks n (earlier.getD error) ∧
      ∃ r', w'.runs[n]? = some r' ∧ r'.phase.outcome? = some (.error .streamClosed) := by
  obtain ⟨r, hr, ⟨hhandling, l, hl, hleaves⟩ | ⟨result, hresult, hdue⟩⟩ := h
  · obtain ⟨errorsOpen, hopen⟩ := Phase.exists_of_isHandling hhandling
    obtain ⟨x, hx, hattended⟩ := hsteady.attended n r errorsOpen hr hopen
    obtain rfl := Option.some.inj (hl.symm.trans hx)
    obtain ⟨phase, l', hprofiled, hl', hmeets⟩ :=
      happens_of_occur hsteady.signsKept hsteady.ownership hr hhandling hl hoccur
    obtain ⟨r', hr', hsame⟩ := exists_of_profiledRuns hprofiled
    have hlane : r'.lane = r.lane := congrArg (fun q => q.state.lane) hsame
    have hphase : r'.phase = phase := congrArg (fun q => q.state.phase) hsame
    have hwarned (hstays : phase.IsHandling ∧ l'.Leaves error earlier ∨
        ∃ result, phase.outcome? = some result ∧ IsDueTo (earlier.getD error) result) :
        w'.Warned n error earlier := by
      refine ⟨r', hr', ?_⟩
      rw [hphase, hlane]
      exact hstays.imp_left fun ⟨hhandling', hleaves'⟩ => ⟨hhandling', l', hl', hleaves'⟩
    rcases hmeets with ⟨rfl, hupToSign | hadvances⟩ | hreads
    · exact .inl (hwarned (.inl ⟨hhandling, hleaves.sameUpToSign hupToSign⟩))
    · exact .inl (hwarned (.inl ⟨hhandling, hleaves.advances hattended hadvances⟩))
    · rcases hleaves.reads hattended hopen hreads with hstays | hdue |
        ⟨⟨he, hnext⟩, hpolling, hclosed, hslot, hended, herror⟩
      · exact .inl (hwarned (.inl hstays))
      · exact .inl (hwarned (.inr hdue))
      · exact .inr ⟨he, ⟨r, l, hr, hpolling, hnext, hl, hslot, hended, herror⟩, r', hr',
          hphase ▸ hclosed⟩
  · obtain ⟨r', hr', hresult'⟩ := outcome?_after hoccur hr hresult
    exact .inl ⟨r', hr', .inr ⟨result, hresult', hdue⟩⟩

/-- The result of a run that is over with its streams stands, whatever happens. -/
theorem outcome?_after_all (hafter : w.after events = some w') (hr : w.runs[n]? = some r)
    {result : RunResult} (hresult : r.phase.outcome? = some result) :
    ∃ r', w'.runs[n]? = some r' ∧ r'.phase.outcome? = some result :=
  foldlM_induction (motive := fun w => ∃ r, w.runs[n]? = some r ∧
    r.phase.outcome? = some result) hafter
    ⟨r, hr, hresult⟩ fun _ _ _ _ ⟨_, hr, hresult⟩ hstep => outcome?_after hstep hr hresult

theorem after_cons (w : Worker) (e : Event) (events : List Event) :
    w.after (e :: events) = (w.occur e).bind fun w => w.after events := List.foldlM_cons

theorem Warned.after (h : w.Warned n error earlier) (hsteady : w.Steady)
    (hafter : w.after events = some w') :
    w'.Warned n error earlier ∨ w.OverlooksAmong n (earlier.getD error) events ∧
      ∃ r', w'.runs[n]? = some r' ∧ r'.phase.outcome? = some (.error .streamClosed) := by
  induction events generalizing w with
  | nil =>
    obtain rfl := Option.some.inj hafter
    exact .inl h
  | cons e events ih =>
    rw [after_cons] at hafter
    obtain ⟨w₁, hoccur, hrest⟩ := Option.bind_eq_some_iff.mp hafter
    rcases h.occur hsteady hoccur with hwarned | ⟨rfl, hoverlooks, r₁, hr₁, hclosed⟩
    · refine (ih hwarned (hsteady.occur hoccur) hrest).imp_right fun ⟨hamong, hresult⟩ =>
        ⟨?_, hresult⟩
      obtain ⟨before, after, w₂, rfl, hbefore, hoverlooks⟩ := hamong
      refine ⟨e :: before, after, w₂, rfl, ?_, hoverlooks⟩
      rw [after_cons, hoccur, Option.bind_some, hbefore]
    · exact .inr ⟨⟨[], events, w, rfl, rfl, hoverlooks⟩, outcome?_after_all hrest hr₁ hclosed⟩

end Worker

/-! ## To the end of a run -/

namespace Broker

variable {b : Broker} {n : Nat} {l : Lane} {error : String} {earlier : Option String}

/-- After a turn of its forwarder the run finds an error in the slot. -/
theorem errorSlot_advance (hl : b.lanes[n]? = some l) (hleaves : l.Leaves error earlier)
    {errorsOpen : Bool} (hattended : l.Attended errorsOpen) (favourNew : Bool) :
    ∃ l', (b.advance n favourNew).1.lanes[n]? = some l' ∧
      l'.errorSlot = some (earlier.getD error) := by
  have hstays (hstep : (b.advance n favourNew).1 = b)
      (hslot : l.errorSlot = some (earlier.getD error)) :
      ∃ l', (b.advance n favourNew).1.lanes[n]? = some l' ∧
        l'.errorSlot = some (earlier.getD error) :=
    ⟨l, hstep.symm ▸ hl, hslot⟩
  rcases hleaves with ⟨hlast, hslot⟩ | ⟨hnone, hended, hslot⟩
  · cases earlier with
    | none =>
      exact ⟨_, advance_last hl hattended.aborted hattended.readsErrors hslot hlast favourNew, rfl⟩
    | some text =>
      refine hstays ?_ hslot
      simp [advance, hl, hattended.aborted, proceed, hlast, report, hattended.readsErrors, hslot]
  · refine hstays ?_ (by rw [hnone, hslot, Option.getD_none])
    simp [advance, hl, hattended.aborted, proceed, hended]

theorem hasEnded_finish (b : Broker) (lane : Nat) (l : Lane) : (b.finish lane l).hasEnded lane := by
  have hended (b' : Broker) (t : Task) : ((b'.setForwarder lane .ended).wake t).hasEnded lane := by
    have hlanes :
        ((b'.setForwarder lane .ended).wake t).lanes = (b'.setForwarder lane .ended).lanes :=
      congrArg Core.lanes (core_wake _ t)
    rw [hasEnded, hlanes, setForwarder, modifyLane, List.getElem?_modify_eq]
    cases b'.lanes[lane]? <;> rfl
  exact hended _ _

/-- A forwarder that is asked to end does so when it has its turn. -/
theorem hasEnded_advance (haborted : ∀ l, b.lanes[n]? = some l → l.aborted = true)
    (favourNew : Bool) :
    (b.advance n favourNew).1.hasEnded n := by
  cases hl : b.lanes[n]? with
  | none => simp [advance, hl, hasEnded]
  | some l =>
    cases hended : l.forwarder.isEnded with
    | false =>
      have hstep : (b.advance n favourNew).1 = b.finish n l := by
        simp [advance, hl, haborted l hl, hended]
      rw [hstep]
      exact hasEnded_finish b n l
    | true =>
      have hforwarder : l.forwarder = .ended := by
        cases hforwarder : l.forwarder with
        | ended => rfl
        | _ =>
          rw [hforwarder] at hended
          cases hended
      have hstep : (b.advance n favourNew).1 = b := by
        simp [advance, hl, proceed, hforwarder, Forwarder.isEnded]
      rw [hstep, hasEnded, hl]
      exact hended

/-- A consumer that begins to close asks its forwarder to end. -/
theorem aborted_abort {consumer : Nat}
    (hlane : (b.consumers[consumer]?).bind Consumer.lane = some n)
    (hl : (b.abort consumer).lanes[n]? = some l) : l.aborted = true := by
  have hasked {b' : Broker}
      (hl : (b'.modifyLane n fun l => { l with aborted := true }).lanes[n]? = some l) :
      l.aborted = true := by
    rw [modifyLane, List.getElem?_modify_eq] at hl
    obtain ⟨x, -, rfl⟩ := Option.map_eq_some_iff.mp hl
    rfl
  unfold abort at hl
  rw [hlane] at hl
  simp only at hl
  split at hl
  · have hlanes (b' : Broker) (t : Task) : (b'.wake t).lanes = b'.lanes :=
      congrArg Core.lanes (core_wake b' t)
    rw [hlanes] at hl
    exact hasked hl
  · exact hasked hl

end Broker

namespace Worker

variable {w w' : Worker} {n : Nat} {r : WorkerRun} {l : Lane} {error : String}
  {earlier : Option String}

/-- A run gets the answer that it has asked for. -/
theorem answered {b : Broker} {q : WorkerRun} {a : Answer Delivery} {turn : Turn Delivery}
    (hr : w.runs[n]? = some r) (hturn : q.phase.step q.profile b.now a = some turn) :
    ∃ w' r', (w.onto b).answer n q a = some w' ∧ w'.broker.core = b.core ∧ w'.runs[n]? = some r' ∧
      r'.phase = turn.phase ∧ r'.lane = q.lane ∧ r'.consumer = q.consumer := by
  obtain ⟨hlt, -⟩ := List.getElem?_eq_some_iff.mp hr
  have hprepare (x : WorkerRun) : x.prepare.phase = x.phase ∧ x.prepare.lane = x.lane ∧
      x.prepare.consumer = x.consumer := by
    unfold WorkerRun.prepare
    split <;> exact ⟨rfl, rfl, rfl⟩
  obtain ⟨hphase, hlane, hconsumer⟩ := hprepare (q.take turn)
  refine ⟨_, (q.take turn).prepare, Option.map_eq_some_iff.mpr ⟨turn, hturn, rfl⟩, rfl, ?_, hphase,
    hlane, hconsumer⟩
  show (w.runs.modify n _)[n]? = _
  rw [List.getElem?_modify_eq, hr]
  rfl

/-- A run that finds an error in the slot is over with its streams. -/
theorem stepRun_of_error (hr : w.runs[n]? = some r) (hphase : r.phase = .polling true)
    (hstop : r.seesStop = false) (hl : w.broker.lanes[r.lane]? = some l) {text : String}
    (hslot : l.errorSlot = some text) :
    ∃ w' r', w.stepRun n = some w' ∧ w'.runs[n]? = some r' ∧
      r'.phase = .releasing (.error (.transport text)) ∧ r'.lane = r.lane := by
  have hpick : (w.view r).pick true = some (.error text) :=
    View.pick_eq_error.mpr ⟨hstop, rfl, (Broker.offeredError_eq_item hl).mpr hslot⟩
  obtain ⟨w', r', hanswer, -, hr', hphase', hlane, -⟩ := answered
    (b := takeChoice w.broker r.lane (.error text)) (q := r) (a := .poll (w.view r))
    hr (by rw [hphase]; rfl)
  refine ⟨w', r', ?_, hr', ?_, hlane⟩
  · simp only [stepRun, hr, hphase, pollFor, actOn, hpick]
    exact hanswer
  · rw [hphase', hpick]
    rfl

/-- It lets go of its streams then, and asks its forwarder to end. -/
theorem stepRun_of_releasing (howned : Ownership w.broker.register w.profiledRuns)
    (hr : w.runs[n]? = some r) {result : RunResult} (hphase : r.phase = .releasing result) :
    ∃ w' r', w.stepRun n = some w' ∧ w'.runs[n]? = some r' ∧ r'.phase = .closing result ∧
      r'.lane = r.lane ∧ ∀ l, w'.broker.lanes[r.lane]? = some l → l.aborted = true := by
  have hlane := lane_of_hasLane howned hr (by rw [hphase]; trivial)
  obtain ⟨w', r', hanswer, hcore, hr', hphase', hlane', -⟩ := answered
    (b := ((w.broker.dropErrors r.lane).dropMessages r.lane).abort r.consumer)
    (q := r) (a := .release) hr (by rw [hphase]; rfl)
  refine ⟨w', r', ?_, hr', hphase', hlane', fun l hl => ?_⟩
  · simp only [stepRun, hr, hphase, releaseFor]
    exact hanswer
  · have hlanes : w'.broker.lanes =
        (((w.broker.dropErrors r.lane).dropMessages r.lane).abort r.consumer).lanes :=
          congrArg Core.lanes hcore
    exact Broker.aborted_abort hlane (hlanes ▸ hl)

/-- It closes its consumer when its forwarder has ended. -/
theorem stepRun_of_closing (hr : w.runs[n]? = some r) {result : RunResult}
    (hphase : r.phase = .closing result) (hended : w.broker.hasEnded r.lane) :
    ∃ w' r', w.stepRun n = some w' ∧ w'.runs[n]? = some r' ∧ r'.phase = .stopped result := by
  obtain ⟨w', r', hanswer, -, hr', hphase', -, -⟩ := answered (b := w.broker.close) (q := r)
    (a := .close (.ok ())) hr (by rw [hphase]; rfl)
  refine ⟨w'.onto (w'.broker.dropConsumer r.consumer), r', ?_, hr', hphase'⟩
  simp only [stepRun, hr, hphase, closeFor, hended, if_true, hanswer, Option.map_some]

/-- The turns that a run and its forwarder take until the run has ended, once it looks around. -/
def lastTurns (n lane : Nat) (favourNew : Bool) : List Event :=
  [.forward lane favourNew, .run n, .run n, .forward lane favourNew, .run n]

theorem after_cons_of_occur {e : Event} (h : w.occur e = some w') (events : List Event) :
    w.after (e :: events) = w'.after events := by
  rw [after_cons, h, Option.bind_some]

/-- A turn of a forwarder leaves the runs as they are. -/
theorem occur_forward (w : Worker) (lane : Nat) (favourNew : Bool) :
    ∃ w', w.occur (.forward lane favourNew) = some w' ∧ w'.runs = w.runs ∧
      w'.broker = (w.broker.advance lane favourNew).1 := ⟨_, rfl, rfl, rfl⟩

/-- A run that looks around and is not asked to stop takes these turns to its end. -/
theorem ends_after (hsteady : w.Steady) (hr : w.runs[n]? = some r) {errorsOpen : Bool}
    (hphase : r.phase = .polling errorsOpen) (hstop : r.seesStop = false)
    (hl : w.broker.lanes[r.lane]? = some l) (hleaves : l.Leaves error earlier) (favourNew : Bool) :
    ∃ w' r', w.after (lastTurns n r.lane favourNew) = some w' ∧ w'.runs[n]? = some r' ∧
      r'.phase = .stopped (.error (.transport (earlier.getD error))) := by
  obtain ⟨x, hx, hattended⟩ := hsteady.attended n r errorsOpen hr (by rw [hphase]; rfl)
  obtain rfl := Option.some.inj (hl.symm.trans hx)
  obtain rfl := hleaves.looks hattended
  -- The forwarder puts its error in the slot, if that is free.
  obtain ⟨w₁, hfirst, hruns₁, hbroker₁⟩ := w.occur_forward r.lane favourNew
  obtain ⟨l₁, hl₁, hslot⟩ := Broker.errorSlot_advance hl hleaves hattended favourNew
  rw [← hbroker₁] at hl₁
  rw [← hruns₁] at hr
  obtain ⟨w₂, r₂, hstep₂, hr₂, hphase₂, hlane₂⟩ := stepRun_of_error hr hphase hstop hl₁ hslot
  have hoccur₂ : w₁.occur (.run n) = some w₂ := hstep₂
  have hsteady₂ := (hsteady.occur hfirst).occur hoccur₂
  obtain ⟨w₃, r₃, hstep₃, hr₃, hphase₃, hlane₃, haborted⟩ :=
    stepRun_of_releasing hsteady₂.ownership hr₂ hphase₂
  have hoccur₃ : w₂.occur (.run n) = some w₃ := hstep₃
  -- Otherwise it ends now because it is asked to.
  obtain ⟨w₄, hlast, hruns₄, hbroker₄⟩ := w₃.occur_forward r.lane favourNew
  rw [hlane₂] at haborted hlane₃
  have hended : w₄.broker.hasEnded r₃.lane := by
    rw [hlane₃, hbroker₄]
    exact Broker.hasEnded_advance haborted favourNew
  rw [← hruns₄] at hr₃
  obtain ⟨w₅, r₅, hstep₅, hr₅, hphase₅⟩ := stepRun_of_closing hr₃ hphase₃ hended
  have hoccur₅ : w₄.occur (.run n) = some w₅ := hstep₅
  refine ⟨w₅, r₅, ?_, hr₅, hphase₅⟩
  rw [lastTurns, after_cons_of_occur hfirst, after_cons_of_occur hoccur₂,
    after_cons_of_occur hoccur₃, after_cons_of_occur hlast, after_cons_of_occur hoccur₅]
  rfl

/-- What a run has to expect whose forwarder has given up, where `error` is the first error that it
finds. -/
structure Expects (w : Worker) (n : Nat) (error : String) : Prop where
  /-- It goes on handling messages, or its result is due to the error, or it has overlooked the
  error, and finds its stream closed. -/
  always : ∀ (events : List Event) (w' : Worker), w.after events = some w' →
    ∃ r, w'.runs[n]? = some r ∧ (r.phase.IsHandling ∨ ∃ result, r.phase.outcome? = some result ∧
      (IsDueTo error result ∨ result = .error .streamClosed ∧ w.OverlooksAmong n error events))
  /-- Whenever it looks around, and is not asked to stop, a few turns take it to its end with that
  error. -/
  ends : ∀ (events : List Event) (w' : Worker) (r : WorkerRun) (errorsOpen favourNew : Bool),
    w.after events = some w' → w'.runs[n]? = some r → r.phase = .polling errorsOpen →
    r.seesStop = false →
      ∃ w'' r', w'.after (lastTurns n r.lane favourNew) = some w'' ∧ w''.runs[n]? = some r' ∧
        r'.phase = .stopped (.error (.transport error))

theorem Warned.expects (h : w.Warned n error earlier) (hsteady : w.Steady) :
    w.Expects n (earlier.getD error) where
  always events w' hafter := by
    rcases h.after hsteady hafter with ⟨r, hr, ⟨hhandling, -⟩ | ⟨result, hresult, hdue⟩⟩ |
      ⟨hamong, r, hr, hclosed⟩
    · exact ⟨r, hr, .inl hhandling⟩
    · exact ⟨r, hr, .inr ⟨result, hresult, .inl hdue⟩⟩
    · exact ⟨r, hr, .inr ⟨_, hclosed, .inr ⟨rfl, hamong⟩⟩⟩
  ends events w' r errorsOpen favourNew hafter hr hphase hstop := by
    have hopen : r.phase.outcome? = none := by rw [hphase]; rfl
    rcases h.after hsteady hafter with ⟨x, hx, ⟨-, l, hl, hleaves⟩ | ⟨result, hresult, -⟩⟩ |
      ⟨-, x, hx, hclosed⟩
    · obtain rfl := Option.some.inj (hx.symm.trans hr)
      exact ends_after (hsteady.after hafter) hr hphase hstop hl hleaves favourNew
    · obtain rfl := Option.some.inj (hx.symm.trans hr)
      cases hopen.symm.trans hresult
    · obtain rfl := Option.some.inj (hx.symm.trans hr)
      cases hopen.symm.trans hclosed

/-- Forwarders give up when they have waited for their limit without an envelope, and neither
earlier nor later; and a run whose forwarder has given up fails with the error that this one leaves
it, unless it overlooks it. -/
theorem times_out {capacity : Nat} {b : Broker} (hopen : Broker.ofCapacity? capacity = some b) :
    (∀ (events : List Broker.Event) (v : WaitLog), ({ broker := b } : WaitLog).run events = some v →
      v.Timely ∧ (({ broker := b } : WaitLog).punctual events → v.Exact)) ∧
    ∀ (events : List Event) (w : Worker) (n : Nat) (r : WorkerRun) (l : Lane),
      ({ broker := b } : Worker).after events = some w → w.runs[n]? = some r → r.phase.IsHandling →
      w.broker.lanes[r.lane]? = some l → l.forwarder.isLast →
        ∃ limit, l.limit = some limit ∧
        w.Expects n (l.errorSlot.getD (Broker.idleError limit)) := by
  refine ⟨fun events v hrun => ?_, fun events w n r l hafter hr hhandling hl hlast => ?_⟩
  · have hfresh := WaitLog.sound_ofCapacity? hopen
    have hsound := WaitLog.sound_run hfresh hrun
    refine ⟨hsound.timely, fun hpunctual => ?_⟩
    exact (WaitLog.onTime_run (WaitLog.onTime_ofCapacity? hopen) hfresh hpunctual hrun).exact hsound
  · have hsteady := (steady_ofCapacity? hopen).after hafter
    obtain ⟨errorsOpen, herrors⟩ := Phase.exists_of_isHandling hhandling
    obtain ⟨x, hx, hattended⟩ := hsteady.attended n r errorsOpen hr herrors
    obtain rfl := Option.some.inj (hl.symm.trans hx)
    cases hforwarder : l.forwarder with
    | reporting error last =>
      rw [hforwarder] at hlast
      cases last with
      | false => cases hlast
      | true =>
        obtain ⟨limit, hlimit, rfl⟩ := hattended.last error hforwarder
        have hwarned : w.Warned n (Broker.idleError limit) l.errorSlot :=
          ⟨r, hr, .inl ⟨hhandling, l, hl, .inl ⟨hforwarder, rfl⟩⟩⟩
        exact ⟨limit, hlimit, hwarned.expects hsteady⟩
    | _ =>
      rw [hforwarder] at hlast
      cases hlast

/-- A run whose consumer waits for fifty milliseconds at most, and nobody publishes anything. -/
theorem times_out_after_fifty :
    let waits : List Broker.Event :=
      [.create, .setTimeout 0 (.ofMillis 50), .consume 0 0, .forward 0 false, .forward 0 false,
        .forward 0 false, .forward 0 false, .setClock 50, .forward 0 false]
    let events : List Event :=
      [.start ⟨"c", "p", .nackExit, 0, .zero⟩ (.accepting "p") (.ofBool false), .run 0,
        .setTimeout 0 (.ofMillis 50), .run 0, .forward 0 false, .forward 0 false, .forward 0 false,
        .forward 0 false, .setClock 50, .forward 0 false]
    ∃ b, Broker.ofCapacity? 1 = some b ∧
      (∃ v, ({ broker := b } : WaitLog).run waits = some v ∧ v.Timely ∧ v.Exact ∧ v.gaveUp = [0]) ∧
      ∃ w, ({ broker := b } : Worker).after events = some w ∧
        w.Expects 0 "no message received within 50ms" := by
  intro waits events
  obtain ⟨htransport, hruns⟩ := @times_out 1 { capacity := 1 } rfl
  refine ⟨{ capacity := 1 }, rfl, ?_, ?_⟩
  · obtain ⟨htimely, hexact⟩ := htransport waits _ rfl
    exact ⟨_, rfl, htimely, hexact (by decide +kernel), rfl⟩
  · have hgaveUp : ∃ w r l, ({ broker := { capacity := 1 } } : Worker).after events = some w ∧
        w.runs[0]? = some r ∧ r.phase.IsHandling ∧ w.broker.lanes[r.lane]? = some l ∧
        l.forwarder.isLast ∧
        l.limit = some (.ofMillis 50) ∧ l.errorSlot = none := by
      refine ⟨_, _, _, rfl, rfl, ?_, rfl, rfl, rfl, rfl⟩
      trivial
    obtain ⟨w, r, l, hafter, hr, hhandling, hl, hlast, hlimit, hslot⟩ := hgaveUp
    obtain ⟨limit, hlimit', hexpects⟩ := hruns events w 0 r l hafter hr hhandling hl hlast
    obtain rfl := Option.some.inj (hlimit.symm.trans hlimit')
    have htext : Broker.idleError (.ofMillis 50) = "no message received within 50ms" := by
      decide +kernel
    rw [hslot, Option.getD_none, htext] at hexpects
    exact ⟨w, hafter, hexpects⟩

/-- Two ways in which the error of a forwarder that gives up is not what it seems. An error with its
words may come from a publisher, without any wait, and then once more from the forwarder. And a run
may look for errors, then its forwarder gives up, and then the run looks at its messages: it finds
its stream closed, and the error is left in the slot. -/
theorem overlooks_timeOut :
    let fails : List Broker.Event :=
      [.create, .setTimeout 0 (.ofMillis 50), .consume 0 0, .fail "no message received within 50ms",
        .forward 0 false, .forward 0 false, .forward 0 false, .forward 0 false, .forward 0 false]
    let waits : List Broker.Event :=
      [.receiveError 0, .forward 0 false, .forward 0 false, .setClock 50, .forward 0 false,
        .forward 0 false]
    let looks : List Event :=
      [.start ⟨"c", "p", .nackExit, 0, .zero⟩ (.accepting "p") (.ofBool false), .run 0,
        .setTimeout 0 (.ofMillis 50), .run 0, .forward 0 false, .forward 0 false, .forward 0 false,
        .forward 0 false, .glance 0, .glance 0, .setClock 50, .forward 0 false, .forward 0 false]
    ∃ b, Broker.ofCapacity? 1 = some b ∧
      (∃ v l v' l', ({ broker := b } : WaitLog).run fails = some v ∧ v.broker.now = 0 ∧
        v.gaveUp = [] ∧
        v.broker.lanes = [l] ∧ l.errorSlot = some "no message received within 50ms" ∧
        v.run waits = some v' ∧ v'.gaveUp = [0] ∧
        v'.broker.lanes = [l'] ∧ l'.errorSlot = some "no message received within 50ms") ∧
      ∃ w w', ({ broker := b } : Worker).after looks = some w ∧
        w.Overlooks 0 "no message received within 50ms" ∧
        w.after [.glance 0, .run 0, .run 0] = some w' ∧
        w'.results = [some (.error .streamClosed)] := by
  intro fails waits looks
  have htext : Broker.idleError (.ofMillis 50) = "no message received within 50ms" := by
    decide +kernel
  refine ⟨{ capacity := 1 }, rfl, ?_, ?_⟩
  · exact ⟨_, _, _, _, rfl, rfl, rfl, rfl, rfl, rfl, rfl, rfl, congrArg some htext⟩
  · exact ⟨_, _, rfl, ⟨_, _, rfl, rfl, rfl, rfl, rfl, rfl, congrArg some htext⟩, rfl, rfl⟩

end Worker

end Courier
