import Courier.Broker.Potential
import Courier.Worker.Basic

/-!
# The potential of a worker

A run has potential as well: what it can still do about its consumer and its messages, whatever its
processor asks for (`Worker.potential`). It pays for the lane that it opens and for the message that
it leaves in its slot, and a request for a consumer that is to fail pays for the next one.

How many acts a processor has in mind for a message is not known before it gets the message. They
are counted when the run begins with them (`Worker.load`), and until they are done the potential
stays as it is. So a turn lowers the potential, or it lowers the load, or it is over
(`Worker.turn_decreases`), and all turns come to an end.
-/

namespace Courier

/-! ## Runs -/

/-- The potential of a run. -/
def Phase.potential : Phase Delivery → Nat
  | .creating _ => 16
  | .retrying _ _ => 17
  | .consuming => 15
  | .polling true => 8
  | .polling false => 7
  | .processing errorsOpen _ _ => (if errorsOpen then 8 else 7) + 2
  | .settling errorsOpen _ _ => (if errorsOpen then 8 else 7) + 1
  | .releasing _ => 6
  | .closing _ => 1
  | .stopped _ => 0

namespace Worker

variable {w w' : Worker} {n : Nat} {r : WorkerRun}

/-- The potential of a worker. -/
def potential (w : Worker) : Nat :=
  w.broker.potential + sumOver (fun r => r.phase.potential) w.runs

/-- How much is left of the errands of all runs. -/
def load (w : Worker) : Nat := sumOver (fun r => r.errand.load) w.runs

/-- The potential after an answer is that of the transport and of the phase which it leads to. -/
theorem potential_answer {r₀ : WorkerRun} {a : Answer Delivery} (hr : w.runs[n]? = some r₀)
    (h : w.answer n r a = some w') :
    ∃ turn, r.phase.step r.profile w.broker.now a = some turn ∧
      w'.potential + r₀.phase.potential = w.potential + turn.phase.potential := by
  obtain ⟨turn, hturn, rfl⟩ := Option.map_eq_some_iff.mp h
  refine ⟨turn, hturn, ?_⟩
  have hphase : (r.take turn).prepare.phase = turn.phase := by
    unfold WorkerRun.prepare
    split <;> rfl
  have hsum := sumOver_modify (fun r : WorkerRun => r.phase.potential)
    (fun _ => (r.take turn).prepare) hr
  rw [hphase] at hsum
  have hbroker :
      ({ w.broker with notices := w.broker.notices ++ turn.notices } : Broker).potential =
      w.broker.potential := rfl
  simp only [potential, modifyRun, hbroker]
  omega

/-- A run whose answer leads it on has paid for what it did to the transport. -/
theorem potential_answer_lt {b : Broker} {r₀ : WorkerRun} {a : Answer Delivery}
    (hr : w.runs[n]? = some r₀) (h : (w.onto b).answer n r a = some w')
    (hpaid : ∀ turn, r.phase.step r.profile b.now a = some turn →
      b.potential + turn.phase.potential < w.broker.potential + r₀.phase.potential) :
    w'.potential < w.potential := by
  obtain ⟨turn, hturn, hsum⟩ := potential_answer (w := w.onto b) hr h
  have hless := hpaid turn hturn
  have hbroker : (w.onto b).potential + w.broker.potential = w.potential + b.potential := by
    simp only [potential, onto]
    omega
  omega

/-! ## Steps -/

theorem decreases_createFor (hr : w.runs[n]? = some r) {attempt : UInt32}
    (hphase : r.phase = .creating attempt) (h : w.createFor n r = some w') :
    w'.potential < w.potential := by
  unfold createFor at h
  have hcreate := Broker.potential_create w.broker
  split at h
  · next b consumer hok =>
    rw [hok] at hcreate
    refine potential_answer_lt hr h fun turn hturn => ?_
    rw [hphase] at hturn ⊢
    obtain rfl := Option.some.inj hturn
    simp [Phase.afterCreate, Phase.potential] at hcreate ⊢
    omega
  · next b cause herror =>
    rw [herror] at hcreate
    refine potential_answer_lt hr h fun turn hturn => ?_
    rw [hphase] at hturn ⊢
    obtain rfl := Option.some.inj hturn
    unfold Phase.afterCreate
    simp at hcreate
    dsimp only
    split <;> simp only [Phase.potential] <;> omega

theorem decreases_retry (hr : w.runs[n]? = some r) {attempt : UInt32} {deadline : Nat}
    (hphase : r.phase = .retrying attempt deadline)
    (hover : r.seesStop || deadline ≤ w.broker.now)
    (h : w.answer n r (.wait r.seesStop) = some w') : w'.potential < w.potential := by
  obtain ⟨turn, hturn, hsum⟩ := potential_answer hr h
  rw [hphase] at hturn hsum
  obtain rfl := Option.some.inj hturn
  unfold Phase.afterWait at hsum
  split at hsum
  · simp only [Phase.potential] at hsum
    omega
  · next hgo =>
    have hdue : deadline ≤ w.broker.now := by simpa [hgo] using hover
    rw [if_pos hdue] at hsum
    simp only [Phase.potential] at hsum
    omega

theorem decreases_consumeFor (hr : w.runs[n]? = some r) (hphase : r.phase = .consuming)
    (h : w.consumeFor n r = some w') : w'.potential < w.potential := by
  unfold consumeFor at h
  have hconsume := Broker.potential_consume_le w.broker r.consumer n
  split at h
  · next b lane hok =>
    rw [hok] at hconsume
    refine potential_answer_lt hr h fun turn hturn => ?_
    rw [hphase] at hturn ⊢
    obtain rfl := Option.some.inj hturn
    simp only [Phase.potential] at hconsume ⊢
    omega
  · next b cause herror =>
    rw [herror] at hconsume
    refine potential_answer_lt hr h fun turn hturn => ?_
    rw [hphase] at hturn ⊢
    obtain rfl := Option.some.inj hturn
    simp only [Phase.potential] at hconsume ⊢
    omega

theorem decreases_pollFor (hr : w.runs[n]? = some r) {errorsOpen : Bool}
    (hphase : r.phase = .polling errorsOpen) (h : w.pollFor n r errorsOpen = some w') :
    w'.potential < w.potential := by
  unfold pollFor actOn at h
  split at h
  · cases h
  next choice hpick =>
  refine potential_answer_lt hr h fun turn hturn => ?_
  rw [hphase] at hturn ⊢
  obtain rfl : Phase.afterPoll _ errorsOpen _ = turn := Option.some.inj hturn
  rw [hpick]
  cases choice with
  | stop => cases errorsOpen <;> simp [takeChoice, Phase.afterPoll, Phase.potential]
  | error cause =>
    rw [takeChoice, Broker.potential_takeError]
    cases errorsOpen <;> simp [Phase.afterPoll, Phase.potential]
  | errorsEnded =>
    obtain ⟨-, rfl, -⟩ := View.pick_eq_errorsEnded.mp hpick
    simp [takeChoice, Phase.afterPoll, Phase.potential]
  | message d =>
    have hoffered : w.broker.offeredMessage r.lane = .item d := View.pick_eq_message hpick
    obtain ⟨l, hl⟩ : ∃ l, w.broker.lanes[r.lane]? = some l := by
      refine Option.ne_none_iff_exists'.mp fun hnone => ?_
      simp [Broker.offeredMessage, hnone] at hoffered
    have htake :=
      Broker.potential_takeMessage hl ((Broker.offeredMessage_eq_item hl).mp hoffered)
    rw [takeChoice]
    cases errorsOpen <;> simp only [Phase.afterPoll, Phase.potential] <;> simp <;> omega
  | messagesEnded => cases errorsOpen <;> simp [takeChoice, Phase.afterPoll, Phase.potential]

/-- What a processor does beyond its errand changes neither potential nor load. -/
theorem potential_perform (w : Worker) (deed : Deed) :
    (w.perform deed).potential = w.potential ∧ (w.perform deed).load = w.load := by
  have hsignal (n : Nat) (f : WorkerRun → WorkerRun) (hphase : ∀ r, (f r).phase = r.phase)
      (herrand : ∀ r, (f r).errand = r.errand) :
      ((w.modifyRun n f).onto (w.broker.wake (.reader n))).potential = w.potential ∧
        ((w.modifyRun n f).onto (w.broker.wake (.reader n))).load = w.load := by
    constructor
    · have hsum := sumOver_modify_of_eq (fun r : WorkerRun => r.phase.potential) (g := f)
        (fun r => congrArg Phase.potential (hphase r)) w.runs n
      simp only [potential, onto, modifyRun, Broker.potential_wake, hsum]
    · exact sumOver_modify_of_eq (fun r : WorkerRun => r.errand.load) (g := f)
        (fun r => congrArg Errand.load (herrand r)) w.runs n
  have hset (r : WorkerRun) (stop : Bool) :
      (r.setSignal stop).phase = r.phase ∧ (r.setSignal stop).errand = r.errand := by
    unfold WorkerRun.setSignal
    split <;> exact ⟨rfl, rfl⟩
  cases deed with
  | setSignal stop =>
    cases hreach : w.reach with
    | none => simp [perform, hreach]
    | some n =>
      simp only [perform, hreach, Option.map_some, Option.getD_some]
      exact hsignal n _ (fun r => (hset r stop).1) fun r => (hset r stop).2
  | abandonSignal =>
    cases hreach : w.reach with
    | none => simp [perform, hreach]
    | some n =>
      simp only [perform, hreach, Option.map_some, Option.getD_some]
      exact hsignal n WorkerRun.abandonSignal (fun _ => rfl) fun _ => rfl
  | _ => exact ⟨rfl, rfl⟩

theorem decreases_processFor (hr : w.runs[n]? = some r) {errorsOpen : Bool} {d : Delivery}
    {since : Nat} (hphase : r.phase = .processing errorsOpen d since)
    (h : w.processFor n r d = some w') :
    w'.potential < w.potential ∨ w'.potential = w.potential ∧ w'.load < w.load := by
  have hact {rest : Errand} (hrest : rest.load < r.errand.load) :
      (w.modifyRun n fun r => { r with errand := rest }).potential = w.potential ∧
        (w.modifyRun n fun r => { r with errand := rest }).load < w.load := by
    constructor
    · have hsum := sumOver_modify_of_eq (fun r : WorkerRun => r.phase.potential)
        (g := fun r => { r with errand := rest }) (fun _ => rfl) w.runs n
      simp only [potential, modifyRun, hsum]
    · have hsum : (w.modifyRun n fun r => { r with errand := rest }).load + r.errand.load =
          w.load + rest.load :=
        sumOver_modify (fun r : WorkerRun => r.errand.load) (fun r => { r with errand := rest }) hr
      omega
  unfold processFor at h
  split at h
  · refine .inl ?_
    obtain ⟨turn, hturn, hsum⟩ := potential_answer hr h
    rw [hphase] at hturn hsum
    obtain rfl : Phase.afterProcess _ _ errorsOpen d _ = turn := Option.some.inj hturn
    unfold Phase.afterProcess at hsum
    split at hsum <;> simp only [Phase.potential] at hsum <;> omega
  · cases h
  · next rest hmove =>
    obtain rfl := Option.some.inj h
    exact .inr (hact (Errand.load_lt_of_move hmove))
  · next rest deed hmove =>
    obtain rfl := Option.some.inj h
    obtain ⟨hpotential, hload⟩ := hact (Errand.load_lt_of_move hmove)
    obtain ⟨hpotential', hload'⟩ :=
      potential_perform (w.modifyRun n fun r => { r with errand := rest }) deed
    exact .inr ⟨hpotential'.trans hpotential, hload' ▸ hload⟩

theorem decreases_settleFor (hr : w.runs[n]? = some r) {errorsOpen : Bool} {d : Delivery}
    {failure : Option String} (hphase : r.phase = .settling errorsOpen d failure)
    (h : w.settleFor n r d failure = some w') : w'.potential < w.potential := by
  refine potential_answer_lt hr h fun turn hturn => ?_
  rw [Broker.potential_dropMessage_settle]
  rw [hphase] at hturn ⊢
  cases failure with
  | none =>
    obtain rfl := Option.some.inj hturn
    cases errorsOpen <;> simp [Phase.afterAccepting, Phase.potential]
  | some failure =>
    obtain rfl := Option.some.inj hturn
    unfold Phase.afterFailing
    cases r.profile.strategy.flow <;> cases errorsOpen <;> simp [Phase.potential]

theorem decreases_releaseFor (hr : w.runs[n]? = some r) {result : RunResult}
    (hphase : r.phase = .releasing result) (h : w.releaseFor n r = some w') :
    w'.potential < w.potential := by
  refine potential_answer_lt hr h fun turn hturn => ?_
  have hdrop := Broker.potential_dropMessages_le (w.broker.dropErrors r.lane) r.lane
  rw [Broker.potential_dropErrors] at hdrop
  rw [Broker.potential_abort]
  rw [hphase] at hturn ⊢
  obtain rfl := Option.some.inj hturn
  simp only [Phase.potential]
  omega

theorem decreases_closeFor (hr : w.runs[n]? = some r) {result : RunResult}
    (hphase : r.phase = .closing result) (h : w.closeFor n r = some w') :
    w'.potential < w.potential := by
  unfold closeFor at h
  split at h
  · obtain ⟨w₁, hclosed, rfl⟩ := Option.map_eq_some_iff.mp h
    have hless : w₁.potential < w.potential := by
      refine potential_answer_lt hr hclosed fun turn hturn => ?_
      rw [hphase] at hturn ⊢
      obtain rfl := Option.some.inj hturn
      have hbroker : w.broker.close.potential = w.broker.potential := rfl
      rw [hbroker]
      simp [Phase.potential]
    exact hless
  · cases h

/-- A step of a run lowers the potential, or leaves it and lowers the load. -/
theorem stepRun_decreases (h : w.stepRun n = some w') :
    w'.potential < w.potential ∨ w'.potential = w.potential ∧ w'.load < w.load := by
  unfold stepRun at h
  split at h
  · cases h
  next r hr =>
  split at h
  · next hphase => exact .inl (decreases_createFor hr hphase h)
  · next hphase =>
    split at h
    · next hover => exact .inl (decreases_retry hr hphase hover h)
    · cases h
  · next hphase => exact .inl (decreases_consumeFor hr hphase h)
  · next hphase => exact .inl (decreases_pollFor hr hphase h)
  · next hphase => exact decreases_processFor hr hphase h
  · next hphase => exact .inl (decreases_settleFor hr hphase h)
  · next hphase => exact .inl (decreases_releaseFor hr hphase h)
  · next hphase => exact .inl (decreases_closeFor hr hphase h)
  · cases h

end Worker

end Courier
