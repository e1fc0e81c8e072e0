import Courier.Proofs.Broker.Conservation
import Courier.Proofs.Run.Metering
import Courier.Proofs.Worker.Settlement

/-!
# The counters of a component over the in-memory transport

Any number of runs may share a queue, and may overlap (`Worker.occur`). Each run that has a message
in process has it to itself, and settles it in one step that is counted once and recorded once
(`Contents.CountsAgree.settle`). So at all times the counters of settled messages say what the
outcomes of the transport say (`Worker.CountsAgree.after`).

`metered` is the account of a component in full: of all calls of its runs, whatever its
collaborators do, and of the outcomes of the in-memory transport.
-/

namespace Courier

/-! ## What readers have -/

/-- Whether messages stay accounted for, and neither readers nor outcomes are concerned. -/
structure Contents.Keeps (s s' : Contents) : Prop where
  sound : ∀ {accepted received}, s.Sound accepted received →
    ∃ accepted', s'.Sound accepted' received
  held : s'.held = s.held
  outcomes : s'.outcomes = s.outcomes

namespace Contents.Keeps

variable {s s' s'' : Contents}

theorem of_eq (h : s' = s) : s.Keeps s' := by
  rw [h]
  exact ⟨fun hsound => ⟨_, hsound⟩, rfl, rfl⟩

theorem trans (h : s.Keeps s') (h' : s'.Keeps s'') : s.Keeps s'' where
  sound hsound := by
    obtain ⟨_, hsound'⟩ := h.sound hsound
    exact h'.sound hsound'
  held := h'.held.trans h.held
  outcomes := h'.outcomes.trans h.outcomes

/-- A forwarder leaves readers alone. -/
theorem of_forwards {lane : Nat} (h : Contents.Forwards lane s s') : s.Keeps s' where
  sound hsound := ⟨_, hsound.forwards h⟩
  held := by
    obtain ⟨s₁, hrefill, hmoves⟩ := h
    exact hmoves.held_eq.trans hrefill.held_eq
  outcomes := h.outcomes_eq

end Contents.Keeps

namespace Broker

theorem keeps_publish (b : Broker) (id : Option String) (payload : Json) :
    b.contents.Keeps (b.publish id payload).1.contents where
  sound hsound := ⟨_, sound_publish hsound id payload⟩
  held := by rw [contents_publish, Contents.held_afterSend]
  outcomes := by rw [contents_publish, Contents.outcomes_afterSend]

theorem keeps_fail (b : Broker) (text : String) : b.contents.Keeps (b.fail text).1.contents where
  sound hsound := ⟨_, sound_fail hsound text⟩
  held := by rw [fail, contents_send, Contents.held_afterSend]
  outcomes := by rw [fail, contents_send, Contents.outcomes_afterSend]

theorem keeps_giveUp (b : Broker) (ticket : Nat) : b.contents.Keeps (b.giveUp ticket).contents where
  sound hsound := ⟨_, hsound.of_parcels_eq (hsound.numbered.giveUp ticket) rfl rfl rfl⟩
  held := rfl
  outcomes := rfl

theorem keeps_consume (b : Broker) (consumer owner : Nat) :
    b.contents.Keeps (b.consume consumer owner).1.contents where
  sound hsound := ⟨_, sound_consume hsound consumer owner⟩
  held := by rcases contents_consume b consumer owner with ⟨error, -, h⟩ | ⟨-, h⟩ <;> rw [h]
  outcomes := by rcases contents_consume b consumer owner with ⟨error, -, h⟩ | ⟨-, h⟩ <;> rw [h]

theorem keeps_dropMessages (b : Broker) (lane : Nat) :
    b.contents.Keeps (b.dropMessages lane).contents where
  sound hsound := ⟨_, sound_dropMessages hsound lane⟩
  held := by rw [contents_dropMessages, Contents.held_dropSlot]
  outcomes := by
    rw [contents_dropMessages, Contents.dropSlot]
    cases (b.contents.lanes[lane]?).bind LaneContents.slot <;> rfl

/-- A reader who settles a message and lets go of it leaves other messages alone, and one outcome is
recorded. -/
theorem settle_dropMessage {b : Broker} {d : Delivery} (hd : ⟨d, false⟩ ∈ b.held)
    (disposition : Disposition) :
    (∀ g ∈ b.held, g.delivery.seq ≠ d.seq →
        g ∈ ((b.settle d.seq disposition).dropMessage d.seq).held) ∧
      ∃ id, ((b.settle d.seq disposition).dropMessage d.seq).outcomes =
        b.outcomes ++ [⟨d.seq, id, disposition⟩] := by
  obtain ⟨f, hfind⟩ : ∃ f, (b.held.find? fun h => h.delivery.seq = d.seq) = some f := by
    refine Option.isSome_iff_exists.mp (List.find?_isSome.mpr ⟨⟨d, false⟩, hd, ?_⟩)
    exact decide_eq_true rfl
  have hsettled := contents_settle hfind disposition
  have hheld : (b.settle d.seq disposition).held =
      b.held.map fun h => if h.delivery.seq = d.seq then { h with settled := true } else h :=
    congrArg Contents.held hsettled
  have houtcomes : (b.settle d.seq disposition).outcomes =
      b.outcomes ++ [⟨d.seq, f.delivery.id, disposition⟩] := congrArg Contents.outcomes hsettled
  obtain ⟨f', hfind'⟩ :
      ∃ f', ((b.settle d.seq disposition).held.find? fun h => h.delivery.seq = d.seq) =
        some f' := by
    refine Option.isSome_iff_exists.mp (List.find?_isSome.mpr ⟨⟨d, true⟩, ?_, decide_eq_true rfl⟩)
    rw [hheld]
    refine List.mem_map.mpr ⟨⟨d, false⟩, hd, ?_⟩
    rw [if_pos rfl]
  have hdropped := contents_dropMessage hfind'
  have hheld' : ((b.settle d.seq disposition).dropMessage d.seq).held =
      (b.settle d.seq disposition).held.filter fun h => h.delivery.seq ≠ d.seq := by
    refine (congrArg Contents.held hdropped).trans ?_
    cases f'.settled <;> rfl
  have houtcomes' : ((b.settle d.seq disposition).dropMessage d.seq).outcomes =
      (b.settle d.seq disposition).outcomes := by
    refine (congrArg Contents.outcomes hdropped).trans ?_
    cases f'.settled <;> rfl
  refine ⟨fun g hg hne => ?_, f.delivery.id, houtcomes'.trans houtcomes⟩
  rw [hheld', hheld]
  refine List.mem_filter.mpr ⟨List.mem_map.mpr ⟨g, hg, if_neg hne⟩, decide_eq_true hne⟩

end Broker

/-! ## What runs have -/

/-- The message that a run has in process or is about to settle. -/
def Phase.engaged? : Phase Delivery → Option Delivery
  | .processing _ d _ | .settling _ d _ => some d
  | _ => none

/-- Unless a run receives or settles a message, it has no other message after an answer than before,
and counts no settlement. -/
theorem Phase.quiet_of_stepsTo {p : Profile} {now : Nat} {phase : Phase Delivery}
    {a : Answer Delivery} {turn : Turn Delivery} (h : phase.StepsTo p now a turn)
    (hpoll : ∀ errorsOpen view d, phase = .polling errorsOpen → a = .poll view →
      view.pick errorsOpen ≠ some (.message d)) (hsettle : ∀ result, a ≠ .settle result) :
    (∀ d, turn.phase.engaged? = some d → phase.engaged? = some d) ∧
      ∀ disposition, turn.marks.countP (Gauge.settled disposition).counts = 0 := by
  cases h with
  | received hpick => exact absurd hpick (hpoll _ _ _ rfl rfl)
  | accepted | unaccepted | absorbed | unsettled | rejected | unrejected =>
    exact absurd rfl (hsettle _)
  | succeeded | broke => exact ⟨fun _ hd => hd, fun _ => rfl⟩
  | _ => exact ⟨fun _ hd => (nomatch hd), fun _ => rfl⟩

/-- A run that has settled its message has none, and counts the settlement. -/
theorem Phase.settles_of_stepsTo {p : Profile} {now : Nat} {errorsOpen : Bool} {d : Delivery}
    {failure : Option String} {turn : Turn Delivery}
    (h : (settling errorsOpen d failure).StepsTo p now (.settle (.ok ())) turn) :
    turn.phase.engaged? = none ∧
      ∀ disposition, turn.marks.countP (Gauge.settled disposition).counts =
      if p.dispositionAfter failure = disposition then 1 else 0 := by
  cases h with
  | accepted | absorbed | rejected =>
    refine ⟨rfl, fun disposition => ?_⟩
    rw [List.countP_singleton]
    simp only [Gauge.counts, decide_eq_true_eq]
    rfl

/-- The message that the `i`-th of several runs has. -/
def engagedAt (records : List (Phase Delivery × List Mark)) (i : Nat) : Option Delivery :=
  (records[i]?).bind fun q => q.1.engaged?

theorem engagedAt_set_ne (records : List (Phase Delivery × List Mark)) {n i : Nat}
    (q : Phase Delivery × List Mark) (h : i ≠ n) :
    engagedAt (records.set n q) i = engagedAt records i := by
  rw [engagedAt, List.getElem?_set_ne (Ne.symm h), engagedAt]

theorem engagedAt_set_self {records : List (Phase Delivery × List Mark)} {n : Nat}
    {q q' : Phase Delivery × List Mark} (h : records[n]? = some q) :
    engagedAt (records.set n q') n = q'.1.engaged? := by
  obtain ⟨hlt, -⟩ := List.getElem?_eq_some_iff.mp h
  rw [engagedAt, List.getElem?_set_self hlt, Option.bind_some]

/-- One run makes more marks. -/
theorem perm_flatMap_set {records : List (Phase Delivery × List Mark)} {n : Nat}
    {phase : Phase Delivery} {marks : List Mark} (h : records[n]? = some (phase, marks))
    (phase' : Phase Delivery) (new : List Mark) :
    ((records.set n (phase', marks ++ new)).flatMap Prod.snd).Perm
      (records.flatMap Prod.snd ++ new) := by
  induction records generalizing n with
  | nil => cases h
  | cons q records ih =>
    cases n with
    | zero =>
      obtain rfl := Option.some.inj h
      rw [List.set_cons_zero, List.flatMap_cons, List.flatMap_cons, List.append_assoc,
        List.append_assoc]
      exact List.perm_append_comm.append_left marks
    | succ n =>
      rw [List.set_cons_succ, List.flatMap_cons, List.flatMap_cons, List.append_assoc]
      exact (ih h).append_left q.2

/-- Messages are accounted for, each run that has one has it to itself, and as many settlements were
counted as there are outcomes. -/
structure Contents.CountsAgree (s : Contents) (records : List (Phase Delivery × List Mark)) :
    Prop where
  sound : ∃ accepted received, s.Sound accepted received
  held : ∀ i d, engagedAt records i = some d → ⟨d, false⟩ ∈ s.held
  apart : ∀ i j d e, i ≠ j → engagedAt records i = some d → engagedAt records j = some e →
    d.seq ≠ e.seq
  even : ∀ disposition, (records.flatMap Prod.snd).countP (Gauge.settled disposition).counts =
    s.outcomes.countP fun o => o.disposition = disposition

namespace Contents.CountsAgree

variable {s s' : Contents} {records : List (Phase Delivery × List Mark)} {n : Nat}
  {phase phase' : Phase Delivery} {marks new : List Mark}

theorem keeps (h : s.CountsAgree records) (hkeeps : s.Keeps s') : s'.CountsAgree records where
  sound := by
    obtain ⟨_, received, hsound⟩ := h.sound
    obtain ⟨accepted, hsound'⟩ := hkeeps.sound hsound
    exact ⟨accepted, received, hsound'⟩
  held := hkeeps.held ▸ h.held
  apart := h.apart
  even := hkeeps.outcomes ▸ h.even

/-- A run goes on. What it has, it has had before, or nobody had it; what others have is left to
them; and it counts the settlements that are recorded. -/
theorem step (h : s.CountsAgree records) (hn : records[n]? = some (phase, marks))
    (hsound : ∃ accepted received, s'.Sound accepted received)
    (hothers : ∀ g ∈ s.held, (∀ d, phase.engaged? = some d → g.delivery.seq ≠ d.seq) → g ∈ s'.held)
    (hown : ∀ d, phase'.engaged? = some d → ⟨d, false⟩ ∈ s'.held ∧
      (phase.engaged? = some d ∨ ∀ g ∈ s.held, g.delivery.seq ≠ d.seq))
    (heven : ∀ disposition, (s'.outcomes.countP fun o => o.disposition = disposition) =
      (s.outcomes.countP fun o => o.disposition = disposition) +
        new.countP (Gauge.settled disposition).counts) :
    s'.CountsAgree (records.set n (phase', marks ++ new)) := by
  have hself : engagedAt records n = phase.engaged? := by rw [engagedAt, hn, Option.bind_some]
  -- What the run has now is not what another run has.
  have hapart : ∀ j d e, j ≠ n → phase'.engaged? = some d → engagedAt records j = some e →
      d.seq ≠ e.seq := by
    intro j d e hj hd he
    rcases (hown d hd).2 with hbefore | hfresh
    · exact h.apart n j d e (Ne.symm hj) (hself.trans hbefore) he
    · exact Ne.symm (hfresh _ (h.held j e he))
  refine ⟨hsound, ?held, ?apart, ?even⟩
  case held =>
    intro i d hd
    by_cases hi : i = n
    · subst hi
      rw [engagedAt_set_self hn] at hd
      exact (hown d hd).1
    · rw [engagedAt_set_ne _ _ hi] at hd
      exact hothers _ (h.held i d hd) fun e he => h.apart i n d e hi hd (hself.trans he)
  case apart =>
    intro i j d e hij hd he
    by_cases hi : i = n
    · subst hi
      rw [engagedAt_set_self hn] at hd
      rw [engagedAt_set_ne _ _ (Ne.symm hij)] at he
      exact hapart j d e (Ne.symm hij) hd he
    · rw [engagedAt_set_ne _ _ hi] at hd
      by_cases hj : j = n
      · subst hj
        rw [engagedAt_set_self hn] at he
        exact Ne.symm (hapart i e d hi he hd)
      · rw [engagedAt_set_ne _ _ hj] at he
        exact h.apart i j d e hij hd he
  case even =>
    intro disposition
    rw [(perm_flatMap_set hn phase' new).countP_eq, List.countP_append, h.even, heven]

/-- A run goes on without receiving or settling a message. -/
theorem quiet (h : s.CountsAgree records) (hn : records[n]? = some (phase, marks))
    (hkeeps : s.Keeps s') (hengaged : ∀ d, phase'.engaged? = some d → phase.engaged? = some d)
    (hnone : ∀ disposition, new.countP (Gauge.settled disposition).counts = 0) :
    s'.CountsAgree (records.set n (phase', marks ++ new)) := by
  refine h.step hn (h.keeps hkeeps).sound (fun g hg _ => hkeeps.held ▸ hg) (fun d hd =>
    ?_) fun disposition => ?_
  · have hbefore := hengaged d hd
    refine ⟨hkeeps.held ▸ h.held n d ?_, .inl hbefore⟩
    rw [engagedAt, hn, Option.bind_some, hbefore]
  · rw [hkeeps.outcomes, hnone, Nat.add_zero]

/-- Another run starts. -/
theorem start (h : s.CountsAgree records) (phase : Phase Delivery) (hnone : phase.engaged? = none)
    (hmarks : ∀ disposition, marks.countP (Gauge.settled disposition).counts = 0) :
    s.CountsAgree (records ++ [(phase, marks)]) := by
  have hbefore : ∀ i d, engagedAt (records ++ [(phase, marks)]) i = some d →
      engagedAt records i = some d := by
    intro i d hd
    rcases Nat.lt_trichotomy i records.length with hi | hi | hi
    · rwa [engagedAt, List.getElem?_append_left hi] at hd
    · rw [engagedAt, hi, List.getElem?_concat_length, Option.bind_some, hnone] at hd
      cases hd
    · rw [engagedAt,
        List.getElem?_eq_none (by rw [List.length_append, List.length_singleton]; omega)] at hd
      cases hd
  refine ⟨h.sound, fun i d hd => h.held i d (hbefore i d hd), fun i j d e hij hd he =>
    h.apart i j d e hij (hbefore i d hd) (hbefore j e he), fun disposition => ?_⟩
  rw [List.flatMap_append, List.flatMap_singleton, List.countP_append, hmarks, Nat.add_zero, h.even]

/-- A run receives a message that nobody has. -/
theorem receive (h : s.CountsAgree records) (hn : records[n]? = some (phase, marks))
    (hsound : ∃ accepted received, s'.Sound accepted received) {d : Delivery}
    (hheld : s'.held = s.held ++ [⟨d, false⟩]) (houtcomes : s'.outcomes = s.outcomes)
    (hfresh : ∀ g ∈ s.held, g.delivery.seq ≠ d.seq) (hengaged : phase'.engaged? = some d)
    (hnone : ∀ disposition, new.countP (Gauge.settled disposition).counts = 0) :
    s'.CountsAgree (records.set n (phase', marks ++ new)) := by
  refine h.step hn hsound (fun g hg _ => ?_) (fun e he => ?_) fun disposition => ?_
  · rw [hheld]
    exact List.mem_append_left _ hg
  · obtain rfl := Option.some.inj (hengaged.symm.trans he)
    rw [hheld]
    exact ⟨List.mem_append_right _ (List.mem_singleton_self _), .inr hfresh⟩
  · rw [houtcomes, hnone, Nat.add_zero]

/-- A run settles its message and lets go of it. -/
theorem settle (h : s.CountsAgree records) (hn : records[n]? = some (phase, marks))
    (hsound : ∃ accepted received, s'.Sound accepted received) {d : Delivery} {o : Outcome}
    (hengaged : phase.engaged? = some d)
    (hothers : ∀ g ∈ s.held, g.delivery.seq ≠ d.seq → g ∈ s'.held)
    (houtcomes : s'.outcomes = s.outcomes ++ [o]) (hgone : phase'.engaged? = none)
    (hnew : ∀ disposition, new.countP (Gauge.settled disposition).counts =
      if o.disposition = disposition then 1 else 0) :
    s'.CountsAgree (records.set n (phase', marks ++ new)) := by
  refine h.step hn hsound (fun g hg hne => hothers g hg (hne d hengaged)) (fun e he => ?_)
    fun disposition => ?_
  · exact nomatch hgone.symm.trans he
  · rw [houtcomes, List.countP_append, List.countP_singleton, hnew]
    simp only [decide_eq_true_eq]

end Contents.CountsAgree

/-! ## What happens to runs -/

namespace Worker

variable {w w' : Worker} {n : Nat}

/-- What happens to a worker whose runs may overlap: a run may start at any time. -/
def occur (w : Worker) : Event → Option Worker
  | .start profile processor signal => some (w.start profile processor signal)
  | e => w.apply e

/-- The worker after several events, if they can happen one after the other. -/
def after (w : Worker) (events : List Event) : Option Worker := events.foldlM occur w

/-- Where runs stand, and what they have counted. -/
def records (w : Worker) :
    List (Phase Delivery × List Mark) := w.runs.map fun r => (r.phase, r.marks)

theorem flatMap_records (w : Worker) : w.records.flatMap Prod.snd = w.marks := by
  rw [records, List.flatMap_map]
  rfl

/-- Whether the counters agree with the outcomes, and will. -/
def CountsAgree (w : Worker) : Prop := w.broker.contents.CountsAgree w.records

theorem records_getElem? {r : WorkerRun} (h : w.runs[n]? = some r) :
    w.records[n]? = some (r.phase, r.marks) := by
  rw [records, List.getElem?_map, h, Option.map_some]

/-- A change of a run that leaves alone where it stands and what it has counted. -/
theorem records_modifyRun (w : Worker) (i : Nat) {f : WorkerRun → WorkerRun}
    (h : ∀ r, (f r).phase = r.phase ∧ (f r).marks = r.marks) :
    (w.modifyRun i f).records = w.records :=
  map_modifyRun w i fun r => Prod.ext (h r).1 (h r).2

theorem CountsAgree.of_keeps (h : w.CountsAgree)
    (hkeeps : w.broker.contents.Keeps w'.broker.contents) (hrecords : w'.records = w.records) :
    w'.CountsAgree := by
  rw [CountsAgree, hrecords]
  exact h.keeps hkeeps

/-- An answer takes one run on, and changes nothing about the transport. -/
theorem records_answer {r₀ r : WorkerRun} {a : Answer Delivery} (hr : w.runs[n]? = some r₀)
    (hmarks : r.marks = r₀.marks) (hanswer : w.answer n r a = some w') :
    ∃ turn, r.phase.step r.profile w.broker.now a = some turn ∧
      w'.records = w.records.set n (turn.phase, r₀.marks ++ turn.marks) ∧
      w'.broker.contents = w.broker.contents := by
  obtain ⟨turn, hturn, rfl⟩ := Option.map_eq_some_iff.mp hanswer
  refine ⟨turn, hturn, ?_, rfl⟩
  have hprepared : ((r.take turn).prepare.phase, (r.take turn).prepare.marks) =
      (turn.phase, r₀.marks ++ turn.marks) := by
    rw [← hmarks]
    unfold WorkerRun.prepare
    split <;> rfl
  refine List.ext_getElem? fun j => ?_
  show ((w.runs.modify n fun _ => (r.take turn).prepare).map _)[j]? = ((w.runs.map _).set n _)[j]?
  simp only [List.getElem?_map, List.getElem?_modify, List.getElem?_set, List.length_map]
  by_cases hj : n = j
  · subst hj
    obtain ⟨hlt, -⟩ := List.getElem?_eq_some_iff.mp hr
    simp [hlt, hprepared]
  · simp [hj]

/-- A run that is told nothing about a message leaves messages and counters as they are. -/
theorem CountsAgree.answer (h : w.CountsAgree) {r₀ r : WorkerRun} {b : Broker} {a : Answer Delivery}
    (hr : w.runs[n]? = some r₀) (hanswer : (w.onto b).answer n r a = some w')
    (hphase : r.phase = r₀.phase) (hmarks : r.marks = r₀.marks)
    (hkeeps : w.broker.contents.Keeps b.contents)
    (hpoll : ∀ errorsOpen view d, r.phase = .polling errorsOpen → a = .poll view →
      view.pick errorsOpen ≠ some (.message d)) (hsettle : ∀ result, a ≠ .settle result) :
    w'.CountsAgree := by
  obtain ⟨turn, hturn, hrecords, hcontents⟩ := records_answer (w := w.onto b) hr hmarks hanswer
  obtain ⟨hengaged, hnone⟩ := Phase.quiet_of_stepsTo (Phase.stepsTo_of_step hturn) hpoll hsettle
  rw [CountsAgree, hcontents, hrecords]
  exact Contents.CountsAgree.quiet h (records_getElem? hr) hkeeps (hphase ▸ hengaged) hnone

variable {r : WorkerRun}

theorem CountsAgree.createFor (h : w.CountsAgree) (hr : w.runs[n]? = some r)
    (hstep : w.createFor n r = some w') :
    w'.CountsAgree := by
  unfold Worker.createFor at hstep
  have hcontents := Broker.contents_create w.broker
  split at hstep
  · next b consumer heq =>
    rw [heq] at hcontents
    exact h.answer hr hstep rfl rfl (.of_eq hcontents) (fun _ _ _ _ => nofun) fun _ => nofun
  · next b error heq =>
    rw [heq] at hcontents
    exact h.answer hr hstep rfl rfl (.of_eq hcontents) (fun _ _ _ _ => nofun) fun _ => nofun

theorem CountsAgree.consumeFor (h : w.CountsAgree) (hr : w.runs[n]? = some r)
    (hstep : w.consumeFor n r = some w') :
    w'.CountsAgree := by
  unfold Worker.consumeFor at hstep
  have hkeeps := Broker.keeps_consume w.broker r.consumer n
  split at hstep
  · next b lane heq =>
    rw [heq] at hkeeps
    exact h.answer hr hstep rfl rfl hkeeps (fun _ _ _ _ => nofun) fun _ => nofun
  · next b error heq =>
    rw [heq] at hkeeps
    exact h.answer hr hstep rfl rfl hkeeps (fun _ _ _ _ => nofun) fun _ => nofun

/-- A run that receives a message has it to itself: nobody had it, since it was in the slot. -/
theorem CountsAgree.actOn (h : w.CountsAgree) (hr : w.runs[n]? = some r) {errorsOpen : Bool}
    {v : View Delivery} (hshows : w.Shows r v) (hphase : r.phase = .polling errorsOpen)
    (hstep : w.actOn n r errorsOpen v = some w') : w'.CountsAgree := by
  unfold Worker.actOn at hstep
  split at hstep
  · cases hstep
  next choice hpick =>
  cases choice with
  | message d =>
    obtain ⟨turn, hturn, hrecords, hcontents⟩ :=
      records_answer (w := w.onto (takeChoice w.broker r.lane (.message d))) hr rfl hstep
    rw [hphase] at hturn
    obtain rfl := Option.some.inj hturn
    have hslot := hshows.slot_of_message hpick
    have hcontents' := hcontents.trans (Broker.contents_takeMessage hslot)
    have hheld := congrArg Contents.held hcontents'
    have houtcomes := congrArg Contents.outcomes hcontents'
    obtain ⟨accepted, received, hsound⟩ := h.sound
    rw [hpick] at hrecords
    rw [CountsAgree, hrecords]
    refine Contents.CountsAgree.receive (d := d) h (records_getElem? hr) ?_ hheld
      houtcomes ?_ rfl fun _ => rfl
    · rw [hcontents]
      exact ⟨accepted, _, Broker.sound_takeMessage hsound r.lane⟩
    · exact fun g hg => hsound.ne_of_held (Broker.mem_parcels_of_slot hslot) hg
  | stop | error | errorsEnded | messagesEnded =>
    refine h.answer hr hstep rfl rfl (.of_eq (contents_takeChoice _ _ fun d => nofun)) ?_ fun _ =>
      nofun
    intro errorsOpen' view d hphase' hview
    obtain rfl := Phase.polling.inj (hphase.symm.trans hphase')
    obtain rfl := Answer.poll.inj hview
    rw [hpick]
    nofun

/-- A message that a run settles was its own, and its settlement is counted and recorded once. -/
theorem CountsAgree.settleFor (h : w.CountsAgree) (hr : w.runs[n]? = some r) {errorsOpen : Bool}
    {d : Delivery} {failure : Option String} (hphase : r.phase = .settling errorsOpen d failure)
    (hstep : w.settleFor n r d failure = some w') : w'.CountsAgree := by
  unfold Worker.settleFor at hstep
  obtain ⟨turn, hturn, hrecords, hcontents⟩ := records_answer
    (w := w.onto ((w.broker.settle d.seq (r.profile.dispositionAfter failure)).dropMessage d.seq))
    hr rfl hstep
  rw [hphase] at hturn
  obtain ⟨hgone, hnew⟩ := Phase.settles_of_stepsTo (Phase.stepsTo_of_step hturn)
  have hengaged : r.phase.engaged? = some d := by
    rw [hphase]
    rfl
  have hd : ⟨d, false⟩ ∈ w.broker.held := by
    refine h.held n d ?_
    rw [engagedAt, records_getElem? hr, Option.bind_some, hengaged]
  obtain ⟨hothers, id, houtcomes⟩ :=
    Broker.settle_dropMessage hd (r.profile.dispositionAfter failure)
  obtain ⟨accepted, received, hsound⟩ := h.sound
  rw [CountsAgree, hrecords, hcontents]
  refine Contents.CountsAgree.settle h (records_getElem? hr) ?_ hengaged hothers houtcomes hgone
    hnew
  exact ⟨accepted, received, Broker.sound_dropMessage (Broker.sound_settle hsound _ _) _⟩

theorem CountsAgree.releaseFor (h : w.CountsAgree) (hr : w.runs[n]? = some r)
    (hstep : w.releaseFor n r = some w') :
    w'.CountsAgree := by
  refine h.answer hr hstep rfl rfl ?_ (fun _ _ _ _ => nofun) fun _ => nofun
  have herrors := Contents.Keeps.of_eq (Broker.contents_dropErrors w.broker r.lane)
  have hmessages := Broker.keeps_dropMessages (w.broker.dropErrors r.lane) r.lane
  exact (herrors.trans hmessages).trans (.of_eq (Broker.contents_abort _ _))

theorem CountsAgree.closeFor (h : w.CountsAgree) (hr : w.runs[n]? = some r)
    (hstep : w.closeFor n r = some w') :
    w'.CountsAgree := by
  unfold Worker.closeFor at hstep
  split at hstep
  · obtain ⟨w₁, hanswer, rfl⟩ := Option.map_eq_some_iff.mp hstep
    have hcounts : w₁.CountsAgree :=
      h.answer hr hanswer rfl rfl (.of_eq rfl) (fun _ _ _ _ => nofun) fun _ => nofun
    exact hcounts.of_keeps (.of_eq rfl) rfl
  · cases hstep

theorem CountsAgree.setSignal (h : w.CountsAgree) (i : Nat) (stop : Bool) :
    (w.setSignal i stop).CountsAgree := by
  refine h.of_keeps (.of_eq (Broker.contents_wake _ _)) (records_modifyRun w i fun r => ?_)
  unfold WorkerRun.setSignal
  split <;> exact ⟨rfl, rfl⟩

theorem CountsAgree.abandonSignal (h : w.CountsAgree) (i : Nat) : (w.abandonSignal i).CountsAgree :=
  h.of_keeps (.of_eq (Broker.contents_wake _ _)) (records_modifyRun w i fun _ => ⟨rfl, rfl⟩)

theorem CountsAgree.perform (h : w.CountsAgree) (deed : Deed) : (w.perform deed).CountsAgree := by
  cases deed with
  | setSignal stop =>
    unfold Worker.perform
    cases w.reach with
    | none => exact h
    | some i => exact h.setSignal i stop
  | abandonSignal =>
    unfold Worker.perform
    cases w.reach with
    | none => exact h
    | some i => exact h.abandonSignal i
  | _ => exact h.of_keeps (.of_eq rfl) rfl

theorem CountsAgree.processFor (h : w.CountsAgree) (hr : w.runs[n]? = some r) {d : Delivery}
    (hstep : w.processFor n r d = some w') : w'.CountsAgree := by
  have herrand (rest : Errand) : (w.modifyRun n fun r => { r with errand := rest }).CountsAgree :=
    h.of_keeps (.of_eq rfl) (records_modifyRun w n fun _ => ⟨rfl, rfl⟩)
  unfold Worker.processFor at hstep
  split at hstep
  · exact h.answer (b := w.broker) hr hstep rfl rfl (.of_eq rfl) (fun _ _ _ _ => nofun) fun _ =>
      nofun
  · cases hstep
  · obtain rfl := Option.some.inj hstep
    exact herrand _
  · obtain rfl := Option.some.inj hstep
    exact (herrand _).perform _

/-- The counters stay equal to the outcomes as a run goes on. -/
theorem CountsAgree.stepRun (h : w.CountsAgree) (hstep : w.stepRun n = some w') :
    w'.CountsAgree := by
  unfold Worker.stepRun at hstep
  split at hstep
  · cases hstep
  next r hr =>
  cases hphase : r.phase with
  | creating attempt =>
    rw [hphase] at hstep
    exact h.createFor hr hstep
  | retrying attempt deadline =>
    rw [hphase] at hstep
    simp only at hstep
    split at hstep
    · exact h.answer (b := w.broker) hr hstep rfl rfl (.of_eq rfl) (fun _ _ _ _ => nofun) fun _ =>
        nofun
    · cases hstep
  | consuming =>
    rw [hphase] at hstep
    exact h.consumeFor hr hstep
  | polling errorsOpen =>
    rw [hphase] at hstep
    exact h.actOn hr (w.shows_view r) hphase hstep
  | processing errorsOpen d since =>
    rw [hphase] at hstep
    exact h.processFor hr hstep
  | settling errorsOpen d failure =>
    rw [hphase] at hstep
    exact h.settleFor hr hphase hstep
  | releasing result =>
    rw [hphase] at hstep
    exact h.releaseFor hr hstep
  | closing result =>
    rw [hphase] at hstep
    exact h.closeFor hr hstep
  | stopped result =>
    rw [hphase] at hstep
    cases hstep

theorem CountsAgree.glance (h : w.CountsAgree) (hstep : w.glance n = some w') : w'.CountsAgree := by
  obtain ⟨r, errorsOpen, hr, hphase, hact | ⟨-, rfl⟩⟩ := glance_eq_some hstep
  · exact h.actOn hr (w.shows_viewOf r _) hphase hact
  · exact h.of_keeps (.of_eq rfl) (records_modifyRun w n fun _ => ⟨rfl, rfl⟩)

theorem CountsAgree.finishFor (h : w.CountsAgree) {result : Except String Unit}
    (hstep : w.finishFor n result = some w') : w'.CountsAgree := by
  unfold Worker.finishFor at hstep
  split at hstep
  · cases hstep
  next r hr =>
  split at hstep
  · exact h.answer (b := w.broker) hr hstep rfl rfl (.of_eq rfl) (fun _ _ _ _ => nofun) fun _ =>
      nofun
  · cases hstep

theorem CountsAgree.letGo (h : w.CountsAgree) {f : Broker → Nat → Broker}
    (hf : ∀ lane, w.broker.contents.Keeps (f w.broker lane).contents)
    (hstep : w.letGo n f = some w') :
    w'.CountsAgree := by
  unfold Worker.letGo at hstep
  split at hstep
  · cases hstep
  next r hr =>
  split at hstep
  · obtain rfl := Option.some.inj hstep
    exact h.of_keeps (hf r.lane) rfl
  · cases hstep

/-- A run that starts has no message. -/
theorem CountsAgree.start (h : w.CountsAgree) (profile : Profile) (processor : Processor)
    (signal : Signal) :
    (w.start profile processor signal).CountsAgree := by
  have hcontents : (w.start profile processor signal).broker.contents = w.broker.contents :=
    Broker.contents_wake _ _
  have hrecords : (w.start profile processor signal).records =
      w.records ++ [((Phase.start profile : Turn Delivery).phase,
        (Phase.start profile : Turn Delivery).marks)] := List.map_append
  rw [CountsAgree, hcontents, hrecords]
  exact Contents.CountsAgree.start h _ rfl fun _ => rfl

/-- The counters stay equal to the outcomes whatever happens. -/
theorem CountsAgree.occur (h : w.CountsAgree) {e : Event} (hstep : w.occur e = some w') :
    w'.CountsAgree := by
  cases e with
  | start profile processor signal =>
    obtain rfl := Option.some.inj hstep
    exact h.start profile processor signal
  | run i => exact h.stepRun hstep
  | glance i => exact h.glance hstep
  | finish i result => exact h.finishFor hstep
  | dropErrors i => exact h.letGo (fun _ => .of_eq (Broker.contents_dropErrors _ _)) hstep
  | dropMessages i => exact h.letGo (fun _ => Broker.keeps_dropMessages _ _) hstep
  | setSignal i stop =>
    obtain rfl := Option.some.inj hstep
    exact h.setSignal i stop
  | abandonSignal i =>
    obtain rfl := Option.some.inj hstep
    exact h.abandonSignal i
  | publish id payload =>
    obtain rfl := Option.some.inj hstep
    exact h.of_keeps (Broker.keeps_publish _ id payload) rfl
  | fail text =>
    obtain rfl := Option.some.inj hstep
    exact h.of_keeps (Broker.keeps_fail _ text) rfl
  | giveUp ticket =>
    obtain rfl := Option.some.inj hstep
    exact h.of_keeps (Broker.keeps_giveUp _ ticket) rfl
  | clonePublisher =>
    obtain rfl := Option.some.inj hstep
    exact h.of_keeps (.of_eq (Broker.contents_clonePublisher _)) rfl
  | dropPublisher =>
    obtain rfl := Option.some.inj hstep
    exact h.of_keeps (.of_eq (Broker.contents_dropPublisher _)) rfl
  | failAttempts | setTimeout =>
    obtain rfl := Option.some.inj hstep
    exact h.of_keeps (.of_eq rfl) rfl
  | forward lane favourNew =>
    obtain rfl := Option.some.inj hstep
    exact h.of_keeps (.of_forwards (Broker.forwards_advance w.broker lane favourNew)) rfl
  | overrun lane favourNew =>
    obtain rfl := Option.some.inj hstep
    exact h.of_keeps (.of_forwards (Broker.forwards_overrun w.broker lane favourNew)) rfl
  | setClock now =>
    obtain rfl := Option.some.inj hstep
    exact h.of_keeps (.of_eq (Broker.contents_setClock _ now)) rfl

/-- The counters are equal to the outcomes after any number of events. -/
theorem CountsAgree.after (h : w.CountsAgree) {events : List Event}
    (hrun : w.after events = some w') : w'.CountsAgree :=
  foldlM_induction (motive := CountsAgree) hrun h fun _ _ _ _ hcounts => hcounts.occur

/-- A worker that nothing has happened to has counted nothing, and has recorded no outcome. -/
theorem countsAgree_ofCapacity? {capacity : Nat} {b : Broker}
    (h : Broker.ofCapacity? capacity = some b) :
    ({ broker := b } : Worker).CountsAgree where
  sound := ⟨[], [], Ledger.sound_ofCapacity? h⟩
  held := nofun
  apart := nofun
  even := by
    obtain rfl := Broker.eq_of_ofCapacity? h
    exact fun _ => rfl

end Worker

/-! ## The counters of a component -/

/-- The counters of a component account for all that happens to it. After runs that have all ended,
however many there were, however they overlapped and whatever collaborators did, they account for
every call that the runs have made. Over the in-memory transport, the settled messages that its runs
have counted are at all times those that the transport has recorded as settled in that way. -/
theorem metered (p : Profile) :
    (∀ (μ : Type) [Identified μ] (histories : List (List (Stamped μ))) (marks : List Mark),
      (∀ history ∈ histories, Run.HasEnded p history) →
      marks.Perm (histories.flatMap (Run.marksOf p)) → Metered p histories marks) ∧
    ∀ (capacity : Nat) (b : Broker) (events : List Worker.Event) (w : Worker),
      Broker.ofCapacity? capacity = some b → ({ broker := b } : Worker).after events = some w →
      ∀ disposition, (Gauge.settled disposition).reading p.name w.marks =
        w.broker.outcomes.countP fun o => o.disposition = disposition := by
  refine ⟨fun _ _ _ _ hended hmarks => metered_of_ended hended hmarks, ?_⟩
  intro capacity b events w hopen hrun disposition
  have hcounts := (Worker.countsAgree_ofCapacity? hopen).after hrun
  rw [Gauge.reading_eq_countP, ← Worker.flatMap_records]
  exact hcounts.even disposition

/-- Two runs, one of which needs a second attempt and ends with an error of the transport, while the
other one cannot settle its message; and two runs over one queue that overlap, each of which settles
a message. -/
theorem metered_of_overlapping :
    (let p : Profile := ⟨"c", "script", .nackExit, 1, .zero⟩
      let lost : List (Stamped Delivery) :=
        [⟨0, .create (.error "DOWN")⟩, ⟨0, .wait false⟩, ⟨0, .create (.ok ())⟩,
          ⟨0, .consume (.ok ())⟩, ⟨0, .poll ⟨false, .item "LOST", .nothing⟩⟩, ⟨0, .release⟩,
            ⟨0, .close (.ok ())⟩]
      let unsettled : List (Stamped Delivery) :=
        [⟨0, .create (.ok ())⟩, ⟨0, .consume (.ok ())⟩,
          ⟨0, .poll ⟨false, .nothing, .item ⟨0, .given "a", .null⟩⟩⟩, ⟨5, .process (.ok ())⟩,
          ⟨5, .settle (.error "ACK ERROR")⟩, ⟨5, .release⟩, ⟨5, .close (.ok ())⟩]
      let marks := Run.marksOf p unsettled ++ Run.marksOf p lost
      Metered p [lost, unsettled] marks ∧ Gauge.attempts.reading p.name marks = 3 ∧
        Gauge.transportErrors.reading p.name marks = 1) ∧
    (let events : List Worker.Event :=
        [.publish (some "a") .null, .publish none .null,
          .start ⟨"c", "p", .nackExit, 0, .zero⟩ (.accepting "p") (.ofBool false),
          .start ⟨"c", "p", .nackExit, 0, .zero⟩ (.accepting "p") (.ofBool false), .run 0, .run 0,
          .run 1, .run 1, .forward 0 false, .forward 0 false, .forward 0 false, .forward 0 false,
          .forward 0 false, .run 0, .finish 0 (.error "PROC ERROR"), .run 0, .run 0,
          .forward 0 false, .run 0, .forward 1 false, .forward 1 false, .forward 1 false,
          .forward 1 false, .forward 1 false, .run 1, .finish 1 (.ok ()), .run 1]
      ∃ b, Broker.ofCapacity? 1 = some b ∧ ∃ w, ({ broker := b } : Worker).after events = some w ∧
        (∀ disposition, (Gauge.settled disposition).reading "c" w.marks =
          w.broker.outcomes.countP fun o => o.disposition = disposition) ∧
        w.broker.outcomes.map Outcome.disposition = [.nack, .ack]) := by
  refine ⟨?calls, ?outcomes⟩
  case calls =>
    -- The histories are written out, for they are to be computed with.
    dsimp only
    refine ⟨(metered _).1 _ _ _ ?ended List.perm_append_comm, by decide +kernel, by decide +kernel⟩
    intro history hhistory
    rcases List.mem_pair.mp hhistory with rfl | rfl
    · exact rfl
    · exact rfl
  case outcomes =>
    intro events
    exact ⟨_, rfl, _, rfl, (metered ⟨"c", "p", .nackExit, 0, .zero⟩).2 1 _ events _ rfl rfl, rfl⟩

end Courier
