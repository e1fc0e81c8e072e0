import Courier.Proofs.Broker.Lineup
import Courier.Proofs.Worker.Looking

/-!
# Where runs leave messages

A component may be run again once the run before has ended, so that only the last run is in progress
(`Worker.Orderly`). What such a run has with its reader and in its lane follows from its phase
(`Contents.MatchesPhase`), and every step keeps it so, `Worker.Orderly.stepRun`: a run that has
ended has left nothing behind.
-/

namespace Courier

/-! ## Where a run leaves messages -/

/-- What a run that stands in a phase has left: with its reader, and in the lane `n`, which is its
own as soon as it has one. -/
def Contents.MatchesPhase (s : Contents) (n lane : Nat) : Phase Delivery → Prop
  | .creating _ | .retrying .. | .consuming | .stopped _ => s.held = [] ∧ (s.laneAt n).IsClosed
  | .polling _ | .releasing _ => s.held = [] ∧ lane = n
  | .processing _ d _ | .settling _ d _ => s.held = [⟨d, false⟩] ∧ lane = n
  | .closing _ => s.held = [] ∧ ((s.laneAt n).IsClosed ∨ lane = n ∧ (s.laneAt n).reads = false)

/-- What a run has left depends on what its reader has, on whether the lane is in use, and on
whether it has a reader. -/
theorem Contents.MatchesPhase.of_contents {s s' : Contents} {n lane : Nat} {phase : Phase Delivery}
    (h : s.MatchesPhase n lane phase) (hheld : s'.held = s.held)
    (hclosed : (s.laneAt n).IsClosed → (s'.laneAt n).IsClosed)
    (hreads : (s'.laneAt n).reads = (s.laneAt n).reads) : s'.MatchesPhase n lane phase := by
  cases phase with
  | creating | retrying | consuming | stopped => exact ⟨hheld.trans h.1, hclosed h.2⟩
  | polling | releasing | processing | settling => exact ⟨hheld.trans h.1, h.2⟩
  | closing =>
    refine ⟨hheld.trans h.1, ?_⟩
    rcases h.2 with hend | ⟨hlane, hgone⟩
    · exact .inl (hclosed hend)
    · exact .inr ⟨hlane, hreads.trans hgone⟩

namespace Worker

/-- Whether all runs have ended. -/
def isIdle (w : Worker) : Bool := w.runs.all fun r => r.phase.result?.isSome

/-- The message that is handed to a processor in a step of the `n`-th run that leads to `w'`, if one
is. -/
def handsOver (w : Worker) (n : Nat) (w' : Worker) : List Delivery :=
  match (w.runs[n]?).map WorkerRun.phase, (w'.runs[n]?).map WorkerRun.phase with
  | some (.polling _), some (.processing _ d _) => [d]
  | _, _ => []

/-- Where a run stands, and its lane. -/
def standings (w : Worker) : List (Phase Delivery × Nat) := w.runs.map fun r => (r.phase, r.lane)

/-- Where the last run stands, and its lane. -/
def latest (w : Worker) : Phase Delivery × Nat := w.standings.getLast?.getD (.stopped (.ok ()), 0)

/-- Only the last run may be in progress, messages stand in line in the lane `n`, and the run has
left them as its phase says. -/
structure Orderly (w : Worker) (n : Nat) (accepted : List Parcel) (handed : List Delivery) :
    Prop where
  lined : w.broker.contents.Lined n accepted handed
  matchesPhase : w.broker.contents.MatchesPhase n w.latest.2 w.latest.1
  older : ∀ q ∈ w.standings.dropLast, q.1.result?.isSome

variable {w w' : Worker} {n : Nat} {accepted : List Parcel} {handed : List Delivery}

/-- What neither moves messages nor changes where runs stand leaves a worker orderly. -/
theorem Orderly.of_eq (h : w.Orderly n accepted handed)
    (hcontents : w'.broker.contents = w.broker.contents) (hstandings : w'.standings = w.standings) :
    w'.Orderly n accepted handed := by
  have hlatest : w'.latest = w.latest := by rw [latest, hstandings, latest]
  exact ⟨hcontents ▸ h.lined, hcontents ▸ hlatest ▸ h.matchesPhase, hstandings ▸ h.older⟩

/-- A change of a run does not show in what it leaves alone. -/
theorem map_modifyRun {α : Type} (w : Worker) (i : Nat) {f : WorkerRun → WorkerRun}
    {g : WorkerRun → α} (h : ∀ r, g (f r) = g r) : (w.modifyRun i f).runs.map g = w.runs.map g :=
  map_modify_eq_map w.runs i h

theorem standings_modifyRun (w : Worker) (i : Nat) {f : WorkerRun → WorkerRun}
    (h : ∀ r, (f r).phase = r.phase ∧ (f r).lane = r.lane) :
    (w.modifyRun i f).standings = w.standings :=
  map_modifyRun w i fun r => Prod.ext (h r).1 (h r).2

theorem standings_setSignal (w : Worker) (i : Nat) (stop : Bool) :
    (w.setSignal i stop).standings = w.standings := by
  refine standings_modifyRun w i fun r => ?_
  unfold WorkerRun.setSignal
  split <;> exact ⟨rfl, rfl⟩

theorem standings_abandonSignal (w : Worker) (i : Nat) :
    (w.abandonSignal i).standings = w.standings :=
  standings_modifyRun w i fun _ => ⟨rfl, rfl⟩

/-- What a processor does beside its message leaves messages and runs where they are. -/
theorem Orderly.perform (h : w.Orderly n accepted handed) (deed : Deed) :
    (w.perform deed).Orderly n accepted handed := by
  cases deed with
  | setSignal stop =>
    unfold Worker.perform
    cases w.reach with
    | none => exact h
    | some i => exact h.of_eq (Broker.contents_wake _ _) (standings_setSignal w i stop)
  | abandonSignal =>
    unfold Worker.perform
    cases w.reach with
    | none => exact h
    | some i => exact h.of_eq (Broker.contents_wake _ _) (standings_abandonSignal w i)
  | _ => exact h.of_eq rfl rfl

/-- A worker whose runs have all ended has nothing left with readers or in lanes. -/
theorem Orderly.matchesPhase_of_isIdle (h : w.Orderly n accepted handed) (hidle : w.isIdle) :
    w.broker.contents.held = [] ∧ (w.broker.contents.laneAt n).IsClosed := by
  have hended : w.latest.1.result?.isSome := by
    rw [latest]
    cases hlast : w.standings.getLast? with
    | none => rfl
    | some q =>
      obtain ⟨r, hr, rfl⟩ := List.mem_map.mp (List.mem_of_getLast? hlast)
      exact List.all_eq_true.mp hidle r hr
  have hmatches := h.matchesPhase
  cases hphase : w.latest.1 with
  | stopped result =>
    rw [hphase] at hmatches
    exact hmatches
  | _ =>
    rw [hphase] at hended
    cases hended

/-! ## What forwarders do meanwhile -/

/-- A forwarder takes nothing from a reader, and leaves a lane that is not in use alone. -/
theorem matchesPhase_forwards {s s' : Contents} {lane i : Nat} {phase : Phase Delivery}
    (h : s.MatchesPhase n lane phase) (hforwards : Contents.Forwards i s s') :
    s'.MatchesPhase n lane phase := by
  obtain ⟨s₁, hrefill, hmoves⟩ := hforwards
  have hlaneAt : s₁.laneAt n = s.laneAt n := by
    rw [Contents.laneAt, hrefill.lanes_eq, Contents.laneAt]
  refine h.of_contents (hmoves.held_eq.trans hrefill.held_eq) (fun hclosed => ?_) ?_
  · exact Contents.isClosed_moves hmoves (hlaneAt ▸ hclosed)
  · rw [Contents.reads_moves hmoves, hlaneAt]

theorem Orderly.forwards (h : w.Orderly n accepted handed) {b : Broker} {i : Nat}
    (hforwards : Contents.Forwards i w.broker.contents b.contents) :
    (w.onto b).Orderly n (accepted ++ w.broker.contents.admitted b.contents) handed :=
  ⟨h.lined.forwards hforwards, matchesPhase_forwards h.matchesPhase hforwards, h.older⟩

/-! ## What a run does -/

/-- The last run is `r`, and the runs before it have ended. -/
structure IsLast (w : Worker) (older : List WorkerRun) (r : WorkerRun) : Prop where
  runs : w.runs = older ++ [r]
  ended : ∀ q ∈ older, q.phase.result?.isSome

variable {older : List WorkerRun} {r r' : WorkerRun}

theorem IsLast.mem (h : w.IsLast older r) : r ∈ w.runs := by
  rw [h.runs]
  exact List.mem_append_right _ (List.mem_singleton_self r)

/-- Once the last run has ended, none is in progress. -/
theorem IsLast.isIdle (h : w.IsLast older r) (hended : r.phase.result?.isSome) : w.isIdle := by
  refine List.all_eq_true.mpr ?_
  rw [h.runs, List.forall_mem_append, List.forall_mem_singleton]
  exact ⟨h.ended, hended⟩

theorem IsLast.orderly (h : w.IsLast older r) (hlined : w.broker.contents.Lined n accepted handed)
    (hmatches : w.broker.contents.MatchesPhase n r.lane r.phase) : w.Orderly n accepted handed := by
  have hstandings :
      w.standings = older.map (fun r => (r.phase, r.lane)) ++ [(r.phase, r.lane)] := by
    rw [standings, h.runs, List.map_append]
    rfl
  refine ⟨hlined, ?_, ?_⟩
  · rw [latest, hstandings, List.getLast?_concat]
    exact hmatches
  · intro q hq
    rw [hstandings, List.dropLast_concat] at hq
    obtain ⟨r, hr, rfl⟩ := List.mem_map.mp hq
    exact h.ended r hr

/-- The run that takes a step is the last one, and has left messages as its phase says. -/
theorem Orderly.isLast_of_active (h : w.Orderly n accepted handed) {i : Nat}
    (hr : w.runs[i]? = some r) (hactive : r.phase.result? = none) :
    ∃ older, w.IsLast older r ∧ i = older.length ∧
      w.broker.contents.MatchesPhase n r.lane r.phase := by
  obtain ⟨hlt, hget⟩ := List.getElem?_eq_some_iff.mp hr
  have hlast : i = w.runs.length - 1 := by
    by_contra hne
    -- Otherwise it would be one of the older runs, which have ended.
    have hi : i < w.standings.dropLast.length := by
      rw [List.length_dropLast, standings, List.length_map]
      omega
    have hitem : w.standings.dropLast[i] = (r.phase, r.lane) := by
      simp [standings, hget]
    have hended := h.older _ (hitem ▸ List.getElem_mem hi)
    rw [show (r.phase, r.lane).1.result? = none from hactive] at hended
    cases hended
  have hruns : w.runs = w.runs.dropLast ++ [r] := by
    have hne : w.runs ≠ [] := List.ne_nil_of_length_pos (Nat.zero_lt_of_lt hlt)
    have hgetLast : w.runs.getLast hne = r := by
      rw [List.getLast_eq_getElem, ← hget]
      simp [hlast]
    rw [← hgetLast]
    exact (List.dropLast_append_getLast hne).symm
  have hstandings : w.standings =
      w.runs.dropLast.map (fun r => (r.phase, r.lane)) ++ [(r.phase, r.lane)] := by
    rw [standings, hruns, List.map_append, List.dropLast_concat]
    rfl
  refine ⟨w.runs.dropLast, ⟨hruns, fun q hq => ?_⟩, ?_, ?_⟩
  · refine h.older (q.phase, q.lane) ?_
    rw [hstandings, List.dropLast_concat]
    exact List.mem_map_of_mem hq
  · rw [List.length_dropLast]
    exact hlast
  · have hmatches := h.matchesPhase
    rwa [latest, hstandings, List.getLast?_concat] at hmatches

/-- An answer changes the phase of the run that it is given to, and nothing else that matters. -/
theorem IsLast.answer (h : w.IsLast older r) {a : Answer Delivery}
    (hanswer : w.answer older.length r' a = some w') :
    ∃ turn r'', r'.phase.step r'.profile w.broker.now a = some turn ∧ w'.IsLast older r'' ∧
      r''.phase = turn.phase ∧ r''.lane = r'.lane ∧ w'.broker.contents = w.broker.contents := by
  obtain ⟨turn, hturn, rfl⟩ := Option.map_eq_some_iff.mp hanswer
  refine ⟨turn, (r'.take turn).prepare, hturn, ⟨?_, h.ended⟩, ?_, ?_, rfl⟩
  · show w.runs.modify older.length _ = _
    rw [h.runs, modify_length_append]
  all_goals
    unfold WorkerRun.prepare
    split <;> rfl

/-- A worker is orderly after a run has done something about the transport and got its answer, if
that left messages where the next phase of the run wants them. -/
theorem IsLast.orderly_answer (h : w.IsLast older r) {b : Broker} {a : Answer Delivery}
    (hanswer : (w.onto b).answer older.length r' a = some w') {phase : Phase Delivery}
    (hphase : r'.phase = phase) {s : Contents} (hcontents : b.contents = s)
    (hlined : s.Lined n accepted handed)
    (hmatches : ∀ turn, phase.step r'.profile b.now a = some turn →
      s.MatchesPhase n r'.lane turn.phase) :
    w'.Orderly n accepted handed := by
  obtain ⟨turn, r'', hturn, hlast, hphase', hlane, hcontents'⟩ :=
    IsLast.answer (w := w.onto b) ⟨h.runs, h.ended⟩ hanswer
  rw [hphase] at hturn
  have hcontents'' : w'.broker.contents = s := hcontents'.trans hcontents
  refine hlast.orderly (hcontents'' ▸ hlined) ?_
  rw [hphase', hlane, hcontents'']
  exact hmatches turn hturn

/-- Only a run that looks around can come by a message. -/
theorem IsLast.handsOver_eq_nil (h : w.IsLast older r) (hphase : ∀ e, r.phase ≠ .polling e) :
    w.handsOver older.length w' = [] := by
  have hr : w.runs[older.length]? = some r := by
    rw [h.runs]
    simp
  rw [handsOver, hr, Option.map_some]
  cases hp : r.phase with
  | polling e => exact absurd hp (hphase e)
  | _ => rfl

theorem IsLast.handsOver_eq (h : w.IsLast older r) (h' : w'.IsLast older r') :
    w.handsOver older.length w' =
      match r.phase, r'.phase with
      | .polling _, .processing _ d _ => [d]
      | _, _ => [] := by
  have hr : w.runs[older.length]? = some r := by
    rw [h.runs]
    simp
  have hr' : w'.runs[older.length]? = some r' := by
    rw [h'.runs]
    simp
  rw [handsOver, hr, hr', Option.map_some, Option.map_some]
  cases r.phase <;> cases r'.phase <;> rfl

/-! ### The steps of a run, one phase after the other -/

theorem matchesPhase_afterCreate {s : Contents} {p : Profile} {now lane : Nat} {attempt : UInt32}
    {created : Except String Unit} {turn : Turn Delivery}
    (h : s.MatchesPhase n lane (.creating attempt))
    (hturn : (Phase.creating attempt).step p now (.create created) = some turn) :
    s.MatchesPhase n lane turn.phase := by
  obtain rfl := Option.some.inj hturn
  cases created with
  | ok => exact h
  | error cause =>
    simp only [Phase.afterCreate]
    split <;> exact h

theorem IsLast.orderly_createFor (h : w.IsLast older r) {attempt : UInt32}
    (hphase : r.phase = .creating attempt) (hlined : w.broker.contents.Lined n accepted handed)
    (hmatches : w.broker.contents.MatchesPhase n r.lane r.phase)
    (hstep : w.createFor older.length r = some w') : w'.Orderly n accepted handed := by
  rw [hphase] at hmatches
  unfold createFor at hstep
  have hcontents := Broker.contents_create w.broker
  split at hstep
  · next b consumer heq =>
    rw [heq] at hcontents
    exact h.orderly_answer hstep hphase hcontents hlined fun _ hturn =>
      matchesPhase_afterCreate hmatches hturn
  · next b error heq =>
    rw [heq] at hcontents
    exact h.orderly_answer hstep hphase hcontents hlined fun _ hturn =>
      matchesPhase_afterCreate hmatches hturn

theorem IsLast.orderly_wait (h : w.IsLast older r) {attempt : UInt32} {deadline : Nat} {stop : Bool}
    (hphase : r.phase = .retrying attempt deadline)
    (hlined : w.broker.contents.Lined n accepted handed)
    (hmatches : w.broker.contents.MatchesPhase n r.lane r.phase)
    (hstep : w.answer older.length r (.wait stop) = some w') : w'.Orderly n accepted handed := by
  rw [hphase] at hmatches
  refine h.orderly_answer (b := w.broker) hstep hphase rfl hlined fun turn hturn => ?_
  obtain rfl := Option.some.inj hturn
  simp only [Phase.afterWait]
  split
  · exact hmatches
  · split <;> exact hmatches

/-- A consumer that starts gets a lane of its own, which is in use from now on. -/
theorem IsLast.orderly_consumeFor (h : w.IsLast older r) (hphase : r.phase = .consuming)
    (hlined : w.broker.contents.Lined n accepted handed)
    (hmatches : w.broker.contents.MatchesPhase n r.lane r.phase)
    (hstep : w.consumeFor older.length r = some w') : ∃ n, w'.Orderly n accepted handed := by
  rw [hphase] at hmatches
  unfold consumeFor at hstep
  have hconsume := Broker.contents_consume w.broker r.consumer older.length
  split at hstep
  · next b lane heq =>
    rw [heq] at hconsume
    rcases hconsume with ⟨error, herror, -⟩ | ⟨hlane, hcontents⟩
    · cases herror
    · obtain rfl := Except.ok.inj hlane
      -- Nothing is left in the lane before, so the new one takes over the whole line.
      refine ⟨_,
        h.orderly_answer hstep hphase hcontents (hlined.consume hmatches.2) fun turn hturn => ?_⟩
      obtain rfl := Option.some.inj hturn
      exact ⟨hmatches.1, rfl⟩
  · next b error heq =>
    rw [heq] at hconsume
    rcases hconsume with ⟨-, -, hcontents⟩ | ⟨hlane, -⟩
    · refine ⟨n, h.orderly_answer hstep hphase hcontents hlined fun turn hturn => ?_⟩
      obtain rfl := Option.some.inj hturn
      exact ⟨hmatches.1, .inl hmatches.2⟩
    · cases hlane

/-- What a run takes from its lane when it acts on something other than a message. -/
theorem contents_takeChoice (b : Broker) (lane : Nat) {choice : Choice Delivery}
    (h : ∀ d, choice ≠ .message d) : (takeChoice b lane choice).contents = b.contents := by
  cases choice with
  | message d => exact absurd rfl (h d)
  | error => exact Broker.contents_takeError b lane
  | stop | errorsEnded | messagesEnded => rfl

/-- A run that acts on a message hands it to its processor; the other things that it may act on
leave messages where they are. -/
theorem IsLast.orderly_actOn (h : w.IsLast older r) {errorsOpen : Bool} {v : View Delivery}
    (hshows : w.Shows r v) (hphase : r.phase = .polling errorsOpen)
    (hlined : w.broker.contents.Lined n accepted handed)
    (hmatches : w.broker.contents.MatchesPhase n r.lane r.phase)
    (hstep : w.actOn older.length r errorsOpen v = some w') :
    w'.Orderly n accepted (handed ++ w.handsOver older.length w') := by
  rw [hphase] at hmatches
  unfold actOn at hstep
  split at hstep
  · cases hstep
  next choice hpick =>
  obtain ⟨turn, r'', hturn, hlast, hphase', hlane, hcontents⟩ :=
    IsLast.answer (w := w.onto (takeChoice w.broker r.lane choice)) ⟨h.runs, h.ended⟩ hstep
  have hhands := h.handsOver_eq hlast
  rw [hphase] at hturn hhands
  obtain rfl := Option.some.inj hturn
  rw [hpick] at hphase'
  rw [hphase'] at hhands
  cases choice with
  | message d =>
    rw [hhands]
    have hslot := hshows.slot_of_message hpick
    obtain ⟨c, hlaneAt, hc⟩ := Broker.contents_of_slot hslot
    rw [hmatches.2] at hlaneAt
    have hcontents' := hcontents.trans (Broker.contents_takeMessage hslot)
    rw [hmatches.2] at hcontents'
    refine hlast.orderly (hcontents' ▸ hlined.receive hlaneAt hc) ?_
    rw [hphase', hlane, hcontents']
    refine ⟨?_, hmatches.2⟩
    show w.broker.contents.held ++ _ = _
    rw [hmatches.1]
    rfl
  | stop | error | errorsEnded | messagesEnded =>
    have hcontents' := hcontents.trans (contents_takeChoice w.broker r.lane fun d => by simp)
    rw [hhands]
    refine hlast.orderly ?_ ?_
    · rw [hcontents']
      exact (List.append_nil handed).symm ▸ hlined
    · rw [hphase', hlane, hcontents']
      exact hmatches

theorem IsLast.orderly_finish (h : w.IsLast older r) {errorsOpen : Bool} {d : Delivery}
    {since : Nat} {result : Except String Unit} (hphase : r.phase = .processing errorsOpen d since)
    (hlined : w.broker.contents.Lined n accepted handed)
    (hmatches : w.broker.contents.MatchesPhase n r.lane r.phase)
    (hstep : w.answer older.length r (.process result) = some w') :
    w'.Orderly n accepted handed := by
  rw [hphase] at hmatches
  refine h.orderly_answer (b := w.broker) hstep hphase rfl hlined fun turn hturn => ?_
  obtain rfl := Option.some.inj hturn
  cases result <;> exact hmatches

/-- A processor either takes an act that leaves messages where they are, or is done with its
message. -/
theorem IsLast.orderly_processFor (h : w.IsLast older r) {errorsOpen : Bool} {d : Delivery}
    {since : Nat} (hphase : r.phase = .processing errorsOpen d since)
    (horderly : w.Orderly n accepted handed)
    (hmatches : w.broker.contents.MatchesPhase n r.lane r.phase)
    (hstep : w.processFor older.length r d = some w') : w'.Orderly n accepted handed := by
  unfold processFor at hstep
  have herrand (rest : Errand) :
      (w.modifyRun older.length fun r => { r with errand := rest }).Orderly n accepted handed :=
    horderly.of_eq rfl (standings_modifyRun w older.length fun _ => ⟨rfl, rfl⟩)
  split at hstep
  · exact h.orderly_finish hphase horderly.lined hmatches hstep
  · cases hstep
  · obtain rfl := Option.some.inj hstep
    exact herrand _
  · obtain rfl := Option.some.inj hstep
    exact (herrand _).perform _

/-- The only message that readers have is settled and let go of. -/
theorem contents_settle_dropMessage {b : Broker} {d : Delivery}
    (hheld : b.contents.held = [⟨d, false⟩]) (disposition : Disposition) :
    ((b.settle d.seq disposition).dropMessage d.seq).contents =
      { b.contents with
        held := []
        outcomes := b.contents.outcomes ++ [⟨d.seq, d.id, disposition⟩] } := by
  have hfind : (b.held.find? fun h => h.delivery.seq = d.seq) = some ⟨d, false⟩ := by
    rw [show b.held = [⟨d, false⟩] from hheld]
    simp
  have hsettled := Broker.contents_settle hfind disposition
  have hheld' : (b.settle d.seq disposition).held = [⟨d, true⟩] := by
    refine (congrArg Contents.held hsettled).trans ?_
    rw [hheld]
    simp
  have hfind' : ((b.settle d.seq disposition).held.find? fun h => h.delivery.seq = d.seq) =
      some ⟨d, true⟩ := by
    rw [hheld']
    simp
  rw [Broker.contents_dropMessage hfind', hsettled, hheld]
  simp

/-- A message that was processed is settled, and its run lets go of it. -/
theorem IsLast.orderly_settleFor (h : w.IsLast older r) {errorsOpen : Bool} {d : Delivery}
    {failure : Option String} (hphase : r.phase = .settling errorsOpen d failure)
    (hlined : w.broker.contents.Lined n accepted handed)
    (hmatches : w.broker.contents.MatchesPhase n r.lane r.phase)
    (hstep : w.settleFor older.length r d failure = some w') : w'.Orderly n accepted handed := by
  rw [hphase] at hmatches
  have hcontents := contents_settle_dropMessage hmatches.1 (r.profile.dispositionAfter failure)
  refine h.orderly_answer hstep hphase hcontents (hlined.settle hmatches.1 _) fun turn hturn => ?_
  cases failure with
  | none =>
    obtain rfl := Option.some.inj hturn
    exact ⟨rfl, hmatches.2⟩
  | some failure =>
    obtain rfl := Option.some.inj hturn
    unfold Phase.afterFailing
    cases r.profile.strategy.flow <;> exact ⟨rfl, hmatches.2⟩

/-- A run that lets go of its streams gives back what is in the slot, and nothing gets there any
more. -/
theorem IsLast.orderly_releaseFor (h : w.IsLast older r) {result : RunResult}
    (hphase : r.phase = .releasing result) (hlined : w.broker.contents.Lined n accepted handed)
    (hmatches : w.broker.contents.MatchesPhase n r.lane r.phase)
    (hstep : w.releaseFor older.length r = some w') : w'.Orderly n accepted handed := by
  rw [hphase] at hmatches
  have hcontents : (((w.broker.dropErrors r.lane).dropMessages r.lane).abort r.consumer).contents =
      w.broker.contents.dropSlot n := by
    rw [Broker.contents_abort, Broker.contents_dropMessages, Broker.contents_dropErrors, hmatches.2]
  refine h.orderly_answer hstep hphase hcontents hlined.dropSlot fun turn hturn => ?_
  obtain rfl := Option.some.inj hturn
  exact ⟨(Contents.held_dropSlot _ n).trans hmatches.1,
    .inr ⟨hmatches.2, Contents.reads_dropSlot _ n⟩⟩

theorem handState_of_hasEnded {b : Broker} (h : b.hasEnded n) :
    (b.contents.laneAt n).handState = .ended := by
  unfold Broker.hasEnded at h
  rw [Contents.laneAt]
  show (((b.lanes.map Lane.contents)[n]?).getD .closed).handState = .ended
  rw [List.getElem?_map]
  cases hl : b.lanes[n]? with
  | none => rfl
  | some l =>
    rw [hl] at h
    show l.forwarder.handState = .ended
    cases hforwarder : l.forwarder <;> simp_all [Forwarder.isEnded, Forwarder.handState]

/-- A run closes its consumer only when the lane is not in use any more. -/
theorem IsLast.orderly_closeFor (h : w.IsLast older r) {result : RunResult}
    (hphase : r.phase = .closing result) (hlined : w.broker.contents.Lined n accepted handed)
    (hmatches : w.broker.contents.MatchesPhase n r.lane r.phase)
    (hstep : w.closeFor older.length r = some w') : w'.Orderly n accepted handed := by
  rw [hphase] at hmatches
  unfold closeFor at hstep
  split at hstep
  swap
  · cases hstep
  next hended =>
  obtain ⟨w₁, hanswer, rfl⟩ := Option.map_eq_some_iff.mp hstep
  have hclosed : (w.broker.contents.laneAt n).IsClosed := by
    -- Either there never was a lane, or its forwarder has ended after its reader had gone.
    rcases hmatches.2 with hclosed | ⟨hlane, hreads⟩
    · exact hclosed
    · rw [hlane] at hended
      exact ⟨handState_of_hasEnded hended, hlined.fits.slot hreads⟩
  have horderly : w₁.Orderly n accepted handed := by
    refine h.orderly_answer (b := w.broker.close) hanswer hphase rfl hlined fun turn hturn => ?_
    obtain rfl := Option.some.inj hturn
    exact ⟨hmatches.1, hclosed⟩
  exact horderly.of_eq rfl rfl

/-- Every step of a run leaves the worker orderly. -/
theorem Orderly.stepRun (h : w.Orderly n accepted handed) {i : Nat}
    (hstep : w.stepRun i = some w') :
    ∃ n, w'.Orderly n accepted (handed ++ w.handsOver i w') := by
  unfold Worker.stepRun at hstep
  split at hstep
  · cases hstep
  next r hr =>
  cases hactive : r.phase.result? with
  | some result =>
    cases hphase : r.phase <;> simp_all [Phase.result?]
  | none =>
    obtain ⟨older, hlast, rfl, hmatches⟩ := h.isLast_of_active hr hactive
    have hnil (hphase : ∀ e, r.phase ≠ .polling e) :
        handed ++ w.handsOver older.length w' = handed := by
      rw [hlast.handsOver_eq_nil hphase, List.append_nil]
    cases hphase : r.phase with
    | polling errorsOpen =>
      rw [hphase] at hstep
      exact ⟨n, hlast.orderly_actOn (w.shows_view r) hphase h.lined hmatches hstep⟩
    | creating attempt =>
      rw [hphase] at hstep
      rw [hnil (by simp [hphase])]
      exact ⟨n, hlast.orderly_createFor hphase h.lined hmatches hstep⟩
    | retrying attempt deadline =>
      rw [hphase] at hstep
      rw [hnil (by simp [hphase])]
      simp only at hstep
      split at hstep
      · exact ⟨n, hlast.orderly_wait hphase h.lined hmatches hstep⟩
      · cases hstep
    | consuming =>
      rw [hphase] at hstep
      rw [hnil (by simp [hphase])]
      exact hlast.orderly_consumeFor hphase h.lined hmatches hstep
    | processing errorsOpen d since =>
      rw [hphase] at hstep
      rw [hnil (by simp [hphase])]
      exact ⟨n, hlast.orderly_processFor hphase h hmatches hstep⟩
    | settling errorsOpen d failure =>
      rw [hphase] at hstep
      rw [hnil (by simp [hphase])]
      exact ⟨n, hlast.orderly_settleFor hphase h.lined hmatches hstep⟩
    | releasing result =>
      rw [hphase] at hstep
      rw [hnil (by simp [hphase])]
      exact ⟨n, hlast.orderly_releaseFor hphase h.lined hmatches hstep⟩
    | closing result =>
      rw [hphase] at hstep
      rw [hnil (by simp [hphase])]
      exact ⟨n, hlast.orderly_closeFor hphase h.lined hmatches hstep⟩
    | stopped result =>
      rw [hphase] at hstep
      cases hstep

/-- So does every glance. -/
theorem Orderly.glance (h : w.Orderly n accepted handed) {i : Nat} (hstep : w.glance i = some w') :
    w'.Orderly n accepted (handed ++ w.handsOver i w') := by
  obtain ⟨r, errorsOpen, hr, hphase, hact | ⟨-, rfl⟩⟩ := glance_eq_some hstep
  · obtain ⟨older, hlast, rfl, hmatches⟩ := h.isLast_of_active hr (by rw [hphase]; rfl)
    exact hlast.orderly_actOn (w.shows_viewOf r _) hphase h.lined hmatches hact
  · have hphase' : ((w.modifyRun i WorkerRun.lookFurther).runs[i]?).map WorkerRun.phase =
        some (.polling errorsOpen) := by
      rw [modifyRun, List.getElem?_modify_eq, hr, ← hphase]
      rfl
    have hnone : w.handsOver i (w.modifyRun i WorkerRun.lookFurther) = [] := by
      rw [handsOver, hphase', hr, Option.map_some, hphase]
    rw [hnone, List.append_nil]
    exact h.of_eq rfl (standings_modifyRun w i fun _ => ⟨rfl, rfl⟩)

end Worker

end Courier
