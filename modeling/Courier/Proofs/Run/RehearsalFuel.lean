import Courier.Proofs.Run.History
import Courier.Proofs.Run.Transition
import Courier.Rehearsal

/-!
# The fuel of a rehearsal

`Rehearsal.fuel` is enough for every run of a rehearsal: a report without a result is that of a run
whose time was up (`Rehearsal.over_of_report`), and more fuel changes nothing
(`Rehearsal.playRuns_eq_of_fuel_le`).

What is left to do is added up in `Rehearsal.load`. Every step of the run lowers it, and so does
what happens on the timeline (`Rehearsal.Progress`). The clock does not, but it goes on only to a
time at which one of these can happen, or at which the time is up (`Rehearsal.ready_of_tick`).
-/

namespace Courier

namespace Rehearsal

/-! ## Scripts in payloads -/

theorem payloadLoad_le {v w : Json} (h : v.size ≤ w.size) : payloadLoad v ≤ payloadLoad w := by
  unfold payloadLoad
  omega

/-- The bound on the steps that a cue takes is one that its text has room for. -/
theorem cueLoad_of_ofJson? {v : Json} {cue : Cue} (h : Cue.ofJson? v = some cue) :
    2 + cueLoad cue ≤ 4 * v.size := by
  unfold Cue.ofJson? at h
  split at h <;> cases h
  case h_5 m =>
    have hpayload := m.size_getD_le "payload"
    simp only [cueLoad, payloadLoad, ScriptedMessage.ofJson, Json.size, Json.sizeItems]
    omega
  all_goals simp [cueLoad, Json.size, Json.sizeItems]

theorem cuesLoad_filterMap_ofJson? (items : List Json) :
    cuesLoad (items.filterMap Cue.ofJson?) ≤ 4 * Json.sizeItems items := by
  induction items with
  | nil => exact Nat.zero_le _
  | cons v rest ih =>
    rw [List.filterMap_cons, Json.sizeItems]
    split
    · omega
    · next cue hcue =>
      have hload := cueLoad_of_ofJson? hcue
      change (2 + cueLoad cue) + cuesLoad _ ≤ _
      omega

/-- The cues of a list count for less than the list. -/
theorem cuesLoad_listOfJson (v : Json) : cuesLoad (Cue.listOfJson v) + 4 ≤ 4 * v.size := by
  cases v with
  | list items =>
    have hitems := cuesLoad_filterMap_ofJson? items
    rw [Cue.listOfJson, Json.size]
    omega
  | _ =>
    have hsize := Json.one_le_size
    simp only [Cue.listOfJson, cuesLoad, sumOver]
    grind

/-! ## Errands -/

/-- A bound on the steps that follow from what an act puts on a stream. -/
def actLoad : Act → Nat
  | .follow cue => cueLoad cue
  | _ => 0

/-- A bound on the steps that an errand takes. -/
def errandLoad (e : Errand) : Nat := e.load + sumOver actLoad e.acts

/-- A bound on the steps that follow from what a deed puts on a stream. -/
def deedLoad : Deed → Nat
  | .pushMessage m => payloadLoad m.payload
  | .pushError _ => 1
  | _ => 0

theorem sumOver_actLoad_follow (cues : List Cue) :
    2 * cues.length + sumOver actLoad (cues.map Act.follow) = cuesLoad cues := by
  induction cues with
  | nil => rfl
  | cons cue rest ih =>
    simp only [cuesLoad, List.map_cons, List.length_cons, sumOver, actLoad] at ih ⊢
    omega

theorem errandLoad_ofCues (cues : List Cue) : errandLoad (.ofCues cues) = cuesLoad cues := by
  rw [← sumOver_actLoad_follow]
  simp [errandLoad, Errand.load, Errand.ofCues]

/-- An errand that goes on pays for what it puts on a stream. -/
theorem errandLoad_lt_of_move {e rest : Errand} {now : Nat} {s : Signal} {deed : Option Deed}
    (h : e.move now s = .did rest deed) :
    errandLoad rest + (deed.map deedLoad).getD 0 < errandLoad e := by
  have hload := Errand.load_lt_of_move h
  suffices sumOver actLoad rest.acts + (deed.map deedLoad).getD 0 ≤ sumOver actLoad e.acts by
    unfold errandLoad
    omega
  cases Errand.advances_of_move h with
  | begin => exact Nat.le_refl _
  | awake hacts =>
    rw [hacts]
    exact Nat.le_add_left ..
  | @act act acts deed hacts _ hmessage herror =>
    rw [hacts, sumOver, Nat.add_comm]
    refine Nat.add_le_add_right ?_ _
    rcases deed with _ | deed
    · exact Nat.zero_le _
    · cases deed with
      | pushMessage m =>
        obtain rfl := hmessage m rfl
        exact Nat.le_refl _
      | pushError text =>
        obtain rfl := herror text rfl
        exact Nat.le_refl _
      | _ => exact Nat.zero_le _

/-- A bound on the steps that a message takes. -/
def messageLoad (m : Message) : Nat := payloadLoad (m.payload.toOption.getD .null)

theorem load_scriptedRead {payload : Json} {acts : List Act}
    (h : Processor.scriptedRead payload = .ok acts) :
    acts.length ≤ 1 ∧ sumOver actLoad acts = 0 := by
  unfold Processor.scriptedRead at h
  split at h
  · split at h
    · cases h
    · split at h
      · obtain rfl := Except.ok.inj h
        exact ⟨Nat.le_refl _, rfl⟩
      · cases h
  · obtain rfl := Except.ok.inj h
    exact ⟨Nat.zero_le _, rfl⟩

theorem load_scriptedPlan (payload : Json) :
    2 * (Processor.scriptedPlan payload).acts.length
      + sumOver actLoad (Processor.scriptedPlan payload).acts + 1 ≤ 4 * payload.size := by
  have hsize := payload.one_le_size
  unfold Processor.scriptedPlan
  split
  · simp only [List.length_nil, sumOver]
    omega
  · next acts hread =>
    obtain ⟨hlength, hacts⟩ := load_scriptedRead hread
    have hcues := cuesLoad_listOfJson ((payload.get? "do").getD .null)
    have hle := payload.size_getD_le "do"
    have hfollow := sumOver_actLoad_follow
      (Cue.listOfJson ((payload.get? "do").getD .null))
    simp only [List.length_append, List.length_map, sumOver_append]
    omega

/-- The processing of a message takes no more than the message counts for. Three steps are left: for
taking it, for the end of its processing and for its settlement. -/
theorem errandLoad_ofPlan (id : CorrelationId) (m : Message) (context : Context) :
    errandLoad (.ofPlan (Processor.scripted.plan id m.payload) context) + 3 ≤ messageLoad m := by
  unfold messageLoad payloadLoad
  cases hpayload : m.payload with
  | error fault =>
    simp [Processor.scripted, Errand.ofPlan, errandLoad, Errand.load, sumOver, actLoad,
      Except.toOption, Json.size]
  | ok payload =>
    have hplan := load_scriptedPlan payload
    simp only [Processor.scripted, Errand.ofPlan, errandLoad, Errand.load, sumOver, actLoad,
      Except.toOption, List.length_cons, Option.isSome_none, Bool.toNat_false, Option.getD_some]
    omega

/-- A message of the script counts for no more than its payload. -/
theorem messageLoad_toMessage (m : ScriptedMessage) (number : Nat) (s : Signal) :
    messageLoad (m.toMessage number s) ≤ payloadLoad m.payload := by
  refine payloadLoad_le ?_
  unfold ScriptedMessage.toMessage
  split
  · exact m.payload.one_le_size
  · exact Nat.le_refl _

/-! ## What is left to do -/

/-- A bound on the steps that the items of streams take. -/
def feedsLoad : Option Feeds → Nat
  | none => 0
  | some f => sumOver messageLoad f.messages.items + f.errors.items.length

/-- A bound on the steps that an attempt takes after the phase. -/
def attemptRest (a : Attempt) : Phase Message → Nat
  | .creating _ => cuesLoad a.consumeCues + deliveryLoad a
  | .consuming => deliveryLoad a
  | _ => 0

/-- A bound on the steps that the phase and those after it take, without errands and messages. -/
def phaseLoad (p : Profile) : Phase Message → Nat
  | .creating attempt => 2 * (p.maxAttempts.toNat - attempt.toNat) + 6
  | .retrying attempt _ => 2 * (p.maxAttempts.toNat - attempt.toNat) + 5
  | .consuming => 5
  | .polling errorsOpen => 3 + errorsOpen.toNat
  | .processing errorsOpen _ _ => 5 + errorsOpen.toNat
  | .settling errorsOpen _ _ => 4 + errorsOpen.toNat
  | .releasing _ => 2
  | .closing _ => 1
  | .stopped _ => 0

/-- A bound on the steps of the run in progress. -/
def load (r : Rehearsal) : Nat :=
  r.scriptLoad + errandLoad r.errand + feedsLoad r.feeds + attemptRest r.attempt r.phase
    + phaseLoad r.profile r.phase

/-- What holds of a run in progress: its attempts are within the limit, and a sleep that has begun
is what its errand is about. -/
structure Sound (r : Rehearsal) : Prop where
  attempted : ∃ n, r.phase.Attempted r.profile n
  sleeping : ∀ wakeAt, r.errand.wakeAt = some wakeAt →
    ∃ millis acts, r.errand.acts = .follow (.sleep millis) :: acts

/-- What a step of a rehearsal does: it uses up some of what is left to do. -/
structure Progress (r r' : Rehearsal) : Prop where
  profile : r'.profile = r.profile
  scriptLoad : r'.scriptLoad ≤ r.scriptLoad
  sound : r'.Sound
  load : r'.load < r.load

/-- What happens around a run leaves the run as it is. -/
structure LeavesRun (r r' : Rehearsal) : Prop where
  profile : r'.profile = r.profile
  phase : r'.phase = r.phase
  errand : r'.errand = r.errand
  attempt : r'.attempt = r.attempt
  script : r'.script = r.script

variable {r r' r'' : Rehearsal}

namespace LeavesRun

theorem refl (r : Rehearsal) : r.LeavesRun r := ⟨rfl, rfl, rfl, rfl, rfl⟩

theorem trans (h : r.LeavesRun r') (h' : r'.LeavesRun r'') : r.LeavesRun r'' :=
  ⟨h'.profile.trans h.profile, h'.phase.trans h.phase, h'.errand.trans h.errand,
    h'.attempt.trans h.attempt, h'.script.trans h.script⟩

theorem sound (h : r.LeavesRun r') (hsound : r.Sound) : r'.Sound where
  attempted := by
    rw [h.phase, h.profile]
    exact hsound.attempted
  sleeping := by
    rw [h.errand]
    exact hsound.sleeping

/-- The timeline and the streams make the difference. -/
theorem load_eq (h : r.LeavesRun r') :
    r'.load + cuesLoad (r.timeline.map (·.2)) + feedsLoad r.feeds =
      r.load + cuesLoad (r'.timeline.map (·.2)) + feedsLoad r'.feeds := by
  simp only [Rehearsal.load, scriptLoad, h.profile, h.phase, h.errand, h.attempt, h.script]
  omega

end LeavesRun

/-! ## Deeds -/

/-- A deed reaches the run by its streams only. -/
theorem leavesRun_perform (r : Rehearsal) (deed : Deed) : r.LeavesRun (r.perform deed) := by
  cases deed with
  | setSignal stop =>
    simp only [perform]
    split
    · exact ⟨rfl, rfl, rfl, rfl, rfl⟩
    · exact .refl r
  | _ => exact ⟨rfl, rfl, rfl, rfl, rfl⟩

theorem timeline_perform (r : Rehearsal) (deed : Deed) :
    (r.perform deed).timeline = r.timeline := by
  cases deed with
  | setSignal stop =>
    simp only [perform]
    split <;> rfl
  | _ => rfl

/-- What a deed puts on a stream is what it counts for. -/
theorem feedsLoad_perform (r : Rehearsal) (deed : Deed) :
    feedsLoad (r.perform deed).feeds ≤ feedsLoad r.feeds + deedLoad deed := by
  cases deed with
  | setSignal stop =>
    simp only [perform]
    split <;> exact Nat.le_refl _
  | pushMessage m =>
    have hmessage := messageLoad_toMessage m r.freshIds r.signal
    simp only [perform, pushMessage, makeMessage]
    cases r.feeds with
    | none => exact Nat.zero_le _
    | some f =>
      simp only [Option.map_some, feedsLoad, Feed.push, deedLoad]
      split
      · simp only [sumOver_append, sumOver]
        omega
      · exact Nat.le_add_right ..
  | pushError text =>
    simp only [perform]
    cases r.feeds with
    | none => exact Nat.zero_le _
    | some f =>
      simp only [Option.map_some, feedsLoad, Feed.push, deedLoad]
      split
      · simp only [List.length_append, List.length_singleton]
        omega
      · exact Nat.le_add_right ..
  | closeMessages | closeErrors =>
    simp only [perform]
    cases r.feeds <;> exact Nat.le_refl _
  | _ => exact Nat.le_refl _

theorem scriptLoad_perform (r : Rehearsal) (deed : Deed) :
    (r.perform deed).scriptLoad = r.scriptLoad := by
  rw [scriptLoad, scriptLoad, (leavesRun_perform r deed).script, timeline_perform]

theorem load_perform (r : Rehearsal) (deed : Deed) :
    (r.perform deed).load ≤ r.load + deedLoad deed := by
  have hload := (leavesRun_perform r deed).load_eq
  have hfeeds := feedsLoad_perform r deed
  rw [timeline_perform] at hload
  omega

/-! ## Errands in progress -/

/-- A sleep that has begun is what the errand is about, whatever is done of it. -/
theorem sleeping_of_move {e rest : Errand} {now : Nat} {s : Signal} {deed : Option Deed}
    (h : e.move now s = .did rest deed)
    (hsleeping : ∀ wakeAt, e.wakeAt = some wakeAt →
      ∃ millis acts, e.acts = .follow (.sleep millis) :: acts) :
    ∀ wakeAt, rest.wakeAt = some wakeAt →
      ∃ millis acts, rest.acts = .follow (.sleep millis) :: acts := by
  intro wakeAt hwake
  cases Errand.advances_of_move h with
  | begin hacts => exact ⟨_, _, hacts⟩
  | awake => cases hwake
  | act hacts hsleep =>
    obtain ⟨millis, acts, hacts'⟩ := hsleeping wakeAt hwake
    exact absurd (List.cons.inj (hacts.symm.trans hacts')).1 (hsleep millis)

/-- An errand that goes on is progress, and one that is finished is at its end. -/
theorem progress_of_work (hsound : r.Sound) {finish : Rehearsal → Option Rehearsal}
    (hfinish : errandLoad r.errand = 0 → finish r = some r' → r.Progress r')
    (h : r.work finish = some r') : r.Progress r' := by
  unfold work at h
  split at h
  · next hmove =>
    refine hfinish ?_ h
    simp [errandLoad, Errand.load, Errand.acts_of_finished hmove, sumOver]
  · cases h
  · next rest hmove =>
    obtain rfl := Option.some.inj h
    have hload := errandLoad_lt_of_move hmove
    refine ⟨rfl, Nat.le_refl _, ⟨hsound.attempted, sleeping_of_move hmove hsound.sleeping⟩, ?_⟩
    simp only [Option.map_none, Option.getD_none] at hload
    simp only [Rehearsal.load, scriptLoad]
    omega
  · next rest deed hmove =>
    obtain rfl := Option.some.inj h
    have hrest : ({ r with errand := rest } : Rehearsal).Sound :=
      ⟨hsound.attempted, sleeping_of_move hmove hsound.sleeping⟩
    refine ⟨(leavesRun_perform _ deed).profile, Nat.le_of_eq (scriptLoad_perform _ deed),
      (leavesRun_perform _ deed).sound hrest, ?_⟩
    have hload := errandLoad_lt_of_move hmove
    have hperform := load_perform { r with errand := rest } deed
    simp only [Option.map_some, Option.getD_some] at hload
    simp only [Rehearsal.load, scriptLoad] at hperform ⊢
    omega

/-! ## Answers -/

/-- A bound on the steps of what a run begins with in a phase, or else has left to do: of its
errand, and of what follows from the attempt. -/
def entryLoad (a : Attempt) (e : Errand) : Phase Message → Nat
  | .creating _ => 0
  | .consuming => cuesLoad a.consumeCues + deliveryLoad a
  | .processing _ m _ => messageLoad m - 3
  | _ => errandLoad e

/-- The next attempt counts for as much as the script gets shorter by it. -/
theorem attemptLoad_head (script : List Attempt) :
    attemptLoad (script.head?.getD .unscripted) + sumOver attemptLoad script.tail =
      sumOver attemptLoad script := by
  cases script <;> rfl

/-- What a run begins with in its phase is paid for: an attempt out of the script, and the errand
for a message by the message. -/
theorem load_enterPhase (r : Rehearsal) :
    r.enterPhase.load ≤
      r.scriptLoad + feedsLoad r.feeds + entryLoad r.attempt r.errand r.phase
        + phaseLoad r.profile r.phase := by
  cases hphase : r.phase with
  | creating attempt =>
    have hhead := attemptLoad_head r.script
    simp only [enterPhase, hphase, enter, load, scriptLoad, errandLoad_ofCues, attemptRest,
      entryLoad]
    simp only [attemptLoad] at hhead
    omega
  | consuming =>
    simp only [enterPhase, hphase, enter, load, scriptLoad, errandLoad_ofCues, attemptRest,
      entryLoad]
    omega
  | processing errorsOpen m since =>
    have hplan := errandLoad_ofPlan m.context.correlationId m m.context
    simp only [enterPhase, hphase, load, scriptLoad, attemptRest, entryLoad]
    omega
  | _ =>
    simp only [enterPhase, hphase, enter, load, scriptLoad, attemptRest, entryLoad]
    omega

theorem sound_enterPhase (h : r.Sound) : r.enterPhase.Sound := by
  unfold enterPhase
  split
  · exact ⟨h.attempted, nofun⟩
  · exact ⟨h.attempted, nofun⟩
  · exact ⟨h.attempted, nofun⟩
  · exact ⟨h.attempted, h.sleeping⟩
  · exact h

theorem scriptLoad_enterPhase (r : Rehearsal) : r.enterPhase.scriptLoad ≤ r.scriptLoad := by
  have hhead := attemptLoad_head r.script
  unfold enterPhase
  split
  · simp only [enter, scriptLoad]
    omega
  all_goals exact Nat.le_refl _

theorem profile_enterPhase (r : Rehearsal) : r.enterPhase.profile = r.profile := by
  unfold enterPhase
  split <;> rfl

theorem sound_take (h : r.Sound) {a : Answer Message} {turn : Turn Message}
    (hturn : r.phase.step r.profile r.now a = some turn) : (r.take turn).Sound where
  attempted := by
    obtain ⟨n, hn⟩ := h.attempted
    by_cases hacq : turn.phase.IsAcquiring
    · exact ⟨_, Phase.attempted_of_step hturn hn hacq⟩
    · refine ⟨0, ?_⟩
      change turn.phase.Attempted r.profile 0
      cases hphase : turn.phase <;> simp_all [Phase.IsAcquiring, Phase.Attempted]
  sleeping := h.sleeping

/-- An answer is progress if the phase that it leads to costs less than is at hand. -/
theorem progress_of_answer {s : Rehearsal} {phase : Phase Message} {a : Answer Message}
    (hsound : r.Sound) (hphase : r.phase = phase) (h : s.answer a = some r')
    (hleaves : r.LeavesRun s) (htimeline : s.timeline = r.timeline)
    (hload : ∀ turn, phase.StepsTo r.profile s.now a turn →
      feedsLoad s.feeds + entryLoad r.attempt r.errand turn.phase + phaseLoad r.profile turn.phase <
        errandLoad r.errand + feedsLoad r.feeds + attemptRest r.attempt phase
          + phaseLoad r.profile phase) : r.Progress r' := by
  obtain ⟨turn, hturn, rfl⟩ := Option.map_eq_some_iff.mp h
  have hscript : (s.take turn).scriptLoad = r.scriptLoad := by
    simp only [scriptLoad, take, hleaves.script, htimeline]
  refine ⟨(profile_enterPhase _).trans hleaves.profile, hscript ▸ scriptLoad_enterPhase _,
    sound_enterPhase (sound_take (hleaves.sound hsound) hturn), ?_⟩
  have hless := hload turn (by
    have hstepsTo := Phase.stepsTo_of_step hturn
    rwa [hleaves.phase, hphase, hleaves.profile] at hstepsTo)
  have hentry : (s.take turn).enterPhase.load ≤ r.scriptLoad + feedsLoad s.feeds
      + entryLoad r.attempt r.errand turn.phase + phaseLoad r.profile turn.phase := by
    rw [← hscript, ← hleaves.attempt, ← hleaves.errand, ← hleaves.profile]
    exact load_enterPhase (s.take turn)
  refine Nat.lt_of_le_of_lt hentry ?_
  simp only [load, hphase]
  omega

/-! ## Steps of the run -/

theorem progress_creating (hsound : r.Sound) {attempt : UInt32}
    (hphase : r.phase = .creating attempt) {result : Except String Unit}
    (h : r.answer (.create result) = some r') : r.Progress r' := by
  refine progress_of_answer hsound hphase h (.refl r) rfl fun turn hturn => ?_
  cases hturn <;> simp only [entryLoad, attemptRest, phaseLoad] <;> omega

/-- A wait that is given up ends the run, and one that is over uses up an attempt. -/
theorem progress_retrying (hsound : r.Sound) {attempt : UInt32} {deadline : Nat} {stop : Bool}
    (hphase : r.phase = .retrying attempt deadline) (hover : stop || deadline ≤ r.now)
    (h : r.answer (.wait stop) = some r') : r.Progress r' := by
  obtain ⟨n, hn⟩ := hsound.attempted
  rw [hphase] at hn
  obtain ⟨hcount, hlimit⟩ := hn
  refine progress_of_answer hsound hphase h (.refl r) rfl fun turn hturn => ?_
  cases hturn with
  | gaveUp =>
    simp only [entryLoad, attemptRest, phaseLoad]
    omega
  | triedAgain =>
    have hnext : (attempt + 1).toNat = attempt.toNat + 1 := r.profile.toNat_add_one (by omega)
    simp only [entryLoad, attemptRest, phaseLoad]
    omega
  | waited hearly => simp [hearly] at hover

theorem messageLoad_makeMessages (r : Rehearsal) (ms : List ScriptedMessage) :
    sumOver messageLoad (r.makeMessages ms).2 ≤ sumOver (fun m => payloadLoad m.payload) ms := by
  induction ms generalizing r with
  | nil => exact Nat.le_refl _
  | cons m ms ih =>
    have hmessage := messageLoad_toMessage m r.freshIds r.signal
    have hrest := ih (r.makeMessage m).1
    simp only [makeMessages, makeMessage, sumOver] at hrest ⊢
    omega

/-- The streams are filled out of the attempt. -/
theorem feedsLoad_openFeeds (r : Rehearsal) :
    feedsLoad r.openFeeds.feeds ≤ deliveryLoad r.attempt := by
  have hmessages := messageLoad_makeMessages r r.attempt.messages
  simp only [openFeeds, feedsLoad, deliveryLoad, r.makeMessages_fst]
  omega

theorem leavesRun_openFeeds (r : Rehearsal) :
    r.LeavesRun r.openFeeds ∧ r.openFeeds.timeline = r.timeline := by
  simp only [openFeeds, r.makeMessages_fst, and_true]
  exact ⟨rfl, rfl, rfl, rfl, rfl⟩

theorem progress_started (hsound : r.Sound) (hphase : r.phase = .consuming)
    (h : r.openFeeds.answer (.consume (.ok ())) = some r') : r.Progress r' := by
  have hfeeds := feedsLoad_openFeeds r
  obtain ⟨hleaves, htimeline⟩ := leavesRun_openFeeds r
  refine progress_of_answer hsound hphase h hleaves htimeline fun turn hturn => ?_
  cases hturn
  simp only [entryLoad, attemptRest, phaseLoad, Bool.toNat_true]
  omega

theorem progress_refused (hsound : r.Sound) (hphase : r.phase = .consuming) {cause : String}
    (h : r.answer (.consume (.error cause)) = some r') : r.Progress r' := by
  refine progress_of_answer hsound hphase h (.refl r) rfl fun turn hturn => ?_
  cases hturn
  simp only [entryLoad, attemptRest, phaseLoad]
  omega

theorem feedsLoad_takeChoice (r : Rehearsal) (choice : Choice Message) :
    feedsLoad (r.takeChoice choice).feeds ≤ feedsLoad r.feeds := by
  cases choice with
  | error cause =>
    simp only [takeChoice]
    cases r.feeds with
    | none => exact Nat.le_refl _
    | some f => simp [feedsLoad, Feed.pop]
  | message m =>
    simp only [takeChoice]
    cases r.feeds with
    | none => exact Nat.le_refl _
    | some f =>
      simp only [Option.map_some, feedsLoad, Feed.pop]
      cases f.messages.items with
      | nil => exact Nat.le_refl _
      | cons m rest =>
        simp only [List.tail_cons, sumOver]
        omega
  | _ => exact Nat.le_refl _

/-- A message that the run acts on is taken off its stream. -/
theorem feedsLoad_takeChoice_message {m : Message} (h : r.view.messages = .item m) :
    feedsLoad (r.takeChoice (.message m)).feeds + messageLoad m = feedsLoad r.feeds := by
  simp only [view] at h
  simp only [takeChoice]
  cases hfeeds : r.feeds with
  | none => simp [hfeeds] at h
  | some f =>
    simp only [hfeeds, Option.map_some, Option.getD_some, Feed.offer] at h
    split at h
    · next m' rest hitems =>
      obtain rfl := Offer.item.inj h
      simp only [Option.map_some, feedsLoad, Feed.pop, hitems, List.tail_cons, sumOver]
      omega
    · split at h <;> cases h

/-- What the run acts on comes off a stream, and a message is worth its processing. -/
theorem progress_polling (hsound : r.Sound) {errorsOpen : Bool} {choice : Choice Message}
    (hphase : r.phase = .polling errorsOpen) (hpick : r.view.pick errorsOpen = some choice)
    (h : (r.takeChoice choice).answer (.poll r.view) = some r') : r.Progress r' := by
  have hfeeds := feedsLoad_takeChoice r choice
  have hleaves : r.LeavesRun (r.takeChoice choice) := by
    cases choice <;> exact ⟨rfl, rfl, rfl, rfl, rfl⟩
  have htimeline : (r.takeChoice choice).timeline = r.timeline := by cases choice <;> rfl
  refine progress_of_answer hsound hphase h hleaves htimeline fun turn hturn => ?_
  cases hturn with
  | idled hidle => cases hidle.symm.trans hpick
  | reassured hended =>
    obtain ⟨-, rfl, -⟩ := View.pick_eq_errorsEnded.mp hended
    simp only [entryLoad, attemptRest, phaseLoad, Bool.toNat_true, Bool.toNat_false]
    omega
  | @received _ _ m hmessage =>
    obtain rfl := Option.some.inj (hpick.symm.trans hmessage)
    have htake := feedsLoad_takeChoice_message (View.pick_eq_message hmessage)
    have hworth : 8 ≤ messageLoad m := by
      have hsize := (m.payload.toOption.getD .null).one_le_size
      unfold messageLoad payloadLoad
      omega
    simp only [entryLoad, attemptRest, phaseLoad]
    omega
  | interrupted | alerted | ranOut =>
    simp only [entryLoad, attemptRest, phaseLoad]
    omega

theorem progress_processing (hsound : r.Sound) {errorsOpen : Bool} {m : Message} {since : Nat}
    (hphase : r.phase = .processing errorsOpen m since) {result : Except String Unit}
    (h : r.answer (.process result) = some r') : r.Progress r' := by
  refine progress_of_answer hsound hphase h (.refl r) rfl fun turn hturn => ?_
  cases hturn <;> simp only [entryLoad, attemptRest, phaseLoad] <;> omega

theorem progress_settling (hsound : r.Sound) {errorsOpen : Bool} {m : Message}
    {failure : Option String} (hphase : r.phase = .settling errorsOpen m failure) {e : Entry}
    {result : Except String Unit} (h : (r.enter e).answer (.settle result) = some r') :
    r.Progress r' := by
  refine progress_of_answer hsound hphase h ⟨rfl, rfl, rfl, rfl, rfl⟩ rfl fun turn hturn => ?_
  cases hturn <;> simp only [entryLoad, enter, attemptRest, phaseLoad] <;> omega

theorem progress_releasing (hsound : r.Sound) {result : RunResult}
    (hphase : r.phase = .releasing result)
    (h : { r with feeds := none }.answer .release = some r') : r.Progress r' := by
  refine progress_of_answer hsound hphase h ⟨rfl, rfl, rfl, rfl, rfl⟩ rfl fun turn hturn => ?_
  cases hturn
  simp only [entryLoad, feedsLoad, attemptRest, phaseLoad]
  omega

theorem progress_closing (hsound : r.Sound) {result : RunResult}
    (hphase : r.phase = .closing result) {closed : Except String Unit}
    (h : r.answer (.close closed) = some r') : r.Progress r' := by
  refine progress_of_answer hsound hphase h (.refl r) rfl fun turn hturn => ?_
  cases hturn
  simp only [entryLoad, attemptRest, phaseLoad]
  omega

/-- A step of the run uses up some of what is left to do. -/
theorem progress_of_step (hsound : r.Sound) (h : r.step = some r') : r.Progress r' := by
  unfold step at h
  split at h
  · next hphase => exact progress_of_work hsound (fun _ => progress_creating hsound hphase) h
  · next hphase =>
    dsimp only at h
    split at h
    · next hover => exact progress_retrying hsound hphase hover h
    · cases h
  · next hphase =>
    refine progress_of_work hsound (fun _ hfinish => ?_) h
    split at hfinish
    · exact progress_refused hsound hphase hfinish
    · exact progress_started hsound hphase hfinish
  · next hphase =>
    split at h
    · cases h
    · next hpick => exact progress_polling hsound hphase hpick h
  · next hphase => exact progress_of_work hsound (fun _ => progress_processing hsound hphase) h
  · next hphase => exact progress_settling hsound hphase h
  · next hphase => exact progress_releasing hsound hphase h
  · next hphase => exact progress_closing hsound hphase h
  · cases h

/-! ## The timeline -/

/-- The timeline concerns no message, and a cue on it pays for what it puts on a stream. -/
theorem deedLoad_of_follow {now : Nat} {s : Signal} {cue : Cue} {e : Errand} {deed : Deed}
    (h : Errand.follow now s {} [] cue = .did e (some deed)) : deedLoad deed ≤ cueLoad cue := by
  cases cue <;> cases h <;> exact Nat.le_refl _

/-- What is due reaches the run by its streams. -/
theorem playDue_cons {earliest due : Nat} {cue : Cue} (rest : List (Nat × Cue))
    (h : max due earliest ≤ r.now) :
    ∃ later r₁, playDue earliest r ((due, cue) :: rest) = playDue later r₁ rest ∧
      r.LeavesRun r₁ ∧ feedsLoad r₁.feeds ≤ feedsLoad r.feeds + cueLoad cue := by
  rw [playDue, if_pos h]
  split
  · exact ⟨_, r, rfl, .refl r, Nat.le_add_right ..⟩
  · next deed hfollow =>
    have hdeed := deedLoad_of_follow hfollow
    have hfeeds := feedsLoad_perform r deed
    exact ⟨_, _, rfl, leavesRun_perform r deed, by omega⟩
  · exact ⟨_, r, rfl, .refl r, Nat.le_add_right ..⟩

/-- What is left of the timeline and what came onto the streams is no more than was there. -/
theorem playDue_spec (earliest : Nat) (r : Rehearsal) (timeline : List (Nat × Cue)) :
    r.LeavesRun (playDue earliest r timeline) ∧
      cuesLoad ((playDue earliest r timeline).timeline.map (·.2)) ≤ cuesLoad (timeline.map (·.2)) ∧
      feedsLoad (playDue earliest r timeline).feeds
        + cuesLoad ((playDue earliest r timeline).timeline.map (·.2)) ≤
          feedsLoad r.feeds + cuesLoad (timeline.map (·.2)) := by
  induction timeline generalizing earliest r with
  | nil => exact ⟨⟨rfl, rfl, rfl, rfl, rfl⟩, Nat.le_refl _, Nat.le_refl _⟩
  | cons item rest ih =>
    obtain ⟨due, cue⟩ := item
    by_cases hdue : max due earliest ≤ r.now
    · obtain ⟨later, r₁, hplay, hleaves, hfeeds⟩ := playDue_cons rest hdue
      obtain ⟨hleaves', htimeline, hload⟩ := ih later r₁
      rw [hplay]
      refine ⟨hleaves.trans hleaves', ?_⟩
      simp only [cuesLoad, List.map_cons, sumOver] at htimeline hload ⊢
      omega
    · rw [playDue, if_neg hdue]
      exact ⟨⟨rfl, rfl, rfl, rfl, rfl⟩, Nat.le_refl _, Nat.le_refl _⟩

/-- What happens on the timeline is progress. -/
theorem progress_playDue (hsound : r.Sound) (hdue : r.nextCue?.any (· ≤ r.now)) :
    r.Progress (playDue 0 r r.timeline) := by
  cases htimeline : r.timeline with
  | nil => simp [nextCue?, htimeline] at hdue
  | cons item rest =>
    obtain ⟨due, cue⟩ := item
    have hle : max due 0 ≤ r.now := by simpa [nextCue?, htimeline] using hdue
    obtain ⟨later, r₁, hplay, hleaves₁, hfeeds₁⟩ := playDue_cons rest hle
    obtain ⟨hleaves₂, hrest, hfeeds₂⟩ := playDue_spec later r₁ rest
    rw [hplay]
    have hleaves := hleaves₁.trans hleaves₂
    have hload := hleaves.load_eq
    have hcues : cuesLoad (r.timeline.map (·.2)) = 2 + cueLoad cue + cuesLoad (rest.map (·.2)) := by
      rw [htimeline]
      rfl
    refine ⟨hleaves.profile, ?_, hleaves.sound hsound, by omega⟩
    simp only [scriptLoad, hleaves.script]
    omega

/-! ## The clock -/

/-- Whether something can happen before the clock goes on, or the time is up. -/
def Ready (limit : Nat) (r : Rehearsal) : Prop :=
  r.step.isSome ∨ r.nextCue?.any (· ≤ r.now) ∨ limit ≤ r.now

/-- A run that waits for a time goes on when it is reached. -/
theorem isSome_step_of_wakeAt? (hsound : r.Sound) {wakeAt : Nat} (hwake : r.wakeAt? = some wakeAt)
    (hover : wakeAt ≤ r.now) : r.step.isSome := by
  have hwork {finish : Rehearsal → Option Rehearsal} (h : r.errand.wakeAt = some wakeAt) :
      (r.work finish).isSome := by
    obtain ⟨millis, acts, hacts⟩ := hsound.sleeping wakeAt h
    simp [work, Errand.move, Errand.follow, hacts, h, hover]
  cases hphase : r.phase with
  | retrying attempt deadline =>
    obtain rfl : deadline = wakeAt := by simpa [wakeAt?, hphase] using hwake
    simp [step, hphase, hover, answer, Phase.step]
  | creating | consuming | processing =>
    simp only [wakeAt?, hphase] at hwake
    simp only [step, hphase]
    exact hwork hwake
  | _ => simp [wakeAt?, hphase] at hwake

theorem earlier_cases (a : Option Nat) (b : Nat) : earlier a b = b ∨ a = some (earlier a b) := by
  unfold earlier
  cases a with
  | none => exact .inl (Nat.min_self b)
  | some a =>
    rw [Option.getD_some]
    rcases Nat.le_total a b with hle | hle
    · exact .inr (by rw [Nat.min_eq_left hle])
    · exact .inl (Nat.min_eq_right hle)

/-- The clock goes on to a time at which something can happen, or at which the time is up. -/
theorem ready_of_tick (hsound : r.Sound) (limit : Nat) :
    ({ r with now := earlier r.wakeAt? (earlier r.nextCue? limit) } : Rehearsal).Ready limit := by
  rcases earlier_cases r.wakeAt? (earlier r.nextCue? limit) with hnow | hwake
  · rw [hnow]
    rcases earlier_cases r.nextCue? limit with hlimit | hcue
    · exact .inr (.inr (Nat.le_of_eq hlimit.symm))
    · have hany {now : Nat} (h : r.nextCue? = some now) : r.nextCue?.any (· ≤ now) := by
        simp [h]
      exact .inr (.inl (hany hcue))
  · exact .inl (isSome_step_of_wakeAt? (r := { r with now := _ })
      ⟨hsound.attempted, hsound.sleeping⟩ hwake (Nat.le_refl _))

/-- While the run waits, what is due happens, or else the clock goes on; then something can happen,
or the time is up. -/
theorem idle_spec (hsound : r.Sound) {limit : Nat} (h : r.idle limit = some r') :
    r.Progress r' ∨
      ¬ r.nextCue?.any (· ≤ r.now) ∧ r.now < limit ∧
        ∃ now, r' = { r with now } ∧ r'.Ready limit := by
  unfold idle at h
  split at h
  · next hdue =>
    obtain rfl := Option.some.inj h
    exact .inl (progress_playDue hsound hdue)
  · next hdue =>
    split at h
    · cases h
    · next hlimit =>
      obtain rfl := Option.some.inj h
      exact .inr ⟨hdue, Nat.lt_of_not_le hlimit, _, rfl, ready_of_tick hsound limit⟩

/-- Nothing happens any more only if the time is up. -/
theorem le_now_of_idle {limit : Nat} (h : r.idle limit = none) : limit ≤ r.now := by
  unfold idle at h
  split at h
  · cases h
  · split at h
    · next hlimit => exact hlimit
    · cases h

/-! ## Plays -/

/-- Whether a run has ended, or its time is up and nothing can happen any more. -/
def Over (limit : Nat) (r : Rehearsal) : Prop :=
  r.phase.result?.isSome ∨ r.step = none ∧ r.idle limit = none

theorem play_of_over {limit : Nat} (h : r.Over limit) (fuel : Nat) : r.play limit fuel = r := by
  cases fuel with
  | zero => rfl
  | succ fuel =>
    rw [play]
    rcases h with hended | ⟨hstep, hidle⟩
    · obtain ⟨result, hresult⟩ := Option.isSome_iff_exists.mp hended
      rw [hresult]
    · split
      · rfl
      · rw [hstep, hidle]

/-- A run that is over stays as it is, whatever fuel there is. -/
theorem play_add_of_over {limit fuel : Nat} (h : (r.play limit fuel).Over limit) (more : Nat) :
    r.play limit (fuel + more) = r.play limit fuel := by
  induction fuel generalizing r with
  | zero =>
    rw [Nat.zero_add]
    exact play_of_over h more
  | succ fuel ih =>
    rw [Nat.add_right_comm]
    unfold play at h ⊢
    split at h
    · rfl
    · split at h
      · exact ih h
      · split at h
        · exact ih h
        · rfl

/-- A run is over if there is fuel for every step that is left, and for the clock before each. -/
theorem over_of_play (hsound : r.Sound) {limit fuel : Nat}
    (hfuel : 2 * r.load + 1 < fuel ∨ r.Ready limit ∧ 2 * r.load < fuel) :
    (r.play limit fuel).Over limit := by
  induction fuel generalizing r with
  | zero => omega
  | succ fuel ih =>
    have hprogress {r'} (h : r.Progress r') : (r'.play limit fuel).Over limit := by
      have hless := h.load
      exact ih h.sound (.inl (by omega))
    unfold play
    split
    · next hresult => exact .inl (by rw [hresult]; rfl)
    · split
      · next hstep => exact hprogress (progress_of_step hsound hstep)
      · next hstep =>
        split
        · next r' hidle =>
          rcases idle_spec hsound hidle with h | ⟨hdue, hlimit, now, rfl, hready⟩
          · exact hprogress h
          · -- The clock goes on. What it is paid with is at hand, for the run was not ready before.
            have hwaits : ¬ r.Ready limit := by
              rintro (hready | hready | hready)
              · simp [hstep] at hready
              · exact hdue hready
              · omega
            refine ih ⟨hsound.attempted, hsound.sleeping⟩ (.inr ⟨hready, ?_⟩)
            change 2 * r.load < fuel
            rcases hfuel with hfuel | ⟨hready, -⟩
            · omega
            · exact absurd hready hwaits
        · next hidle => exact .inr ⟨hstep, hidle⟩

/-- A run neither changes the rules nor adds to the script and the timeline. -/
theorem scriptLoad_play_le (hsound : r.Sound) (limit fuel : Nat) :
    (r.play limit fuel).profile = r.profile ∧ (r.play limit fuel).scriptLoad ≤ r.scriptLoad := by
  induction fuel generalizing r with
  | zero => exact ⟨rfl, Nat.le_refl _⟩
  | succ fuel ih =>
    have hprogress {r'} (h : r.Progress r') :
        (r'.play limit fuel).profile = r.profile ∧
          (r'.play limit fuel).scriptLoad ≤ r.scriptLoad := by
      obtain ⟨hprofile, hscript⟩ := ih h.sound
      exact ⟨hprofile.trans h.profile, hscript.trans h.scriptLoad⟩
    unfold play
    split
    · exact ⟨rfl, Nat.le_refl _⟩
    · split
      · next hstep => exact hprogress (progress_of_step hsound hstep)
      · split
        · next hidle =>
          rcases idle_spec hsound hidle with h | ⟨-, -, now, rfl, -⟩
          · exact hprogress h
          · exact ih ⟨hsound.attempted, hsound.sleeping⟩
        · exact ⟨rfl, Nat.le_refl _⟩

/-! ## Several runs -/

theorem sound_startRun (signal : Signal) (r : Rehearsal) : (r.startRun signal).Sound :=
  ⟨⟨0, rfl, r.profile.one_le_maxAttempts⟩, nofun⟩

/-- The fuel is enough for a run, and for the clock between its steps. -/
theorem load_startRun (signal : Signal) (r : Rehearsal) :
    2 * (r.startRun signal).load + 1 < r.fuel := by
  have hentry := load_enterPhase
    (({ r with signal, entries := [], feeds := none } : Rehearsal).take (Phase.start r.profile))
  have hmax := r.profile.maxAttempts_toNat
  have hone : (1 : UInt32).toNat = 1 := rfl
  simp only [take, Phase.start, scriptLoad, feedsLoad, entryLoad, phaseLoad] at hentry
  simp only [startRun, take, Phase.start, fuel, scriptLoad]
  omega

variable {time fuel : Nat}

theorem over_startRun (hfuel : r.fuel ≤ fuel) (signal : Signal) (limit : Nat) :
    ((r.startRun signal).play limit fuel).Over limit :=
  over_of_play (sound_startRun signal r) (.inl ((load_startRun signal r).trans_le hfuel))

/-- The fuel of the first run is enough for those after it. -/
theorem fuel_play_le (signal : Signal) (limit fuel : Nat) :
    ((r.startRun signal).play limit fuel).fuel ≤ r.fuel := by
  obtain ⟨hprofile, hscript⟩ := scriptLoad_play_le (sound_startRun signal r) limit fuel
  have hstart : (r.startRun signal).scriptLoad ≤ r.scriptLoad := scriptLoad_enterPhase _
  have hsame : (r.startRun signal).profile = r.profile := profile_enterPhase _
  simp only [Rehearsal.fuel, hprofile, hsame]
  omega

/-- A run without a result is one whose time was up. -/
theorem over_of_report (hfuel : r.fuel ≤ fuel) {signal : Signal} {runs : Nat} {report : Report}
    (h : report ∈ (r.playRuns signal time fuel runs).2) (hresult : report.result = none) :
    time ≤ report.now := by
  induction runs generalizing r with
  | zero => cases h
  | succ runs ih =>
    rcases List.mem_cons.mp h with rfl | hrest
    · rcases over_startRun hfuel signal (r.now + time) with hended | ⟨-, hidle⟩
      · exact absurd hresult (Option.isSome_iff_ne_none.mp hended)
      · exact (Nat.le_add_left ..).trans (le_now_of_idle hidle)
    · exact ih ((fuel_play_le signal _ fuel).trans hfuel) hrest

/-- More fuel changes nothing. -/
theorem playRuns_eq_of_fuel_le (hfuel : r.fuel ≤ fuel) (signal : Signal) (runs : Nat) :
    r.playRuns signal time fuel runs = r.playRuns signal time r.fuel runs := by
  induction runs generalizing r fuel with
  | zero => rfl
  | succ runs ih =>
    have hplay : (r.startRun signal).play (r.now + time) fuel =
        (r.startRun signal).play (r.now + time) r.fuel := by
      obtain ⟨more, rfl⟩ := Nat.exists_eq_add_of_le hfuel
      exact play_add_of_over (over_startRun (Nat.le_refl _) signal _) more
    have hless := fuel_play_le (r := r) signal (r.now + time) r.fuel
    simp only [playRuns, hplay, ih hless, ih (hless.trans hfuel)]

end Rehearsal

end Courier
