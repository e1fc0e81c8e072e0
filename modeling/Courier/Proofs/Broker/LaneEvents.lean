import Courier.Proofs.Broker.Effort
import Courier.Proofs.Broker.Redelivery
import Courier.Proofs.Broker.Register

/-!
# What happens to lanes

Any number of lanes may be open at once, with limits or without, and all of them share one queue.
`Broker.Happens` says once what an event can do to them. What publishers, the factory and readers do
changes little about them (`Broker.ChangedByUser`): it may take things away that wait for a reader,
give a sign to a forwarder, put envelopes on the queue and messages back on it, and open a lane.
Lanes other than the reader's own get a sign at most (`Lane.SameUpToSign`). All else is done by
forwarders, one lane at a time, in one of the ways of `Broker.Advances`.

`Broker.happens_apply` is the one lemma about operations that there is; what is shown of lanes that
share a queue is shown by cases on `Broker.Happens`.
-/

namespace Courier

/-! ## What users do -/

/-- What users can do to a lane. -/
structure Lane.ChangedByUser (l l' : Lane) : Prop where
  /-- A sign may reach its forwarder. -/
  forwarder : l'.forwarder = l.forwarder ∨
    ∃ deadline, l.forwarder = .parked deadline false ∧ l'.forwarder = .parked deadline true
  owner : l'.owner = l.owner
  limit : l'.limit = l.limit
  /-- What waits for its reader may be gone. -/
  slot : l'.slot = l.slot ∨ l'.slot = none
  errorSlot : l'.errorSlot = l.errorSlot ∨ l'.errorSlot = none

namespace Lane.ChangedByUser

variable {l l' l'' : Lane}

theorem refl (l : Lane) : l.ChangedByUser l := ⟨.inl rfl, rfl, rfl, .inl rfl, .inl rfl⟩

theorem trans (h : l.ChangedByUser l') (h' : l'.ChangedByUser l'') : l.ChangedByUser l'' where
  forwarder := by
    rcases h'.forwarder with hsame' | ⟨deadline', hparked', hsign'⟩
    · rcases h.forwarder with hsame | ⟨deadline, hparked, hsign⟩
      · exact .inl (hsame'.trans hsame)
      · exact .inr ⟨deadline, hparked, hsame'.trans hsign⟩
    · rcases h.forwarder with hsame | ⟨deadline, hparked, hsign⟩
      · exact .inr ⟨deadline', hsame.symm.trans hparked', hsign'⟩
      · cases hsign.symm.trans hparked'
  owner := h'.owner.trans h.owner
  limit := h'.limit.trans h.limit
  slot := h'.slot.elim (fun hsame => hsame ▸ h.slot) .inr
  errorSlot := h'.errorSlot.elim (fun hsame => hsame ▸ h.errorSlot) .inr

/-- A sign changes neither where a forwarder stands nor until when it waits. -/
theorem forwarder_congr (h : l.ChangedByUser l') {β : Type} (f : Forwarder → β)
    (hf : ∀ deadline, f (.parked deadline true) = f (.parked deadline false)) :
    f l'.forwarder = f l.forwarder := by
  rcases h.forwarder with hsame | ⟨deadline, hparked, hsign⟩
  · rw [hsame]
  · rw [hsign, hparked, hf]

end Lane.ChangedByUser

/-- What users can do to a lane that they do not read from: a sign may reach its forwarder. -/
def Lane.SameUpToSign (l l' : Lane) : Prop :=
  l' = l ∨ ∃ deadline, l.forwarder = .parked deadline false ∧
    l' = { l with forwarder := .parked deadline true }

namespace Lane.SameUpToSign

variable {l l' l'' : Lane}

theorem refl (l : Lane) : l.SameUpToSign l := .inl rfl

theorem trans (h : l.SameUpToSign l') (h' : l'.SameUpToSign l'') : l.SameUpToSign l'' := by
  rcases h with rfl | ⟨deadline, hparked, rfl⟩
  · exact h'
  · rcases h' with rfl | ⟨deadline', hparked', -⟩
    · exact .inr ⟨deadline, hparked, rfl⟩
    · cases hparked'

theorem changedByUser (h : l.SameUpToSign l') : l.ChangedByUser l' := by
  rcases h with rfl | ⟨deadline, hparked, rfl⟩
  · exact .refl _
  · exact ⟨.inr ⟨deadline, hparked, rfl⟩, rfl, rfl, .inl rfl, .inl rfl⟩

end Lane.SameUpToSign

/-- What users can do to a transport without opening a lane. A reader may do something about its
`own` lane. -/
structure Broker.ChangedByUser (own : Option Nat) (b b' : Broker) : Prop where
  after : ∀ (n : Nat) (l : Lane), b.lanes[n]? = some l → ∃ l', b'.lanes[n]? = some l' ∧
    l.ChangedByUser l'
  before : ∀ (n : Nat) (l' : Lane), b'.lanes[n]? = some l' → ∃ l, b.lanes[n]? = some l ∧
    l.ChangedByUser l'
  others : ∀ (n : Nat) (l l' : Lane), own ≠ some n → b.lanes[n]? = some l → b'.lanes[n]? = some l' →
    l.SameUpToSign l'
  line : b'.line = b.line
  /-- Envelopes may be put on the queue. -/
  incoming : b.incoming <+: b'.incoming
  /-- Messages may be returned. -/
  returned : b.returned.Sublist b'.returned

/-! ## What forwarders do -/

/-- Why the forwarder of a lane ends, unless it has waited long enough. -/
inductive Broker.EndReason (b : Broker) (l : Lane) : Prop
  /-- It was asked to. -/
  | aborted (h : l.aborted = true)
  /-- Its reader does not take the message that it has in hand. -/
  | unread (h : l.forwarder.isOffering) (hreads : l.readsMessages = false)
  /-- Its reader does not take the error that it has in hand. -/
  | unheard (h : l.forwarder.isReporting) (hreads : l.readsErrors = false)
  /-- There will be nothing more on the queue. -/
  | drained (h : l.forwarder.isAwaitingNew) (hincoming : b.incoming = [])
    (hpublishers : b.publishers = 0)

/-- What the forwarder of the `n`-th lane, which is `l`, can do in one step: what becomes of the
lane, of the line for the queue, of the queue and of the returned messages. -/
inductive Broker.Advances (b : Broker) (n : Nat) (l : Lane) :
    Lane → List Nat → List Envelope → List Parcel → Prop
  /-- It has to wait, or has ended. -/
  | rest : Advances b n l l b.line b.incoming b.returned
  /-- It joins the line for the queue. -/
  | join (h : l.forwarder = .starting) :
    Advances b n l { l with forwarder := .queueing } (b.line ++ [n]) b.incoming b.returned
  /-- It has the queue from now on, and its wait begins. -/
  | enter (h : l.forwarder = .queueing) (hturn : b.line.head? = some n) :
    Advances b n l { l with forwarder := .looking (b.deadlineOf l.limit) } b.line b.incoming
      b.returned
  /-- It takes a returned message in hand. -/
  | takeReturned {deadline : Option Nat} {p : Parcel} {rest : List Parcel} {d : Delivery}
    (h : l.forwarder = .looking deadline) (hreturned : b.returned = p :: rest)
    (hd : p.Becomes d.toParcel) :
    Advances b n l { l with forwarder := .offering d } b.line b.incoming rest
  /-- It finds no returned message. -/
  | choose {deadline : Option Nat} (h : l.forwarder = .looking deadline)
    (hreturned : b.returned = []) :
    Advances b n l { l with forwarder := .choosing deadline } b.line b.incoming b.returned
  /-- It follows a sign. -/
  | followSign {deadline : Option Nat}
    (h : l.forwarder = .choosing deadline ∨ l.forwarder = .parked deadline true) :
    Advances b n l { l with forwarder := .looking deadline } b.line b.incoming b.returned
  /-- It takes a new message in hand. -/
  | takeMessage {p : Parcel} {rest incoming : List Envelope} {d : Delivery}
    (h : l.forwarder.isAwaitingNew) (hincoming : b.incoming = .message p :: rest)
    (hrest : rest <+: incoming) (hd : p.Becomes d.toParcel) :
    Advances b n l { l with forwarder := .offering d } b.line incoming b.returned
  /-- It takes a new error in hand. -/
  | takeError {text : String} {rest incoming : List Envelope} (h : l.forwarder.isAwaitingNew)
    (hincoming : b.incoming = .error text :: rest) (hrest : rest <+: incoming) :
    Advances b n l { l with forwarder := .reporting text false } b.line incoming b.returned
  /-- It begins to wait for an envelope or a sign. -/
  | park {deadline : Option Nat} (h : l.forwarder = .choosing deadline) (hsilent : b.speaks = false)
    (hearly : b.isOver deadline = false) :
    Advances b n l { l with forwarder := .parked deadline false } b.line b.incoming b.returned
  /-- It gives up waiting; there is no returned message. -/
  | timeOut {deadline : Option Nat}
    (h : l.forwarder = .choosing deadline ∨ l.forwarder = .parked deadline false)
    (hreturned : b.returned = []) (hsilent : b.speaks = false)
    (hover : b.isOver deadline = true) :
    Advances b n l { l with forwarder := .reporting (Broker.idleError (l.limit.getD .zero)) true }
      b.line b.incoming b.returned
  /-- It hands a message over, and its wait begins anew. -/
  | handOver {d : Delivery} (h : l.forwarder = .offering d) (hslot : l.slot = none) :
    Advances b n l { l with slot := some d, forwarder := .looking (b.deadlineOf l.limit) } b.line
      b.incoming b.returned
  /-- It hands an error over, and its wait begins anew. -/
  | report {error : String} (h : l.forwarder = .reporting error false)
    (hslot : l.errorSlot = none) :
    Advances b n l { l with errorSlot := some error, forwarder := .looking (b.deadlineOf l.limit) }
      b.line b.incoming b.returned
  /-- It hands its last error over, and ends. -/
  | reportLast {error : String} (h : l.forwarder = .reporting error true)
    (hslot : l.errorSlot = none) :
    Advances b n l { l with errorSlot := some error, forwarder := .ended }
      (b.line.erase n) b.incoming b.returned
  /-- It ends with a message in hand, which goes back. -/
  | giveBack {d : Delivery} (h : l.forwarder = .offering d) (hwhy : b.EndReason l) :
    Advances b n l { l with forwarder := .ended } (b.line.erase n) b.incoming
      (Broker.insertParcel d.toParcel b.returned)
  /-- It ends. -/
  | finish (h : l.forwarder.isEnded = false) (hhand : l.forwarder.isOffering = false)
    (hwhy : b.EndReason l) :
    Advances b n l { l with forwarder := .ended } (b.line.erase n) b.incoming b.returned

/-- Whether a change comes from a step of the forwarder of the `n`-th lane, which is `l`. -/
def Broker.Turned (b : Broker) (n : Nat) (l : Lane) (b' : Broker) : Prop :=
  ∃ l', b.Advances n l l' b'.line b'.incoming b'.returned ∧ b'.lanes = b.lanes.set n l'

/-- The lane whose forwarder takes a step in an event, if one does. -/
def Broker.Event.turnOf : Broker.Event → Option Nat
  | .forward n _ | .overrun n _ => some n
  | _ => none

/-- The lane that a reader does something about in an event, if one does. -/
def Broker.Event.readerOf (b : Broker) : Broker.Event → Option Nat
  | .receive n | .receiveError n | .dropErrors n | .dropMessages n => some n
  | .abort consumer => (b.consumers[consumer]?).bind Consumer.lane
  | _ => none

/-- What an event can do to lanes. -/
inductive Broker.Happens (b : Broker) (e : Broker.Event) (b' : Broker) : Prop
  /-- A user does something. -/
  | byUser (he : e.turnOf = none) (h : b.ChangedByUser (e.readerOf b) b')
  /-- A lane is opened. -/
  | opened (he : e.turnOf = none) {owner : Nat} {limit : Option Span}
    (h : ({ b with lanes := b.lanes ++ [Lane.start owner limit] } : Broker).ChangedByUser none b')
  /-- There is no such forwarder. -/
  | missed {n : Nat} (he : e.turnOf = some n) (h : b' = b)
  /-- A forwarder takes a step. -/
  | turned {n : Nat} {l : Lane} (he : e.turnOf = some n) (hl : b.lanes[n]? = some l)
    (h : b.Turned n l b')

namespace Broker

variable {b b' b'' : Broker} {n : Nat} {l : Lane}

/-! ## Users -/

theorem sublist_insertParcel (p : Parcel) (ps : List Parcel) : ps.Sublist (insertParcel p ps) := by
  induction ps with
  | nil => exact List.nil_sublist _
  | cons q ps ih =>
    rw [insertParcel]
    split
    · exact ih.cons_cons q
    · exact List.sublist_cons_self ..

namespace ChangedByUser

variable {own : Option Nat}

/-- What leaves lanes, the line, the queue and the returned messages as they are. -/
theorem of_eq (hlanes : b'.lanes = b.lanes) (hline : b'.line = b.line)
    (hincoming : b.incoming <+: b'.incoming) (hreturned : b'.returned = b.returned) :
    b.ChangedByUser own b' where
  after n l hl := ⟨l, by rw [hlanes, hl], .refl l⟩
  before n l hl := ⟨l, by rw [← hlanes, hl], .refl l⟩
  others n l l' _ hl hl' := by
    rw [hlanes, hl] at hl'
    rw [← Option.some.inj hl']
    exact .refl l
  line := hline
  incoming := hincoming
  returned := by rw [hreturned]

theorem of_core (h : b'.core = b.core) : b.ChangedByUser own b' := by
  have hincoming : b.incoming = b'.incoming := congrArg Core.incoming h.symm
  exact of_eq (congrArg Core.lanes h) (congrArg Core.line h) (hincoming ▸ List.prefix_refl _)
    (congrArg Core.returned h)

theorem refl (b : Broker) : b.ChangedByUser own b := of_core rfl

theorem trans (h : b.ChangedByUser own b') (h' : b'.ChangedByUser own b'') :
    b.ChangedByUser own b'' where
  after n l hl := by
    obtain ⟨l', hl', hchanged⟩ := h.after n l hl
    obtain ⟨l'', hl'', hchanged'⟩ := h'.after n l' hl'
    exact ⟨l'', hl'', hchanged.trans hchanged'⟩
  before n l'' hl'' := by
    obtain ⟨l', hl', hchanged'⟩ := h'.before n l'' hl''
    obtain ⟨l, hl, hchanged⟩ := h.before n l' hl'
    exact ⟨l, hl, hchanged.trans hchanged'⟩
  others n l l'' hn hl hl'' := by
    obtain ⟨l', hl', -⟩ := h.after n l hl
    exact (h.others n l l' hn hl hl').trans (h'.others n l' l'' hn hl' hl'')
  line := h'.line.trans h.line
  incoming := h.incoming.trans h'.incoming
  returned := h.returned.trans h'.returned

/-- A change of one lane. -/
theorem modifyLane (b : Broker) (n : Nat) {f : Lane → Lane}
    (hf : ∀ l, b.lanes[n]? = some l → l.ChangedByUser (f l))
    (hown : own = some n ∨ ∀ l, b.lanes[n]? = some l → l.SameUpToSign (f l)) :
    b.ChangedByUser own (b.modifyLane n f) := by
  have hlanes (i : Nat) :
      (b.modifyLane n f).lanes[i]? = (fun l => if n = i then f l else l) <$> b.lanes[i]? :=
    List.getElem?_modify ..
  have hchanged (i : Nat) (l : Lane) (hl : b.lanes[i]? = some l) :
      l.ChangedByUser (if n = i then f l else l) := by
    split
    · next hi => exact hf l (hi ▸ hl)
    · exact .refl l
  constructor
  case after => exact fun i l hl => ⟨_, by rw [hlanes, hl]; rfl, hchanged i l hl⟩
  case before =>
    intro i l' hl'
    rw [hlanes] at hl'
    obtain ⟨l, hl, rfl⟩ := Option.map_eq_some_iff.mp hl'
    exact ⟨l, hl, hchanged i l hl⟩
  case others =>
    intro i l l' hi hl hl'
    rw [hlanes, hl] at hl'
    rw [← Option.some.inj hl']
    split
    · next hni =>
      subst hni
      exact (hown.resolve_left hi) l hl
    · exact .refl l
  case line => rfl
  case incoming => exact List.prefix_refl _
  case returned => exact List.Sublist.refl _

/-- A sign reaches a forwarder that waits for one, or is kept. -/
theorem notify (b : Broker) : b.ChangedByUser own b.notify := by
  unfold Broker.notify
  split
  · exact of_eq rfl rfl (List.prefix_refl _) rfl
  · next n _ =>
    split
    · next deadline hparked =>
      have hupToSign (l : Lane) (hl : b.lanes[n]? = some l) :
          l.SameUpToSign { l with forwarder := .parked deadline true } := by
        rw [hl] at hparked
        exact .inr ⟨deadline, Option.some.inj hparked, rfl⟩
      exact trans (modifyLane b n (fun l hl => (hupToSign l hl).changedByUser) (.inr hupToSign))
        (of_core (core_wake _ _))
    · exact of_eq rfl rfl (List.prefix_refl _) rfl

/-- A message goes back. -/
theorem giveBack (b : Broker) (d : Delivery) : b.ChangedByUser own (b.giveBack d) := by
  have hreturned :
      b.ChangedByUser own { b.log (.returned d.id) with
        returned := insertParcel d.toParcel b.returned } := by
    constructor
    case after => exact fun _ l hl => ⟨l, hl, .refl l⟩
    case before => exact fun _ l hl => ⟨l, hl, .refl l⟩
    case others => exact fun _ l l' _ hl hl' => Option.some.inj (hl.symm.trans hl') ▸ .refl l
    case line => rfl
    case incoming => exact List.prefix_refl _
    case returned => exact sublist_insertParcel _ _
  exact hreturned.trans (notify _)

theorem send (b : Broker) (e : Envelope) : b.ChangedByUser own (b.send e).1 := by
  unfold Broker.send
  split
  · exact refl b
  · split
    · have haccepted : b.ChangedByUser own { b with incoming := b.incoming ++ [e] } :=
        of_eq rfl rfl (List.prefix_append _ _) rfl
      exact haccepted.trans (of_core (core_wakeParked _))
    · exact of_eq rfl rfl (List.prefix_refl _) rfl

theorem publish (b : Broker) (id : Option String) (payload : Json) :
    b.ChangedByUser own (b.publish id payload).1 := by
  have hnumbered : b.ChangedByUser own { b with nextSeq := b.nextSeq + 1 } :=
    of_eq rfl rfl (List.prefix_refl _) rfl
  exact hnumbered.trans (send _ _)

theorem dropPublisher (b : Broker) : b.ChangedByUser own b.dropPublisher := by
  have hdropped : b.ChangedByUser own { b with publishers := b.publishers - 1 } :=
    of_eq rfl rfl (List.prefix_refl _) rfl
  simp only [Broker.dropPublisher]
  split
  · exact hdropped.trans (of_core (core_wakeParked _))
  · exact hdropped

/-- A reader changes one of its streams. -/
theorem wakeIf (b : Broker) (n : Nat) {f : Lane → Lane} (hf : ∀ l : Lane, l.ChangedByUser (f l))
    (waits : Forwarder → Bool) :
    b.ChangedByUser (some n) ((b.modifyLane n f).wakeIf n waits) :=
  trans (modifyLane b n (fun l _ => hf l) (.inl rfl)) (of_core (core_wakeIf _ _ _))

theorem takeError (b : Broker) (n : Nat) : b.ChangedByUser (some n) (b.takeError n) := by
  have htakes (l : Lane) : l.ChangedByUser { l with errorSlot := none } :=
    ⟨.inl rfl, rfl, rfl, .inl rfl, .inr rfl⟩
  exact wakeIf b n htakes _

theorem dropErrors (b : Broker) (n : Nat) : b.ChangedByUser (some n) (b.dropErrors n) := by
  have hdrops (l : Lane) : l.ChangedByUser { l with readsErrors := false, errorSlot := none } :=
    ⟨.inl rfl, rfl, rfl, .inl rfl, .inr rfl⟩
  exact wakeIf b n hdrops _

theorem takeMessage (b : Broker) (n : Nat) : b.ChangedByUser (some n) (b.takeMessage n) := by
  unfold Broker.takeMessage
  split
  · exact refl b
  · next d _ =>
    have hemptied : b.ChangedByUser (some n) (b.modifyLane n fun l => { l with slot := none }) :=
      modifyLane b n (fun l _ => ⟨.inl rfl, rfl, rfl, .inr rfl, .inl rfl⟩) (.inl rfl)
    have hheld : (b.modifyLane n fun l => { l with slot := none }).ChangedByUser (some n)
        { b.modifyLane n fun l =>
          { l with slot := none } with held := b.held ++ [Holding.mk d false] } :=
      of_eq rfl rfl (List.prefix_refl _) rfl
    exact (hemptied.trans hheld).trans (of_core (core_wakeIf _ _ _))

theorem dropMessages (b : Broker) (n : Nat) : b.ChangedByUser (some n) (b.dropMessages n) := by
  have hdrops (l : Lane) : l.ChangedByUser { l with readsMessages := false, slot := none } :=
    ⟨.inl rfl, rfl, rfl, .inr rfl, .inl rfl⟩
  have hdropped := wakeIf b n hdrops Forwarder.isOffering
  unfold Broker.dropMessages
  dsimp only
  split
  · exact hdropped.trans (giveBack _ _)
  · exact hdropped

theorem dropMessage (b : Broker) (seq : Nat) : b.ChangedByUser own (b.dropMessage seq) := by
  unfold Broker.dropMessage
  split
  · exact refl b
  · dsimp only
    split
    · exact of_eq rfl rfl (List.prefix_refl _) rfl
    · have hheld : b.ChangedByUser own { b with held := b.held.filter (·.delivery.seq ≠ seq) } :=
        of_eq rfl rfl (List.prefix_refl _) rfl
      exact hheld.trans (giveBack _ _)

theorem abort (b : Broker) (consumer : Nat) :
    b.ChangedByUser ((b.consumers[consumer]?).bind Consumer.lane) (b.abort consumer) := by
  unfold Broker.abort
  split
  · exact refl b
  · next n hlane =>
    rw [hlane]
    have hconsumer : b.ChangedByUser (some n) (b.modifyConsumer consumer fun c =>
        { c with lane := none }) :=
      of_eq rfl rfl (List.prefix_refl _) rfl
    have haborted :
        b.ChangedByUser (some n) ((b.modifyConsumer consumer fun c =>
          { c with lane := none }).modifyLane n
        fun l => { l with aborted := true }) :=
      hconsumer.trans (modifyLane _ n (fun l _ => ⟨.inl rfl, rfl, rfl, .inl rfl, .inl rfl⟩)
        (.inl rfl))
    dsimp only
    split
    · exact haborted.trans (of_core (core_wake _ _))
    · exact haborted

end ChangedByUser

/-! ## Forwarders -/

theorem turned_of_core {l' : Lane} {g : Core} (hcore : b'.core = g)
    (h : b.Advances n l l' g.line g.incoming g.returned) (hlanes : g.lanes = b.lanes.set n l') :
    b.Turned n l b' := by
  subst hcore
  exact ⟨l', h, hlanes⟩

/-- A forwarder that has to wait changes nothing. -/
theorem turned_rest (hl : b.lanes[n]? = some l) : b.Turned n l b :=
  ⟨l, .rest, (set_eq_self hl).symm⟩

/-- A forwarder moves, and may follow a sign that was kept. -/
theorem turned_setForwarder (hl : b.lanes[n]? = some l) {f : Forwarder} (permit : Bool)
    (h : b.Advances n l { l with forwarder := f } b.line b.incoming b.returned) :
    b.Turned n l (({ b with permit } : Broker).setForwarder n f) :=
  turned_of_core (core_setForwarder (b := { b with permit }) hl f) h rfl

/-- A forwarder that ends leaves the line. -/
theorem core_leave (hl : b.lanes[n]? = some l) (t : Task) :
    (((b.leaveLine n).setForwarder n .ended).wake t).core =
      Core.setLane { b.core with line := b.line.erase n } n { l with forwarder := .ended } := by
  have hlanes : (b.leaveLine n).lanes = b.lanes := congrArg Core.lanes (core_leaveLine b n)
  rw [core_wake, core_setForwarder (hlanes ▸ hl), core_leaveLine]

/-- One that has put its last error in the slot leaves the line. -/
theorem core_reportLast (hl : b.lanes[n]? = some l) {error : String}
    (hlast : l.forwarder = .reporting error true) :
    ((b.modifyLane n fun l => { l with errorSlot := some error }).finish n l).core =
      Core.setLane { b.core with line := b.line.erase n } n
        { l with errorSlot := some error, forwarder := .ended } := by
  obtain ⟨hlt, -⟩ := List.getElem?_eq_some_iff.mp hl
  have hset : (b.modifyLane n fun l => { l with errorSlot := some error }).lanes =
      b.lanes.set n { l with errorSlot := some error } := modify_eq_set hl _
  have hself : (b.modifyLane n fun l => { l with errorSlot := some error }).lanes[n]? =
      some { l with errorSlot := some error } := by
    rw [hset]
    exact List.getElem?_set_self hlt
  simp only [finish, hlast]
  rw [core_leave hself, core_modifyLane hl]
  simp only [Core.setLane, List.set_set]
  rfl

/-- A message that it has in hand goes back, and its sign reaches nobody, for the forwarder has the
queue. -/
theorem turned_finish (hsigns : b.queueState.SignsKept) (hl : b.lanes[n]? = some l)
    (hended : l.forwarder.isEnded = false) (hwhy : b.EndReason l) :
    b.Turned n l (b.finish n l) := by
  unfold finish
  cases hforwarder : l.forwarder with
  | offering d =>
    have hqueue : b.line.head? = some n :=
      hsigns.queue (getElem?_forwarders hl) (by rw [hforwarder]; rfl)
    have hkept : b.giveBack d =
        { b.log (.returned d.id) with
          returned := insertParcel d.toParcel b.returned, permit := true } := by
      have hlookup : (b.lanes[n]?).map Lane.forwarder = some (.offering d) := by
        rw [hl, Option.map_some, hforwarder]
      simp only [giveBack, requeue, notify, holder?, log, hqueue, hlookup]
    simp only [hkept]
    exact turned_of_core (core_leave (b := { b.log (.returned d.id) with
      returned := insertParcel d.toParcel b.returned, permit := true }) hl _)
        (.giveBack hforwarder hwhy) rfl
  | parked deadline notified =>
    have hfinish :
        b.Advances n l { l with forwarder := .ended } (b.line.erase n) b.incoming b.returned :=
      .finish hended (by rw [hforwarder]; rfl) hwhy
    cases notified with
    | true => exact turned_of_core (core_leave (b := { b with permit := true }) hl _) hfinish rfl
    | false => exact turned_of_core (core_leave hl _) hfinish rfl
  | ended =>
    rw [hforwarder] at hended
    cases hended
  | _ => exact turned_of_core (core_leave hl _) (.finish hended (by rw [hforwarder]; rfl) hwhy) rfl

/-- An envelope is taken off the queue, and one that waits may get the room. -/
theorem prefix_dequeue (g : Core) (rest : List Envelope) : rest <+: (g.dequeue rest).incoming := by
  unfold Core.dequeue
  split
  · exact List.prefix_refl _
  · split
    · exact List.prefix_append _ _
    · exact List.prefix_refl _

/-- A forwarder that looks for an envelope takes the first one, or ends if there will be none. -/
theorem turned_takeNew (hsigns : b.queueState.SignsKept) (hl : b.lanes[n]? = some l)
    (hawaiting : l.forwarder.isAwaitingNew) (hspeaks : b.speaks = true) :
    b.Turned n l (b.takeNew n l).1 := by
  have hrefilled (rest : List Envelope) :
      ({ b with incoming := rest } : Broker).refill.lanes[n]? = some l := by
    rw [lanes_refill]
    exact hl
  unfold takeNew
  split
  · next hincoming =>
    have hpublishers : b.publishers = 0 := by simpa [speaks, hincoming] using hspeaks
    exact turned_finish hsigns hl (Forwarder.isEnded_of_isAwaitingNew hawaiting)
      (.drained hawaiting hincoming hpublishers)
  · next p rest hincoming =>
    obtain ⟨d, hd, hpicked⟩ := core_pickUp (hrefilled rest) p
    obtain ⟨incoming, blocked, hdequeue⟩ := Core.dequeue_eq b.core rest
    have hrest : rest <+: incoming := by
      have hprefix := prefix_dequeue b.core rest
      rwa [hdequeue] at hprefix
    rw [core_refill, hdequeue] at hpicked
    exact turned_of_core hpicked (.takeMessage hawaiting hincoming hrest hd) rfl
  · next text rest hincoming =>
    obtain ⟨incoming, blocked, hdequeue⟩ := Core.dequeue_eq b.core rest
    have hrest : rest <+: incoming := by
      have hprefix := prefix_dequeue b.core rest
      rwa [hdequeue] at hprefix
    have hset := core_setForwarder (hrefilled rest) (.reporting text false)
    rw [core_refill, hdequeue] at hset
    exact turned_of_core hset (.takeError hawaiting hincoming hrest) rfl

/-- What a forwarder can do does not depend on whether a sign is kept. -/
theorem Advances.of_permit {permit : Bool} {l' : Lane} {line : List Nat} {incoming : List Envelope}
    {returned : List Parcel}
    (h : ({ b with permit } : Broker).Advances n l l' line incoming returned) :
    b.Advances n l l' line incoming returned := by
  have hreason (hwhy : ({ b with permit } : Broker).EndReason l) : b.EndReason l := by
    cases hwhy with
    | aborted h => exact .aborted h
    | unread h hreads => exact .unread h hreads
    | unheard h hreads => exact .unheard h hreads
    | drained h hincoming hpublishers => exact .drained h hincoming hpublishers
  cases h with
  | giveBack h hwhy => exact .giveBack h (hreason hwhy)
  | finish h hhand hwhy => exact .finish h hhand (hreason hwhy)
  | _ =>
    constructor
    all_goals assumption

theorem turned_choose (hsigns : b.queueState.SignsKept) (hl : b.lanes[n]? = some l)
    {deadline : Option Nat} (hforwarder : l.forwarder = .choosing deadline) (favourNew : Bool) :
    b.Turned n l (b.choose n l deadline favourNew).1 := by
  have hawaiting : l.forwarder.isAwaitingNew := by
    rw [hforwarder]
    rfl
  unfold choose
  split
  · exact turned_setForwarder hl false (.followSign (.inl hforwarder))
  · next hpermit =>
    split
    · next hspeaks => exact turned_takeNew hsigns hl hawaiting hspeaks
    · next hspeaks =>
      rw [Bool.not_eq_true] at hspeaks
      split
      · next hover =>
        refine turned_setForwarder hl b.permit (.timeOut (.inl hforwarder) ?_ hspeaks hover)
        by_contra hreturned
        have htold := hsigns.sign (getElem?_forwarders hl) hawaiting hreturned
        rw [hforwarder] at htold
        change b.permit = true at htold
        rw [htold, hspeaks, Bool.and_false] at hpermit
        exact hpermit rfl
      · next hearly =>
        rw [Bool.not_eq_true] at hearly
        exact turned_setForwarder hl b.permit (.park hforwarder hspeaks hearly)

theorem turned_resume (hsigns : b.queueState.SignsKept) (hl : b.lanes[n]? = some l)
    {deadline : Option Nat} {notified : Bool} (hforwarder : l.forwarder = .parked deadline notified)
    (favourNew : Bool) :
    b.Turned n l (b.resume n l deadline notified favourNew).1 := by
  have hawaiting : l.forwarder.isAwaitingNew := by
    rw [hforwarder]
    rfl
  unfold resume
  split
  · next hnotified =>
    rw [(Bool.and_eq_true_iff.mp hnotified).1] at hforwarder
    exact turned_setForwarder hl b.permit (.followSign (.inr hforwarder))
  · next hnotified =>
    split
    · next hspeaks =>
      obtain ⟨l', hadvances, hlanes⟩ :=
        turned_takeNew (b := { b with permit := b.permit || notified }) (hsigns.keep notified) hl
          hawaiting hspeaks
      exact ⟨l', hadvances.of_permit, hlanes⟩
    · next hspeaks =>
      rw [Bool.not_eq_true] at hspeaks
      obtain rfl : notified = false := by simpa [hspeaks] using hnotified
      split
      · next hover =>
        refine turned_setForwarder hl b.permit (.timeOut (.inr hforwarder) ?_ hspeaks hover)
        by_contra hreturned
        have htold := hsigns.sign (getElem?_forwarders hl) hawaiting hreturned
        rw [hforwarder] at htold
        cases htold
      · exact turned_rest hl

/-- A forwarder does one of the things that there are to do. -/
theorem turned_proceed (hsigns : b.queueState.SignsKept) (hl : b.lanes[n]? = some l)
    (favourNew : Bool) :
    b.Turned n l (b.proceed n l favourNew).1 := by
  unfold proceed
  cases hforwarder : l.forwarder with
  | starting =>
    exact turned_of_core (core_setForwarder (b := { b with line := b.line ++ [n] }) hl .queueing)
      (.join hforwarder) rfl
  | queueing =>
    simp only [takeQueue]
    split
    · next hturn => exact turned_setForwarder hl b.permit (.enter hforwarder hturn)
    · exact turned_rest hl
  | looking deadline =>
    simp only [look]
    split
    · next p rest hreturned =>
      obtain ⟨d, hd, hpicked⟩ := core_pickUp (b := { b with returned := rest }) hl p
      exact turned_of_core hpicked (.takeReturned hforwarder hreturned hd) rfl
    · next hreturned => exact turned_setForwarder hl b.permit (.choose hforwarder hreturned)
  | choosing deadline => exact turned_choose hsigns hl hforwarder favourNew
  | parked deadline notified => exact turned_resume hsigns hl hforwarder favourNew
  | offering d =>
    simp only [handOver]
    split
    · next hreads =>
      rw [Bool.not_eq_true'] at hreads
      exact turned_finish hsigns hl (by rw [hforwarder]; rfl)
        (.unread (by rw [hforwarder]; rfl) hreads)
    · split
      · exact turned_rest hl
      · next hslot =>
        refine turned_of_core ((core_wake _ _).trans (core_modifyLane hl _))
          (.handOver hforwarder ?_) rfl
        simpa using hslot
  | reporting error last =>
    have hended : l.forwarder.isEnded = false := by
      rw [hforwarder]
      rfl
    simp only [report]
    split
    · next hreads =>
      rw [Bool.not_eq_true'] at hreads
      exact turned_finish hsigns hl hended (.unheard (by rw [hforwarder]; rfl) hreads)
    · split
      · exact turned_rest hl
      · next hslot =>
        have hempty : l.errorSlot = none := by simpa using hslot
        split
        · next hlast =>
          rw [hlast] at hforwarder
          exact turned_of_core (core_reportLast hl hforwarder) (.reportLast hforwarder hempty) rfl
        · next hlast =>
          rw [Bool.not_eq_true] at hlast
          rw [hlast] at hforwarder
          exact turned_of_core ((core_wake _ _).trans (core_modifyLane hl _))
            (.report hforwarder hempty) rfl
  | ended => exact turned_rest hl

/-! ## Any event -/

/-- Opening a lane leaves the others alone. -/
theorem changedByUser_consume (b : Broker) (consumer owner : Nat) :
    b.ChangedByUser none (b.consume consumer owner).1 ∨
      ∃ limit, ({ b with lanes := b.lanes ++ [Lane.start owner limit] } : Broker).ChangedByUser none
        (b.consume consumer owner).1 := by
  unfold consume
  split
  · exact .inl (.refl b)
  · next c _ =>
    split
    · exact .inl (.refl b)
    · refine .inr ⟨c.limit, ?_⟩
      have hgiven :
          ({ b with lanes := b.lanes ++ [Lane.start owner c.limit] } : Broker).ChangedByUser none
          (({ b with lanes := b.lanes ++ [Lane.start owner c.limit] } : Broker).modifyConsumer
            consumer
            fun c => { c with lane := some b.lanes.length }) :=
              .of_eq rfl rfl (List.prefix_refl _) rfl
      exact hgiven.trans (.of_core (core_wake _ _))

/-- What users do but open lanes. -/
theorem changedByUser_apply (b : Broker) {e : Event} (he : e.turnOf = none)
    (hconsume : ∀ consumer owner, e ≠ .consume consumer owner) :
    b.ChangedByUser (e.readerOf b) (b.apply e) := by
  cases e with
  | forward | overrun => cases he
  | consume consumer owner => exact absurd rfl (hconsume consumer owner)
  | publish id payload => exact .publish b id payload
  | fail text => exact .send b _
  | dropPublisher => exact .dropPublisher b
  | abort consumer => exact .abort b consumer
  | receive n => exact .takeMessage b n
  | receiveError n => exact .takeError b n
  | dropErrors n => exact .dropErrors b n
  | dropMessages n => exact .dropMessages b n
  | dropMessage seq => exact .dropMessage b seq
  | setClock now => exact .of_core (core_setClock b now)
  | clonePublisher =>
    simp only [apply, clonePublisher]
    split
    · exact .refl b
    · exact .of_eq rfl rfl (List.prefix_refl _) rfl
  | create =>
    simp only [apply, create]
    split <;> exact .of_eq rfl rfl (List.prefix_refl _) rfl
  | settle seq disposition =>
    simp only [apply, settle]
    split
    · exact .refl b
    · exact .of_eq rfl rfl (List.prefix_refl _) rfl
  | giveUp | failAttempts | dropFactory | setTimeout | close | dropConsumer =>
    exact .of_eq rfl rfl (List.prefix_refl _) rfl

/-- What an event does to lanes. -/
theorem happens_apply (hsigns : b.queueState.SignsKept) (e : Event) : b.Happens e (b.apply e) := by
  cases he : e.turnOf with
  | none =>
    by_cases hconsume : ∃ consumer owner, e = .consume consumer owner
    · obtain ⟨consumer, owner, rfl⟩ := hconsume
      rcases changedByUser_consume b consumer owner with hchanged | ⟨limit, hchanged⟩
      · exact .byUser rfl hchanged
      · exact .opened rfl hchanged
    · exact .byUser he (changedByUser_apply b he fun consumer owner heq =>
        hconsume ⟨consumer, owner, heq⟩)
  | some n =>
    have hstep : ∃ favourNew, b.apply e = (b.advance n favourNew).1 ∨
        b.apply e = b.overrun n favourNew := by
      cases e with
      | forward m favourNew =>
        obtain rfl := Option.some.inj he
        exact ⟨favourNew, .inl rfl⟩
      | overrun m favourNew =>
        obtain rfl := Option.some.inj he
        exact ⟨favourNew, .inr rfl⟩
      | _ => cases he
    obtain ⟨favourNew, hstep⟩ := hstep
    cases hl : b.lanes[n]? with
    | none =>
      refine .missed he ?_
      rcases hstep with hstep | hstep
      · rw [hstep, advance, hl]
      · rw [hstep, overrun, hl, Option.elim_none]
    | some l =>
      refine .turned he hl ?_
      rcases hstep with hstep | hstep
      · rw [hstep, advance, hl]
        simp only
        split
        · next haborted =>
          obtain ⟨hasked, hactive⟩ := Bool.and_eq_true_iff.mp haborted
          exact turned_finish hsigns hl (by simpa using hactive) (.aborted hasked)
        · exact turned_proceed hsigns hl favourNew
      · rw [hstep, overrun, hl]
        exact turned_proceed hsigns hl favourNew

/-- What an event does to one lane: a user does it, or the lane's forwarder. -/
theorem Happens.lane {e : Event} {l' : Lane} (h : b.Happens e b') (hl : b.lanes[n]? = some l)
    (hl' : b'.lanes[n]? = some l') :
    l.ChangedByUser l' ∧ (e.readerOf b ≠ some n → l.SameUpToSign l') ∨
      e.turnOf = some n ∧ b.Advances n l l' b'.line b'.incoming b'.returned ∧
      b'.lanes = b.lanes.set n l' := by
  cases h with
  | byUser _ hchanged =>
    obtain ⟨x, hx, hlane⟩ := hchanged.after n l hl
    obtain rfl := Option.some.inj (hl'.symm.trans hx)
    exact .inl ⟨hlane, fun hn => hchanged.others n l l' hn hl hl'⟩
  | @opened _ owner limit hchanged =>
    obtain ⟨hlt, -⟩ := List.getElem?_eq_some_iff.mp hl
    have hold : (b.lanes ++ [Lane.start owner limit])[n]? = some l :=
      (List.getElem?_append_left hlt).trans hl
    have hupToSign := hchanged.others n l l' (fun h => by cases h) hold hl'
    exact .inl ⟨hupToSign.changedByUser, fun _ => hupToSign⟩
  | missed _ hsame =>
    rw [hsame, hl] at hl'
    obtain rfl := Option.some.inj hl'
    exact .inl ⟨.refl l, fun _ => .refl l⟩
  | @turned m x he hx hturned =>
    obtain ⟨x', hadvances, hlanes⟩ := hturned
    rw [hlanes] at hl'
    rcases getElem?_set_cases hl' with ⟨rfl, rfl⟩ | ⟨-, hsame⟩
    · obtain rfl := Option.some.inj (hx.symm.trans hl)
      exact .inr ⟨he, hadvances, hlanes⟩
    · obtain rfl := Option.some.inj (hl.symm.trans hsame)
      exact .inl ⟨.refl l, fun _ => .refl l⟩

/-- Lanes are never taken away. -/
theorem Happens.kept {e : Event} (h : b.Happens e b') (hl : b.lanes[n]? = some l) :
    ∃ l', b'.lanes[n]? = some l' := by
  obtain ⟨hlt, -⟩ := List.getElem?_eq_some_iff.mp hl
  cases h with
  | byUser _ hchanged =>
    obtain ⟨l', hl', -⟩ := hchanged.after n l hl
    exact ⟨l', hl'⟩
  | @opened _ owner limit hchanged =>
    have hold : (b.lanes ++ [Lane.start owner limit])[n]? = some l :=
      (List.getElem?_append_left hlt).trans hl
    obtain ⟨l', hl', -⟩ := hchanged.after n l hold
    exact ⟨l', hl'⟩
  | missed _ hsame => exact ⟨l, hsame.symm ▸ hl⟩
  | turned _ _ hturned =>
    obtain ⟨x', -, hlanes⟩ := hturned
    have hlt' : n < b'.lanes.length := by rwa [hlanes, List.length_set]
    exact ⟨_, List.getElem?_eq_getElem hlt'⟩

/-- A lane was there before, or its forwarder has not begun. -/
theorem Happens.before {e : Event} (h : b.Happens e b') (hl : b'.lanes[n]? = some l) :
    (∃ l, b.lanes[n]? = some l) ∨ l.forwarder = .starting := by
  cases h with
  | byUser _ hchanged =>
    obtain ⟨x, hx, -⟩ := hchanged.before n l hl
    exact .inl ⟨x, hx⟩
  | opened _ hchanged =>
    obtain ⟨x, hx, hlane⟩ := hchanged.before n l hl
    rcases getElem?_concat_cases hx with hx | ⟨-, rfl⟩
    · exact .inl ⟨x, hx⟩
    · rcases hlane.forwarder with hsame | ⟨deadline, hparked, -⟩
      · exact .inr hsame
      · cases hparked
  | missed _ hsame => exact .inl ⟨l, hsame ▸ hl⟩
  | @turned m x _ hx hturned =>
    obtain ⟨x', -, hlanes⟩ := hturned
    rw [hlanes] at hl
    rcases getElem?_set_cases hl with ⟨rfl, -⟩ | ⟨-, hl⟩
    · exact .inl ⟨x, hx⟩
    · exact .inl ⟨l, hl⟩

/-! ## Where a step leads -/

theorem getElem?_setForwarder (hl : b.lanes[n]? = some l) (permit : Bool) (f : Forwarder) :
    (({ b with permit } : Broker).setForwarder n f).lanes[n]? = some { l with forwarder := f } := by
  obtain ⟨hlt, -⟩ := List.getElem?_eq_some_iff.mp hl
  have hlanes := congrArg Core.lanes (core_setForwarder (b := { b with permit }) hl f)
  exact (congrArg (·[n]?) hlanes).trans (List.getElem?_set_self hlt)

theorem getElem?_modifyLane_wake (hl : b.lanes[n]? = some l) (f : Lane → Lane) (t : Task) :
    ((b.modifyLane n f).wake t).lanes[n]? = some (f l) := by
  obtain ⟨hlt, -⟩ := List.getElem?_eq_some_iff.mp hl
  have hlanes := congrArg Core.lanes ((core_wake _ t).trans (core_modifyLane hl f))
  exact (congrArg (·[n]?) hlanes).trans (List.getElem?_set_self hlt)

/-- A forwarder that has a message in hand hands it over, if the slot is free and its reader takes
messages, and begins to wait again. -/
theorem advance_offering (hl : b.lanes[n]? = some l) (haborted : l.aborted = false)
    (hreads : l.readsMessages = true) (hslot : l.slot = none) {d : Delivery}
    (hoffering : l.forwarder = .offering d) (favourNew : Bool) :
    (b.advance n favourNew).1.lanes[n]? =
      some { l with slot := some d, forwarder := .looking (b.deadlineOf l.limit) } := by
  have hstep : (b.advance n favourNew).1 =
      (b.modifyLane n fun l =>
        { l with slot := some d, forwarder := .looking (b.deadlineOf l.limit) }).wake
        (.reader l.owner) := by
    simp [advance, hl, haborted, proceed, hoffering, handOver, hreads, hslot]
  rw [hstep]
  exact getElem?_modifyLane_wake hl _ _

/-- So does one that has an error in hand, unless that is its last. -/
theorem advance_reporting (hl : b.lanes[n]? = some l) (haborted : l.aborted = false)
    (hreads : l.readsErrors = true) (hslot : l.errorSlot = none) {error : String}
    (hreporting : l.forwarder = .reporting error false) (favourNew : Bool) :
    (b.advance n favourNew).1.lanes[n]? =
      some { l with errorSlot := some error, forwarder := .looking (b.deadlineOf l.limit) } := by
  have hstep : (b.advance n favourNew).1 =
      (b.modifyLane n fun l =>
        { l with errorSlot := some error, forwarder := .looking (b.deadlineOf l.limit) }).wake
        (.reader l.owner) := by
    simp [advance, hl, haborted, proceed, hreporting, report, hreads, hslot]
  rw [hstep]
  exact getElem?_modifyLane_wake hl _ _

end Broker

end Courier
