import Courier.Proofs.Broker.Forwarding
import Mathlib.Algebra.Order.Group.Multiset

/-!
# The balance of the transport

Two books are kept on the messages of a transport. `Contents.parcels` is the multiset of those that
are under way, and `Contents.balance` counts by number what is under way, what readers have not
settled, and what was settled: together that is what was accepted. And a message does not change any
more once a reader has had it.

`Contents.Sound` holds of the contents as long as both books are right. There is one lemma for each
thing that can happen to a message: it is accepted, it changes its place, gets an identifier, is
received, settled or let go of. `Contents.Sound.forwards` puts together what a forwarder does.
-/

namespace Courier

/-! ## The messages of a transport -/

/-- The messages in a lane. -/
def LaneContents.parcels (c : LaneContents) : Multiset Parcel :=
  ↑(c.slot.toList.map Delivery.toParcel) + ↑(c.handState.hand?.toList.map Delivery.toParcel)

/-- A forwarder without a message in hand takes one. -/
theorem LaneContents.parcels_carrying {c : LaneContents} (h : c.handState.IsFree) (d : Delivery) :
    (c.withHandState (.carrying d)).parcels = d.toParcel ::ₘ c.parcels := by
  show ↑(c.slot.toList.map Delivery.toParcel) + ({d.toParcel} : Multiset Parcel) = _
  rw [parcels, HandState.hand?_of_isFree h, Option.toList_none, List.map_nil, Multiset.coe_nil,
    add_zero, add_comm, Multiset.singleton_add]

/-- A forwarder with a message in hand does something about it. -/
theorem LaneContents.parcels_of_carrying {c : LaneContents} {d : Delivery}
    (h : c.handState = .carrying d) :
    c.parcels = d.toParcel ::ₘ ↑(c.slot.toList.map Delivery.toParcel) := by
  rw [parcels, h]
  show _ + ({d.toParcel} : Multiset Parcel) = _
  rw [add_comm, Multiset.singleton_add]

/-- A message in the slot is in the lane. -/
theorem LaneContents.parcels_of_slot {c : LaneContents} {d : Delivery} (h : c.slot = some d) :
    c.parcels = d.toParcel ::ₘ ({ c with slot := none } : LaneContents).parcels := by
  rw [parcels, h]
  show ({d.toParcel} : Multiset Parcel) + _ = _
  rw [Multiset.singleton_add]
  refine congrArg _ ?_
  exact (zero_add _).symm

theorem Delivery.toParcel_inj {d e : Delivery} : d.toParcel = e.toParcel ↔ d = e := by
  cases d
  cases e
  simp [toParcel]

namespace Contents

/-- The messages that the transport has: on the queue, returned, in a slot or in a hand. -/
def parcels (s : Contents) : Multiset Parcel :=
  ↑(s.incoming.filterMap Envelope.parcel?) + ↑s.returned + (s.lanes.map LaneContents.parcels).sum

/-- A change of one lane changes what is in it. -/
theorem parcels_atLane {s : Contents} {lane : Nat} {c : LaneContents}
    (h : s.lanes[lane]? = some c) :
    ∃ rest, s.parcels = c.parcels + rest ∧
      ∀ f, (s.atLane lane f).parcels = (f c).parcels + rest := by
  obtain ⟨rest, hsum, hset⟩ := exists_sum_map_set LaneContents.parcels h
  refine ⟨↑(s.incoming.filterMap Envelope.parcel?) + ↑s.returned + rest, ?_, fun f => ?_⟩
  · rw [parcels, hsum, add_left_comm]
  · show _ + _ + ((s.lanes.modify lane f).map LaneContents.parcels).sum = _
    rw [modify_eq_set h, hset, add_left_comm]
    rfl

theorem perm_insertParcel (p : Parcel) (ps : List Parcel) :
    (Broker.insertParcel p ps).Perm (p :: ps) := by
  induction ps with
  | nil => exact List.Perm.refl _
  | cons q ps ih =>
    simp only [Broker.insertParcel]
    split
    · exact (ih.cons q).trans (List.Perm.swap p q ps)
    · exact List.Perm.refl _

theorem parcels_requeue (s : Contents) (p : Parcel) : (s.requeue p).parcels = p ::ₘ s.parcels := by
  have hreturned : ((Broker.insertParcel p s.returned : List Parcel) : Multiset Parcel) =
      p ::ₘ ↑s.returned := Multiset.coe_eq_coe.mpr (perm_insertParcel p s.returned)
  show _ + ((Broker.insertParcel p s.returned : List Parcel) : Multiset Parcel) + _ = _
  rw [hreturned, Multiset.add_cons, Multiset.cons_add]
  rfl

/-- An envelope that comes on the queue brings its message with it. -/
theorem parcels_append (s : Contents) (e : Envelope) :
    ({ s with incoming := s.incoming ++ [e] } : Contents).parcels =
      ↑e.parcel?.toList + s.parcels := by
  have hnew : [e].filterMap Envelope.parcel? = e.parcel?.toList := by
    cases e <;> rfl
  show (((s.incoming ++ [e]).filterMap Envelope.parcel? : List Parcel) : Multiset Parcel) + _ + _ =
    _
  rw [List.filterMap_append, hnew, ← Multiset.coe_add, parcels]
  ac_rfl

/-- How many messages with the given number readers have and have not settled. -/
def unsettled (s : Contents) (seq : Nat) : Nat :=
  s.held.countP fun h => h.delivery.seq = seq && !h.settled

/-- Whether a message with the given number was settled. -/
def IsSettled (s : Contents) (seq : Nat) : Prop := ∃ o ∈ s.outcomes, o.seq = seq

instance (s : Contents) (seq : Nat) : Decidable (s.IsSettled seq) :=
  inferInstanceAs (Decidable (∃ o ∈ s.outcomes, o.seq = seq))

/-- How many messages with the given number are under way, with readers who have not settled them,
or settled. -/
def balance (s : Contents) (seq : Nat) : Nat :=
  s.parcels.countP (fun p => p.seq = seq) + s.unsettled seq + if s.IsSettled seq then 1 else 0

/-- What readers have and have settled, they have received, and nobody else has it. -/
structure Known (s : Contents) (received : List Delivery) : Prop where
  once : ∀ seq, (s.held.countP fun h => h.delivery.seq = seq) ≤ 1
  settled : ∀ h ∈ s.held, h.settled = true → s.IsSettled h.delivery.seq
  held : ∀ h ∈ s.held, h.delivery ∈ received
  outcomes : ∀ o ∈ s.outcomes, ∃ d ∈ received, d.seq = o.seq ∧ d.id = o.id
  agree : ∀ d ∈ received, ∀ d' ∈ received, d.seq = d'.seq → d = d'

/-- All messages are accounted for: what is under way, with readers or settled is what was accepted,
and a message does not change any more once it was received. -/
structure Sound (s : Contents) (accepted : List Parcel) (received : List Delivery) : Prop where
  numbered : s.Numbered accepted
  balanced : ∀ seq, s.balance seq = accepted.countP fun p => p.seq = seq
  known : s.Known received
  kept : ∀ p ∈ s.parcels, ∃ q ∈ accepted, q.Becomes p
  keptReceived : ∀ d ∈ received, ∃ q ∈ accepted, q.Becomes d.toParcel
  steady : ∀ d ∈ received, ∀ p ∈ s.parcels, p.seq = d.seq → p = d.toParcel

variable {s s' : Contents} {accepted : List Parcel} {received : List Delivery}

theorem isSettled_congr (houtcomes : s'.outcomes = s.outcomes) (seq : Nat) :
    s'.IsSettled seq ↔ s.IsSettled seq := by
  rw [IsSettled, houtcomes, IsSettled]

/-- As long as readers do nothing, the balance depends on what is under way. -/
theorem balance_of_eq (hheld : s'.held = s.held) (houtcomes : s'.outcomes = s.outcomes)
    (seq : Nat) :
    s'.balance seq + s.parcels.countP (fun p => p.seq = seq) =
      s.balance seq + s'.parcels.countP fun p => p.seq = seq := by
  simp only [balance, unsettled, hheld, isSettled_congr houtcomes]
  omega

theorem Known.of_eq (h : s.Known received) (hheld : s'.held = s.held)
    (houtcomes : s'.outcomes = s.outcomes) : s'.Known received where
  once := hheld ▸ h.once
  settled g hg hsettled :=
    (isSettled_congr houtcomes _).mpr (h.settled g (hheld ▸ hg) hsettled)
  held := hheld ▸ h.held
  outcomes := houtcomes ▸ h.outcomes
  agree := h.agree

namespace Sound

/-- No two accepted messages have the same number. -/
theorem countP_accepted_le (h : s.Sound accepted received) (seq : Nat) :
    (accepted.countP fun p => p.seq = seq) ≤ 1 := by
  have hsorted := (List.pairwise_append.mp h.numbered.sorted).1
  clear h
  induction accepted with
  | nil => exact Nat.zero_le 1
  | cons p accepted ih =>
    obtain ⟨hp, hrest⟩ := List.pairwise_cons.mp hsorted
    rw [List.countP_cons]
    split
    · next heq =>
      have hzero : (accepted.countP fun q => q.seq = seq) = 0 := by
        rw [List.countP_eq_zero]
        intro q hq hseq
        have hlt := hp q hq
        rw [of_decide_eq_true heq, of_decide_eq_true hseq] at hlt
        exact Nat.lt_irrefl _ hlt
      omega
    · exact ih hrest

/-- A message that the transport has is nowhere else. -/
theorem elsewhere (h : s.Sound accepted received) {p : Parcel} (hp : p ∈ s.parcels) :
    s.parcels.countP (fun q => q.seq = p.seq) = 1 ∧ s.unsettled p.seq = 0 ∧
      ¬ s.IsSettled p.seq := by
  have hpos : 0 < s.parcels.countP fun q => q.seq = p.seq := Multiset.countP_pos_of_mem hp rfl
  have hbalanced := h.balanced p.seq
  have hle := h.countP_accepted_le p.seq
  rw [balance] at hbalanced
  by_cases hsettled : s.IsSettled p.seq
  · rw [if_pos hsettled] at hbalanced
    omega
  · rw [if_neg hsettled] at hbalanced
    exact ⟨by omega, by omega, hsettled⟩

theorem unsettled_pos {g : Holding} (hg : g ∈ s.held) (hopen : g.settled = false) :
    0 < s.unsettled g.delivery.seq := by
  rw [unsettled, List.countP_pos_iff]
  exact ⟨g, hg, by simp [hopen]⟩

/-- Nobody has a message that the transport has. -/
theorem ne_of_held (h : s.Sound accepted received) {p : Parcel} (hp : p ∈ s.parcels) {g : Holding}
    (hg : g ∈ s.held) : g.delivery.seq ≠ p.seq := by
  intro heq
  obtain ⟨-, hunsettled, hsettled⟩ := h.elsewhere hp
  rw [← heq] at hunsettled hsettled
  cases hopen : g.settled with
  | true => exact hsettled (h.known.settled g hg hopen)
  | false => exact absurd (unsettled_pos hg hopen) (by omega)

/-- Messages are accepted. -/
theorem accept (h : s.Sound accepted received) {new : List Parcel}
    (hnumbered : s'.Numbered (accepted ++ new)) (hparcels : s'.parcels = ↑new + s.parcels)
    (hheld : s'.held = s.held) (houtcomes : s'.outcomes = s.outcomes) :
    s'.Sound (accepted ++ new) received := by
  have hnew : ∀ p ∈ accepted, ∀ q ∈ new, p.seq < q.seq :=
    (List.pairwise_append.mp (List.pairwise_append.mp hnumbered.sorted).1).2.2
  refine ⟨hnumbered, ?balanced, h.known.of_eq hheld houtcomes, ?kept, ?keptReceived, ?steady⟩
  case balanced =>
    intro seq
    have hbalance := balance_of_eq hheld houtcomes seq
    rw [hparcels, Multiset.countP_add, Multiset.coe_countP, h.balanced] at hbalance
    rw [List.countP_append]
    omega
  case kept =>
    intro p hp
    rw [hparcels] at hp
    rcases Multiset.mem_add.mp hp with hp | hp
    · exact ⟨p, List.mem_append_right _ (Multiset.mem_coe.mp hp), .refl p⟩
    · obtain ⟨q, hq, hbecomes⟩ := h.kept p hp
      exact ⟨q, List.mem_append_left _ hq, hbecomes⟩
  case keptReceived =>
    intro d hd
    obtain ⟨q, hq, hbecomes⟩ := h.keptReceived d hd
    exact ⟨q, List.mem_append_left _ hq, hbecomes⟩
  case steady =>
    intro d hd p hp hseq
    rw [hparcels] at hp
    rcases Multiset.mem_add.mp hp with hp | hp
    -- A message that was just accepted has a larger number than every message received.
    · obtain ⟨q, hq, hbecomes⟩ := h.keptReceived d hd
      have hlt := hnew q hq p (Multiset.mem_coe.mp hp)
      have hsame : d.seq = q.seq := hbecomes.seq
      omega
    · exact h.steady d hd p hp hseq

/-- Nothing changes for the books when messages only change their places. -/
theorem of_parcels_eq (h : s.Sound accepted received) (hnumbered : s'.Numbered accepted)
    (hparcels : s'.parcels = s.parcels) (hheld : s'.held = s.held)
    (houtcomes : s'.outcomes = s.outcomes) : s'.Sound accepted received := by
  have hsound : s'.Sound (accepted ++ []) received := by
    refine h.accept ?_ ?_ hheld houtcomes
    · rwa [List.append_nil]
    · rw [hparcels, Multiset.coe_nil, zero_add]
  rwa [List.append_nil] at hsound

/-- A message gets its identifier. -/
theorem name (h : s.Sound accepted received) {p : Parcel} {d : Delivery} {rest : Multiset Parcel}
    (hnumbered : s'.Numbered accepted) (hbefore : s.parcels = p ::ₘ rest)
    (hafter : s'.parcels = d.toParcel ::ₘ rest) (hd : p.Becomes d.toParcel)
    (hheld : s'.held = s.held) (houtcomes : s'.outcomes = s.outcomes) :
    s'.Sound accepted received := by
  have hp : p ∈ s.parcels := hbefore ▸ Multiset.mem_cons_self p rest
  have hrest {q : Parcel} (hq : q ∈ rest) : q ∈ s.parcels := hbefore ▸ Multiset.mem_cons_of_mem hq
  refine ⟨hnumbered, ?balanced, h.known.of_eq hheld houtcomes, ?kept, h.keptReceived, ?steady⟩
  case balanced =>
    intro seq
    have hbalance := balance_of_eq hheld houtcomes seq
    rw [hbefore, hafter, Multiset.countP_cons, Multiset.countP_cons, hd.seq] at hbalance
    rw [← h.balanced]
    omega
  case kept =>
    intro q hq
    rw [hafter] at hq
    rcases Multiset.mem_cons.mp hq with rfl | hq
    · obtain ⟨r, hr, hbecomes⟩ := h.kept p hp
      exact ⟨r, hr, hbecomes.trans hd⟩
    · exact h.kept q (hrest hq)
  case steady =>
    intro e he q hq hseq
    rw [hafter] at hq
    rcases Multiset.mem_cons.mp hq with rfl | hq
    -- A message that was received before has an identifier already, and keeps it.
    · have hsame : p = e.toParcel := h.steady e he p hp (hd.seq.symm.trans hseq)
      subst hsame
      exact hd.eq_of_named rfl
    · exact h.steady e he q (hrest hq) hseq

/-- A reader receives a message. -/
theorem receive (h : s.Sound accepted received) {d : Delivery} (hnumbered : s'.Numbered accepted)
    (hparcels : s.parcels = d.toParcel ::ₘ s'.parcels) (hheld : s'.held = s.held ++ [⟨d, false⟩])
    (houtcomes : s'.outcomes = s.outcomes) : s'.Sound accepted (received ++ [d]) := by
  have hd : d.toParcel ∈ s.parcels := hparcels ▸ Multiset.mem_cons_self ..
  have hrest {p : Parcel} (hp : p ∈ s'.parcels) : p ∈ s.parcels :=
    hparcels ▸ Multiset.mem_cons_of_mem hp
  have hnew : ∀ e ∈ received, e.seq = d.seq → e = d := by
    intro e he hseq
    have hsame := h.steady e he d.toParcel hd hseq.symm
    exact (Delivery.toParcel_inj.mp hsame).symm
  refine ⟨hnumbered, ?balanced, ?known, fun p hp => h.kept p (hrest hp), ?keptReceived, ?steady⟩
  case balanced =>
    intro seq
    have hunsettled : s'.unsettled seq = s.unsettled seq + if d.seq = seq then 1 else 0 := by
      simp [unsettled, hheld, List.countP_append, List.countP_cons]
    have hcount : s.parcels.countP (fun p => p.seq = seq) =
        s'.parcels.countP (fun p => p.seq = seq) + if d.seq = seq then 1 else 0 := by
      rw [hparcels, Multiset.countP_cons]
      rfl
    rw [← h.balanced, balance, balance, hunsettled, hcount]
    simp only [isSettled_congr houtcomes]
    omega
  case known =>
    constructor
    case once =>
      intro seq
      rw [hheld, List.countP_append]
      have honce := h.known.once seq
      by_cases hseq : d.seq = seq
      · have hzero : (s.held.countP fun g => g.delivery.seq = seq) = 0 := by
          rw [List.countP_eq_zero]
          intro g hg heq
          exact h.ne_of_held hd hg ((of_decide_eq_true heq).trans hseq.symm)
        simp [hzero, hseq]
      · simpa [hseq] using honce
    case settled =>
      intro g hg hsettled
      rw [hheld] at hg
      rcases List.mem_append.mp hg with hg | hg
      · exact (isSettled_congr houtcomes _).mpr (h.known.settled g hg hsettled)
      · obtain rfl := List.mem_singleton.mp hg
        exact absurd hsettled Bool.false_ne_true
    case held =>
      intro g hg
      rw [hheld] at hg
      rcases List.mem_append.mp hg with hg | hg
      · exact List.mem_append_left _ (h.known.held g hg)
      · obtain rfl := List.mem_singleton.mp hg
        exact List.mem_append_right _ (List.mem_singleton_self d)
    case outcomes =>
      intro o ho
      rw [houtcomes] at ho
      obtain ⟨e, he, hsame⟩ := h.known.outcomes o ho
      exact ⟨e, List.mem_append_left _ he, hsame⟩
    case agree =>
      intro e he e' he' hseq
      rcases List.mem_append.mp he with hold | hlast <;>
        rcases List.mem_append.mp he' with hold' | hlast'
      · exact h.known.agree e hold e' hold' hseq
      · rw [List.mem_singleton.mp hlast'] at hseq ⊢
        exact hnew e hold hseq
      · rw [List.mem_singleton.mp hlast] at hseq ⊢
        exact (hnew e' hold' hseq.symm).symm
      · rw [List.mem_singleton.mp hlast, List.mem_singleton.mp hlast']
  case keptReceived =>
    intro e he
    rcases List.mem_append.mp he with he | he
    · exact h.keptReceived e he
    · rw [List.mem_singleton.mp he]
      exact h.kept d.toParcel hd
  case steady =>
    intro e he p hp hseq
    rcases List.mem_append.mp he with he | he
    · exact h.steady e he p (hrest hp) hseq
    -- There is no other message with the number of the one received.
    · obtain rfl := List.mem_singleton.mp he
      have hone := (h.elsewhere hd).1
      rw [hparcels, Multiset.countP_cons_of_pos _ (by rfl)] at hone
      have hpos : 0 < s'.parcels.countP fun q => q.seq = e.toParcel.seq :=
        Multiset.countP_pos_of_mem hp hseq
      omega

/-- A reader settles a message. -/
theorem settle (h : s.Sound accepted received) {g : Holding} (hg : g ∈ s.held)
    (disposition : Disposition) (hnumbered : s'.Numbered accepted)
    (hparcels : s'.parcels = s.parcels)
    (hheld : s'.held = s.held.map fun h =>
      if h.delivery.seq = g.delivery.seq then { h with settled := true } else h)
    (houtcomes : s'.outcomes = s.outcomes ++ [⟨g.delivery.seq, g.delivery.id, disposition⟩]) :
    s'.Sound accepted received := by
  have hsettled (seq : Nat) : s'.IsSettled seq ↔ s.IsSettled seq ∨ g.delivery.seq = seq := by
    simp [IsSettled, houtcomes, or_and_right, exists_or]
  have hdelivery (f : Holding) : (if f.delivery.seq = g.delivery.seq then { f with settled := true }
      else f).delivery = f.delivery := by
    split <;> rfl
  refine ⟨hnumbered, ?balanced, ?known, hparcels ▸ h.kept, h.keptReceived, hparcels ▸ h.steady⟩
  case balanced =>
    intro seq
    have hbalanced := h.balanced seq
    have hle := h.countP_accepted_le seq
    rw [balance] at hbalanced
    rw [balance, hparcels]
    by_cases hseq : g.delivery.seq = seq
    -- The message was with a reader or settled before, and now it is settled only.
    · have hunsettled : s'.unsettled seq = 0 := by
        rw [unsettled, hheld, List.countP_map, List.countP_eq_zero]
        intro f _
        by_cases hf : f.delivery.seq = g.delivery.seq <;> simp [hf, ← hseq]
      rw [if_pos ((hsettled seq).mpr (.inr hseq)), hunsettled]
      cases hopen : g.settled with
      | true =>
        have hbefore := h.known.settled g hg hopen
        rw [hseq] at hbefore
        rw [if_pos hbefore] at hbalanced
        omega
      | false =>
        have hpos := unsettled_pos hg hopen
        rw [hseq] at hpos
        omega
    · have hunsettled : s'.unsettled seq = s.unsettled seq := by
        rw [unsettled, hheld, List.countP_map, unsettled]
        refine List.countP_congr fun f _ => ?_
        by_cases hf : f.delivery.seq = g.delivery.seq <;> simp [hf, hseq]
      have hiff : s'.IsSettled seq ↔ s.IsSettled seq := by
        rw [hsettled]
        exact or_iff_left hseq
      simp only [hunsettled, hiff]
      exact hbalanced
  case known =>
    constructor
    case once =>
      intro seq
      rw [hheld, List.countP_map]
      simp only [Function.comp_def, hdelivery]
      exact h.known.once seq
    case settled =>
      intro f hf hopen
      rw [hheld] at hf
      obtain ⟨f₀, hf₀, rfl⟩ := List.mem_map.mp hf
      rw [hdelivery, hsettled]
      by_cases hseq : f₀.delivery.seq = g.delivery.seq
      · exact .inr hseq.symm
      · rw [if_neg hseq] at hopen
        exact .inl (h.known.settled f₀ hf₀ hopen)
    case held =>
      intro f hf
      rw [hheld] at hf
      obtain ⟨f₀, hf₀, rfl⟩ := List.mem_map.mp hf
      rw [hdelivery]
      exact h.known.held f₀ hf₀
    case outcomes =>
      intro o ho
      rw [houtcomes] at ho
      rcases List.mem_append.mp ho with ho | ho
      · exact h.known.outcomes o ho
      · obtain rfl := List.mem_singleton.mp ho
        exact ⟨g.delivery, h.known.held g hg, rfl, rfl⟩
    case agree => exact h.known.agree

/-- A reader lets go of a message. -/
theorem drop (h : s.Sound accepted received) {g : Holding} (hg : g ∈ s.held)
    (hnumbered : s'.Numbered accepted)
    (hparcels : s'.parcels = if g.settled then s.parcels else g.delivery.toParcel ::ₘ s.parcels)
    (hheld : s'.held = s.held.filter fun h => h.delivery.seq ≠ g.delivery.seq)
    (houtcomes : s'.outcomes = s.outcomes) : s'.Sound accepted received := by
  have hsub {f : Holding} (hf : f ∈ s'.held) : f ∈ s.held := by
    rw [hheld] at hf
    exact List.mem_of_mem_filter hf
  have hparcel {p : Parcel} (hp : p ∈ s'.parcels) : p = g.delivery.toParcel ∨ p ∈ s.parcels := by
    rw [hparcels] at hp
    split at hp
    · exact .inr hp
    · exact Multiset.mem_cons.mp hp
  refine ⟨hnumbered, ?balanced, ?known, ?kept, h.keptReceived, ?steady⟩
  case balanced =>
    intro seq
    have hbalanced := h.balanced seq
    have hle := h.countP_accepted_le seq
    rw [balance] at hbalanced
    rw [balance]
    simp only [isSettled_congr houtcomes]
    by_cases hseq : g.delivery.seq = seq
    -- The message was with this reader only, and it is with nobody now.
    · have hunsettled : s'.unsettled seq = 0 := by
        rw [unsettled, List.countP_eq_zero]
        intro f hf
        rw [hheld, hseq] at hf
        have hne := of_decide_eq_true (List.mem_filter.mp hf).2
        simp [hne]
      rw [hunsettled, hparcels]
      cases hopen : g.settled with
      | true =>
        have hbefore := h.known.settled g hg hopen
        rw [hseq] at hbefore
        rw [if_pos hbefore] at hbalanced ⊢
        rw [if_pos rfl]
        omega
      | false =>
        have hpos := unsettled_pos hg hopen
        have honce := h.known.once seq
        rw [hseq] at hpos
        have hcount : s.unsettled seq ≤ s.held.countP fun h => h.delivery.seq = seq :=
          List.countP_mono_left fun f _ hf => (Bool.and_eq_true_iff.mp hf).1
        rw [if_neg Bool.false_ne_true, Multiset.countP_cons_of_pos _ (by exact hseq)]
        omega
    · have hunsettled : s'.unsettled seq = s.unsettled seq := by
        rw [unsettled, hheld, List.countP_filter, unsettled]
        refine List.countP_congr fun f _ => ?_
        by_cases hf : f.delivery.seq = seq
        · simp [hf, Ne.symm hseq]
        · simp [hf]
      have hcount : s'.parcels.countP (fun p => p.seq = seq) =
          s.parcels.countP fun p => p.seq = seq := by
        rw [hparcels]
        split
        · rfl
        · exact Multiset.countP_cons_of_neg _ hseq
      rw [hunsettled, hcount]
      exact hbalanced
  case known =>
    constructor
    case once =>
      intro seq
      rw [hheld]
      exact le_trans (List.filter_sublist.countP_le) (h.known.once seq)
    case settled =>
      intro f hf hopen
      exact (isSettled_congr houtcomes _).mpr (h.known.settled f (hsub hf) hopen)
    case held => exact fun f hf => h.known.held f (hsub hf)
    case outcomes => exact houtcomes ▸ h.known.outcomes
    case agree => exact h.known.agree
  case kept =>
    intro p hp
    rcases hparcel hp with rfl | hp
    · exact h.keptReceived g.delivery (h.known.held g hg)
    · exact h.kept p hp
  case steady =>
    intro d hd p hp hseq
    rcases hparcel hp with rfl | hp
    · rw [h.known.agree g.delivery (h.known.held g hg) d hd hseq]
    · exact h.steady d hd p hp hseq

/-- An envelope that gets room is accepted. -/
theorem refills (h : s.Sound accepted received) (hrefill : Refills s s') :
    s'.Sound (accepted ++ s.admitted s') received := by
  refine h.accept (h.numbered.refills hrefill) ?_ hrefill.held_eq hrefill.outcomes_eq
  cases hrefill with
  | none =>
    rw [admitted_of_blocked_eq rfl, Multiset.coe_nil, zero_add]
  | @one ticket e rest hblocked =>
    rw [admitted_of_cons hblocked h.numbered.tickets]
    exact parcels_append s e

/-- A forwarder that moves a message neither makes nor loses one. -/
theorem moves (h : s.Sound accepted received) {lane : Nat} (hmoves : Moves lane s s') :
    s'.Sound accepted received := by
  have hnumbered : s'.Numbered accepted :=
    h.numbered.of_eq hmoves.blocked_eq hmoves.nextSeq_eq hmoves.nextTicket_eq
  cases hmoves with
  | rest => exact h
  | @turn c g hlaneAt hfree hhand _ =>
    refine h.of_parcels_eq hnumbered ?_ rfl rfl
    obtain ⟨rest, hbefore, hafter⟩ := parcels_atLane hlaneAt
    rw [hafter, hbefore, LaneContents.parcels, LaneContents.parcels, LaneContents.withHandState,
      hhand, HandState.hand?_of_isFree hfree]
  | @takeReturned c p returned d hlaneAt hfree hreturned hd =>
    obtain ⟨rest, hbefore, hafter⟩ := parcels_atLane (s := { s with returned := returned }) hlaneAt
    refine h.name hnumbered (?_ : s.parcels = p ::ₘ (c.parcels + rest)) ?_ hd rfl rfl
    · rw [← hbefore, parcels, hreturned, ← Multiset.cons_coe, Multiset.add_cons, Multiset.cons_add]
      rfl
    · rw [hafter, LaneContents.parcels_carrying hfree, Multiset.cons_add]
  | @takeNew c p incoming d hlaneAt hwaiting hincoming hd =>
    have hfree : c.handState.IsFree := by rw [hwaiting]; trivial
    obtain ⟨rest, hbefore, hafter⟩ := parcels_atLane (s := { s with incoming := incoming }) hlaneAt
    refine h.name hnumbered (?_ : s.parcels = p ::ₘ (c.parcels + rest)) ?_ hd rfl rfl
    · rw [← hbefore, parcels, hincoming]
      show (((p :: incoming.filterMap Envelope.parcel?) : List Parcel) : Multiset Parcel) + _ + _ =
        _
      rw [← Multiset.cons_coe, Multiset.cons_add, Multiset.cons_add]
      rfl
    · rw [hafter, LaneContents.parcels_carrying hfree, Multiset.cons_add]
  | @takeError c text incoming hlaneAt hwaiting hincoming =>
    obtain ⟨rest, hbefore, hafter⟩ := parcels_atLane (s := { s with incoming := incoming }) hlaneAt
    refine h.of_parcels_eq hnumbered ?_ rfl rfl
    have hparcels : s.parcels = ({ s with incoming := incoming } : Contents).parcels := by
      rw [parcels, hincoming]
      rfl
    rw [hafter, hparcels, hbefore, LaneContents.parcels, LaneContents.parcels,
      LaneContents.withHandState, hwaiting]
    rfl
  | @handOver c d hlaneAt hhandState hslot hreads =>
    refine h.of_parcels_eq hnumbered ?_ rfl rfl
    obtain ⟨rest, hbefore, hafter⟩ := parcels_atLane hlaneAt
    rw [hafter, hbefore, LaneContents.parcels_of_carrying hhandState, hslot]
    rfl
  | @giveBack c d hlaneAt hhandState =>
    refine h.of_parcels_eq hnumbered ?_ rfl rfl
    obtain ⟨rest, hbefore, hafter⟩ := parcels_atLane (s := s.requeue d.toParcel) hlaneAt
    rw [parcels_requeue] at hbefore
    rw [LaneContents.parcels_of_carrying hhandState, Multiset.cons_add, Multiset.cons_inj_right]
      at hbefore
    rw [hafter, hbefore]
    show ↑(c.slot.toList.map Delivery.toParcel) + (0 : Multiset Parcel) + rest = _
    rw [add_zero]

/-- What a forwarder does in one step loses no message and makes none, but for one that gets
room. -/
theorem forwards (h : s.Sound accepted received) {lane : Nat} (hforwards : Forwards lane s s') :
    s'.Sound (accepted ++ s.admitted s') received := by
  obtain ⟨s₁, hrefill, hmoves⟩ := hforwards
  rw [hmoves.admitted_eq]
  exact (h.refills hrefill).moves hmoves

end Sound

end Contents

end Courier
