import Manet.Proofs.Flooding
import Manet.Proofs.LinkOrigins

/-!
# Strangers and repeats

A router takes no notice of messages without hops left, of its own messages, of messages other than HELLOs
that come over no symmetric link, and of messages that it has seen (`Router.IsBarred`). Whether a message is
barred does not depend on the journal, which is all that a barred message changes, so a packet of barred
messages leaves the router as it was, apart from notices, and from the routes, which any packet has computed
anew (`handlePacket_of_isBarred`). Every other message leaves a trace (`handleMessage_hasNoted`).
-/

namespace Manet.Router

variable {F : Family} {now : Time} {r : Router F} {m : Message F} {receiver sender : Address F}

/-- Nothing is to come of the message: it has no hops left or comes from this node; it is a HELLO that was
seen; or it is none, and comes over no symmetric link, or was received here before or relayed. -/
def IsBarred (r : Router F) (receiver sender : Address F) (now : Time) (m : Message F) : Prop :=
  m.ttl = 0 ∨ r.isLocal m.originator = true ∨
  (m.body.isHello = true ∧ r.hasSeen m.key = true) ∨
  (m.body.isHello = false ∧ (r.hears sender now = false ∨
    ∃ t ∈ r.tables.duplicates, Keyed.key t = m.key ∧ (receiver ∈ t.interfaces ∨ t.retransmitted = true)))

instance (r : Router F) (receiver sender : Address F) (now : Time) (m : Message F) :
    Decidable (r.IsBarred receiver sender now m) :=
  inferInstanceAs (Decidable (_ ∨ _ ∨ (_ ∧ _) ∨ (_ ∧ (_ ∨ ∃ t ∈ r.tables.duplicates.toList, _ ∧ (_ ∨ _)))))

/-- `r'` is `r` with further notices, and calls that concern routes. -/
def IsUnmoved (r r' : Router F) : Prop := ∃ j, r' = { r with journal := j } ∧ r.journal.Reports j

theorem IsUnmoved.refl (r : Router F) : IsUnmoved r r := ⟨r.journal, rfl, .nothing⟩

theorem IsUnmoved.trans {r' r'' : Router F} (h : IsUnmoved r r') (h' : IsUnmoved r' r'') :
    IsUnmoved r r'' := by
  obtain ⟨j, rfl, hj⟩ := h
  obtain ⟨j', rfl, hj'⟩ := h'
  exact ⟨j', rfl, hj.trans hj'⟩

theorem IsBarred.of_isUnmoved {r' : Router F} (h : r.IsBarred receiver sender now m)
    (hr : IsUnmoved r r') : r'.IsBarred receiver sender now m := by
  obtain ⟨j, rfl, -⟩ := hr
  exact h

/-! ## What is barred -/

theorem isUnmoved_process (hhello : m.body.isHello = false) (hhears : r.hears sender now = false) :
    IsUnmoved r (r.process m receiver sender now) := by
  unfold process
  split
  · rename_i hbody
    rw [hbody] at hhello
    cases hhello
  · rw [processTc, if_neg (Bool.eq_false_iff.mp hhears)]
    exact .refl r
  · rw [processMid, if_neg (Bool.eq_false_iff.mp hhears)]
    exact .refl r
  · exact ⟨_, rfl, .note _ .nothing⟩

theorem forward_of_not_hears (hhears : r.hears sender now = false) :
    r.forward m receiver sender now = r :=
  if_neg fun h => Bool.eq_false_iff.mp hhears h.1

theorem forward_of_hasRelayed (h : r.hasRelayed m.key = true) : r.forward m receiver sender now = r := by
  refine if_neg fun hf => ?_
  rw [Bool.not_eq_true'] at hf
  exact Bool.false_ne_true (hf.2.symm.trans h)

theorem IsBarred.handleMessage (h : r.IsBarred receiver sender now m) :
    IsUnmoved r (handleMessage receiver sender now r m) := by
  unfold Router.handleMessage
  split
  · exact .refl r
  · rename_i hadmitted
    obtain ⟨hhello, hseen⟩ | ⟨hhello, hbarred⟩ :=
      (h.resolve_left fun hz => hadmitted (.inl hz)).resolve_left fun hl => hadmitted (.inr hl)
    · -- a HELLO that was seen is not even looked at
      obtain ⟨t, ht⟩ := Option.isSome_iff_exists.mp ((Table.contains_eq_isSome ..).symm.trans hseen)
      have ht : r.tables.duplicates.get? (m.originator, m.seqno) = some t := ht
      rw [ht]
      dsimp only
      rw [if_pos (.inr hhello)]
      exact .refl r
    · split
      · rename_i t ht
        split
        · exact .refl r
        · rename_i hnew
          rcases hbarred with hhears | ⟨t', hmem, hkey, hseen⟩
          · rw [forward_of_not_hears hhears]
            exact .refl r
          · obtain rfl := Option.some.inj (ht.symm.trans (Table.get?_eq_some_iff.mpr ⟨hmem, hkey⟩))
            have hrelayed : t.retransmitted = true := hseen.resolve_left fun hl => hnew (.inl hl)
            rw [forward_of_hasRelayed ((congrArg (Option.any _) ht).trans hrelayed)]
            exact .refl r
      · rename_i hnone
        have hhears : r.hears sender now = false := by
          rcases hbarred with hhears | ⟨t, hmem, hkey, -⟩
          · exact hhears
          · exact absurd hkey (Table.get?_eq_none_iff.mp hnone t hmem)
        have hprocessed : IsUnmoved r (r.process m receiver sender now) :=
          isUnmoved_process hhello hhears
        dsimp only
        rw [if_neg (Bool.eq_false_iff.mp hhello)]
        generalize r.process m receiver sender now = r' at hprocessed
        obtain ⟨j, rfl, hj⟩ := hprocessed
        rw [forward_of_not_hears (r := { r with journal := j }) hhears]
        exact ⟨j, rfl, hj⟩

theorem foldl_handleMessage_of_isBarred {ms : List (Message F)}
    (h : ∀ m ∈ ms, r.IsBarred receiver sender now m) :
    IsUnmoved r (ms.foldl (handleMessage receiver sender now) r) :=
  List.foldlRecOn (motive := IsUnmoved r) ms _ (.refl r)
    fun _ hr m hm => hr.trans ((h m hm).of_isUnmoved hr).handleMessage

/-! ## What is not barred -/

/-- The message left a trace: if it is a HELLO, the link it came over is heard for as long as it is valid,
and else it is recorded as received here. -/
def HasNoted (r : Router F) (receiver sender : Address F) (now : Time) (m : Message F) : Prop :=
  match m.body with
  | .hello .. => ∃ l ∈ r.tables.links, Keyed.key l = (receiver, sender) ∧
      l.asymTime = now + m.validity.duration
  | .tc .. | .mid _ | .unknown .. =>
    ∃ t ∈ r.tables.duplicates, Keyed.key t = m.key ∧ receiver ∈ t.interfaces

theorem hasNoted_of_recorded (hhello : m.body.isHello = false) (hn : ∃ t ∈ r.tables.duplicates,
    Keyed.key t = m.key ∧ receiver ∈ t.interfaces) : r.HasNoted receiver sender now m := by
  unfold HasNoted
  split
  · rename_i hbody
    rw [hbody] at hhello
    cases hhello
  all_goals exact hn

theorem forward_hasNoted (hhello : m.body.isHello = false) (hhears : r.hears sender now = true)
    (hrelayed : r.hasRelayed m.key = false) :
    (r.forward m receiver sender now).HasNoted receiver sender now m := by
  have hf := r.forward_forwards m receiver sender now
  generalize r.forward m receiver sender now = r' at hf
  cases hf with
  | nothing h => exact absurd ((h hhears).symm.trans hrelayed) nofun
  | recorded copies _ _ _ _ htables =>
    refine hasNoted_of_recorded hhello ⟨r.seenTuple m receiver (copies ≠ []) now, ?_, rfl, ?_⟩
    · rw [htables]
      exact Table.mem_insert.mpr (.inl rfl)
    · exact List.mem_append_right _ (List.mem_singleton_self receiver)

theorem handleMessage_hello_hasNoted (hhello : m.body.isHello = true) (httl : m.ttl ≠ 0)
    (hlocal : r.isLocal m.originator = false) (hunseen : r.hasSeen m.key = false) :
    (handleMessage receiver sender now r m).HasNoted receiver sender now m := by
  unfold HasNoted
  cases hbody : m.body with
  | tc | mid | unknown =>
    rw [hbody] at hhello
    cases hhello
  | hello interval w blocks =>
    have hnone : ¬ (r.tables.duplicates.get? (m.originator, m.seqno)).isSome = true := by
      rw [← Table.contains_eq_isSome]
      exact Bool.eq_false_iff.mp hunseen
    have hadmitted : ¬ (m.ttl = 0 ∨ r.isLocal m.originator = true) :=
      fun h => h.elim httl (Bool.eq_false_iff.mp hlocal)
    rw [handleMessage_hello_eq r receiver sender now hbody, if_neg hadmitted, if_neg hnone,
      processHello_links]
    obtain ⟨l, hl, hsensed⟩ :=
      (senseHello_sensed r m.validity.duration w blocks receiver sender now).link
    obtain ⟨hmem, hkey⟩ := Table.get?_eq_some_iff.mp hl
    generalize m.validity.duration = validity at hsensed hmem ⊢
    refine ⟨l, hmem, hkey, ?_⟩
    rw [← hsensed]
    exact (foldl_senseBlock_spec _ _ _ _ { l with asymTime := now + validity }).2.2.1

/-- A message that is not barred leaves a trace. -/
theorem handleMessage_hasNoted (h : ¬ r.IsBarred receiver sender now m) :
    (handleMessage receiver sender now r m).HasNoted receiver sender now m := by
  simp only [IsBarred, not_or, not_and] at h
  obtain ⟨httl, hlocal, hhello, hother⟩ := h
  have hlocal : r.isLocal m.originator = false := Bool.eq_false_iff.mpr hlocal
  cases hm : m.body.isHello with
  | true => exact handleMessage_hello_hasNoted hm httl hlocal (Bool.eq_false_iff.mpr (hhello hm))
  | false =>
    obtain ⟨hhears, hnew⟩ := hother hm
    have hhears : r.hears sender now = true := Bool.not_eq_false _ ▸ hhears
    have hadmitted : ¬ (m.ttl = 0 ∨ r.isLocal m.originator = true) :=
      fun h => h.elim httl (Bool.eq_false_iff.mp hlocal)
    unfold handleMessage
    rw [if_neg hadmitted]
    split
    · rename_i t ht
      obtain ⟨hmem, hkey⟩ := Table.get?_eq_some_iff.mp ht
      obtain ⟨hlisted, hrelayed⟩ : receiver ∉ t.interfaces ∧ ¬ t.retransmitted = true :=
        not_or.mp fun h => hnew ⟨t, hmem, hkey, h⟩
      rw [if_neg fun h => h.elim hlisted (Bool.eq_false_iff.mp hm)]
      refine forward_hasNoted hm hhears ?_
      exact (congrArg (Option.any _) ht).trans (Bool.eq_false_iff.mpr hrelayed)
    · rename_i hnone
      dsimp only
      rw [if_neg (Bool.eq_false_iff.mp hm)]
      refine forward_hasNoted hm ?_ ?_
      · rw [hears, symmetricLink?, process_links hlocal hm]
        exact hhears
      · rw [hasRelayed, process_duplicates hlocal]
        exact congrArg (Option.any _) hnone

/-! ## Packets -/

/-- A packet of barred messages changes nothing but the journal and the routes, which are computed anew
from the tables as they are. The host is told of routes only: no timer is scheduled or cancelled, and
nothing is sent. -/
theorem handlePacket_of_isBarred {id : InterfaceId} {datagram : Octets} {p : Packet F}
    (hr : r.running = true) (hid : r.interfaceAddress? id = some receiver)
    (hp : Packet.decode datagram = .ok p) (hbarred : ∀ m ∈ p.messages, r.IsBarred receiver sender now m) :
    ∃ j, r.journal.Reports j ∧ r.handlePacket id sender datagram now =
      .ok { r with journal := j, routes := RouteTable.compute r.tables r.localAddresses now } := by
  have hnoted : IsUnmoved r (r.note (.packetReceived p.seqno p.messages.length sender)) :=
    ⟨_, rfl, .note _ .nothing⟩
  obtain ⟨j, he, hj⟩ := hnoted.trans
    (foldl_handleMessage_of_isBarred fun m hm => (hbarred m hm).of_isUnmoved hnoted)
  obtain ⟨j', he', hj'⟩ := updateRoutes_eq { r with journal := j } now
  exact ⟨j', hj.trans hj', by rw [handlePacket_of_decode hr hid hp, he, he']; rfl⟩

/-! The node of the small run hears 10.0.0.2, and 10.0.0.9 is a stranger to it. -/

/-- A packet of the stranger: a TC message, a MID message and one of unknown type, besides a HELLO without
hops left and one that names the node itself as its originator. -/
def strangePacket : Packet .ipv4 where
  seqno := 1
  messages :=
    [{ validity := ⟨0x86⟩, originator := .ofNat 0x0a000009, ttl := 255, hops := 0, seqno := 1
       body := .tc 5 [sampleAddress] },
      { validity := ⟨0x86⟩, originator := .ofNat 0x0a000009, ttl := 255, hops := 0, seqno := 2
        body := .mid [.ofNat 0x0a000007] },
      { validity := ⟨0x86⟩, originator := .ofNat 0x0a000009, ttl := 255, hops := 0, seqno := 3
        body := .unknown 9 [1, 2, 3, 4] },
      { validity := ⟨0x86⟩, originator := .ofNat 0x0a000009, ttl := 0, hops := 0, seqno := 4
        body := .hello ⟨5⟩ .standard [] },
      { validity := ⟨0x86⟩, originator := sampleAddress, ttl := 1, hops := 0, seqno := 5
        body := .hello ⟨5⟩ .standard [] }]

/-- Its octets. -/
def strangeDatagram : Octets :=
  [0, 88, 0, 1, 2, 0x86, 0, 20, 10, 0, 0, 9, 255, 0, 0, 1, 0, 5, 0, 0, 10, 0, 0, 1,
    3, 0x86, 0, 16, 10, 0, 0, 9, 255, 0, 0, 2, 10, 0, 0, 7,
    9, 0x86, 0, 16, 10, 0, 0, 9, 255, 0, 0, 3, 1, 2, 3, 4,
    1, 0x86, 0, 16, 10, 0, 0, 9, 0, 0, 0, 4, 0, 0, 5, 3,
    1, 0x86, 0, 16, 10, 0, 0, 1, 1, 0, 0, 5, 0, 0, 5, 3]

/-- A packet of the neighbour after the one that brought a TC message twice: the same message once more, and
a HELLO with its number. -/
def stalePacket : Packet .ipv4 where
  seqno := 2
  messages :=
    [{ validity := ⟨0x8a⟩, originator := .ofNat 0x0a000009, ttl := 5, hops := 2, seqno := 7
       body := .tc 1 [.ofNat 0x0a000008] },
      { validity := ⟨0x86⟩, originator := .ofNat 0x0a000009, ttl := 1, hops := 0, seqno := 7
        body := .hello ⟨5⟩ .standard [] }]

/-- Its octets. -/
def staleDatagram : Octets :=
  [0, 40, 0, 2, 2, 0x8a, 0, 20, 10, 0, 0, 9, 5, 2, 0, 7, 0, 1, 0, 0, 10, 0, 0, 8,
    1, 0x86, 0, 16, 10, 0, 0, 9, 1, 0, 0, 7, 0, 0, 5, 3]

theorem handlePacket_of_isBarred_samples :
    (∃ j, sample.journal.Reports j ∧
      sample.handlePacket (.number 0) (.ofNat 0x0a000009) strangeDatagram 1 =
        .ok { sample with
          journal := j
          routes := RouteTable.compute sample.tables sample.localAddresses 1 }) ∧
    ∃ j, (sample.apply 0 repeatedTc).journal.Reports j ∧
      (sample.apply 0 repeatedTc).handlePacket (.number 0) (.ofNat 0x0a000002) staleDatagram 1 =
        .ok { sample.apply 0 repeatedTc with
          journal := j
          routes := RouteTable.compute (sample.apply 0 repeatedTc).tables
            (sample.apply 0 repeatedTc).localAddresses 1 } := by
  have hstrange : Packet.decode strangeDatagram = .ok strangePacket :=
    Packet.decode_eq_ok_of_toOption (by decide +kernel)
  have hstale : Packet.decode staleDatagram = .ok stalePacket :=
    Packet.decode_eq_ok_of_toOption (by decide +kernel)
  have hid : sample.interfaceAddress? (.number 0) = some sampleAddress := by decide +kernel
  have hid' : (sample.apply 0 repeatedTc).interfaceAddress? (.number 0) = some sampleAddress := by
    decide +kernel
  exact ⟨handlePacket_of_isBarred (by decide +kernel) hid hstrange (by decide +kernel),
    handlePacket_of_isBarred (by decide +kernel) hid' hstale (by decide +kernel)⟩

end Manet.Router
