import Manet.Proofs.Step

/-!
# Messages taken in and messages let wait

A packet gives a router its messages one by one: `Operation.receptions` lists them, each with the
router as it was at that moment, and `apply_packet_induction` carries a property of routers along
them. `Operation.queued` is what an operation lets wait: the queue is empty after an operation or
longer by that (`outbound_apply`). `Router.run` carries out operations one after the other.
-/

namespace Manet

variable {F : Family}

/-- A message that comes to a router. -/
structure Reception (F : Family) where
  /-- The router as the message finds it. -/
  router : Router F
  message : Message F
  /-- The address of the interface that it comes in on. -/
  receiver : Address F
  sender : Address F

namespace Router

/-- The receptions of messages that come one after the other. -/
def receive (receiver sender : Address F) (now : Time) :
    Router F → List (Message F) → List (Reception F)
  | _, [] => []
  | r, m :: ms =>
    ⟨r, m, receiver, sender⟩ ::
      receive receiver sender now (handleMessage receiver sender now r m) ms

/-- Carries out operations one after the other. -/
def run (r : Router F) (ops : List (Time × Operation F)) : Router F :=
  ops.foldl (fun r op => r.apply op.1 op.2) r

end Router

/-- The router once it has taken in the message. -/
def Reception.after (x : Reception F) (now : Time) : Router F :=
  Router.handleMessage x.receiver x.sender now x.router x.message

namespace Operation

/-- Whether an operation brings a packet. -/
def isPacket : Operation F → Bool
  | packet .. => true
  | start _ | stop | timer _ | linkFailed _ | refresh _ => false

/-- The messages that an operation gives to the router. -/
def receptions (now : Time) (r : Router F) : Operation F → List (Reception F)
  | packet id sender datagram =>
    match r.running, r.interfaceAddress? id, (Packet.decode datagram : Except DecodeError (Packet F)) with
    | true, some receiver, .ok p =>
      (r.note (.packetReceived p.seqno p.messages.length sender)).receive receiver sender now p.messages
    | _, _, _ => []
  | start _ | stop | timer _ | linkFailed _ | refresh _ => []

/-- The messages that an operation lets wait. -/
def queued (now : Time) (r : Router F) (op : Operation F) : List (Message F) :=
  (r.apply now op).outbound.drop r.outbound.length

end Operation

/-- What a datagram is read as can be computed. -/
theorem Packet.decode_eq_ok_of_toOption {datagram : Octets} {p : Packet F}
    (h : (Packet.decode datagram : Except DecodeError (Packet F)).toOption = some p) :
    Packet.decode datagram = .ok p := by
  cases hd : (Packet.decode datagram : Except DecodeError (Packet F)) with
  | ok p' =>
    rw [hd] at h
    exact congrArg _ (Option.some.inj h)
  | error e =>
    rw [hd] at h
    cases h

namespace Router

variable {now : Time} {r : Router F}

/-! ## Packets -/

/-- A packet is ignored, or its messages are taken in and the routes computed anew. -/
theorem apply_packet_cases (r : Router F) (now : Time) (id : InterfaceId) (sender : Address F)
    (datagram : Octets) :
    (r.apply now (.packet id sender datagram) = r ∧
      Operation.receptions now r (.packet id sender datagram) = []) ∨
    ∃ (receiver : Address F) (p : Packet F), r.running = true ∧
      r.interfaceAddress? id = some receiver ∧ Packet.decode datagram = .ok p ∧
      r.apply now (.packet id sender datagram) =
        (p.messages.foldl (handleMessage receiver sender now)
          (r.note (.packetReceived p.seqno p.messages.length sender))).updateRoutes now ∧
      Operation.receptions now r (.packet id sender datagram) =
        (r.note (.packetReceived p.seqno p.messages.length sender)).receive receiver sender now
          p.messages := by
  rw [apply, handlePacket, Operation.receptions]
  cases hr : r.running with
  | false => exact .inl ⟨rfl, rfl⟩
  | true =>
    cases hid : r.interfaceAddress? id with
    | none => exact .inl ⟨rfl, rfl⟩
    | some receiver =>
      cases hp : (Packet.decode datagram : Except DecodeError (Packet F)) with
      | error e => exact .inl ⟨rfl, rfl⟩
      | ok p => exact .inr ⟨receiver, p, rfl, rfl, rfl, rfl, rfl⟩

/-- A running router takes in what it can read, on every interface that it has. -/
theorem handlePacket_of_decode {id : InterfaceId} {receiver sender : Address F} {datagram : Octets}
    {p : Packet F} (hr : r.running = true) (hid : r.interfaceAddress? id = some receiver)
    (hp : Packet.decode datagram = .ok p) :
    r.handlePacket id sender datagram now =
      .ok ((p.messages.foldl (handleMessage receiver sender now)
        (r.note (.packetReceived p.seqno p.messages.length sender))).updateRoutes now) := by
  rw [handlePacket, if_pos hr, hid, hp]

/-- What taking in a message keeps, and what does not look at the journal and the routes, is kept by a
packet. -/
theorem apply_packet_induction {P : Router F → Prop} (h : P r) (hnote : ∀ r n, P r → P (r.note n))
    (hmessage : ∀ r m receiver sender, P r → P (handleMessage receiver sender now r m))
    (hroutes : ∀ r, P r → P (r.updateRoutes now)) (id : InterfaceId) (sender : Address F)
    (datagram : Octets) : P (r.apply now (.packet id sender datagram)) := by
  rcases r.apply_packet_cases now id sender datagram with ⟨he, -⟩ | ⟨receiver, p, -, -, -, he, -⟩
  · rw [he]
    exact h
  · rw [he]
    exact hroutes _ (List.foldlRecOn _ _ (hnote _ _ h) fun r hr m _ => hmessage r m receiver sender hr)

section Receive

variable {receiver sender : Address F} {ms : List (Message F)}

theorem message_mem_of_mem_receive {x : Reception F} (hx : x ∈ r.receive receiver sender now ms) :
    x.message ∈ ms := by
  induction ms generalizing r with
  | nil => cases hx
  | cons m ms ih =>
    rcases List.mem_cons.mp hx with rfl | hx
    · exact List.mem_cons_self
    · exact List.mem_cons_of_mem _ (ih hx)

theorem exists_mem_receive {m : Message F} (h : m ∈ ms) :
    ∃ x ∈ r.receive receiver sender now ms, x.message = m := by
  induction ms generalizing r with
  | nil => cases h
  | cons m' ms ih =>
    rcases List.mem_cons.mp h with rfl | h
    · exact ⟨_, List.mem_cons_self, rfl⟩
    · obtain ⟨x, hx, hm⟩ := ih (r := handleMessage receiver sender now r m') h
      exact ⟨x, List.mem_cons_of_mem _ hx, hm⟩

/-- What holds of a router, and what taking in a message keeps, holds when each message comes. -/
theorem router_of_mem_receive {P : Router F → Prop}
    (hP : ∀ r m, P r → P (handleMessage receiver sender now r m)) {x : Reception F}
    (hx : x ∈ r.receive receiver sender now ms) (h : P r) : P x.router := by
  induction ms generalizing r with
  | nil => cases hx
  | cons m ms ih =>
    rcases List.mem_cons.mp hx with rfl | hx
    · exact h
    · exact ih hx (hP r m h)

end Receive

/-- What holds of a router, and what taking in a message keeps, holds once a packet is taken in. -/
theorem of_mem_receive {P : Router F → Prop} {receiver sender : Address F}
    (hP : ∀ r m, P r → P (handleMessage receiver sender now r m)) {ms : List (Message F)}
    {x : Reception F} (hx : x ∈ r.receive receiver sender now ms) (h : P (x.after now)) :
    P (ms.foldl (handleMessage receiver sender now) r) := by
  induction ms generalizing r with
  | nil => cases hx
  | cons m ms ih =>
    rw [List.foldl_cons]
    rcases List.mem_cons.mp hx with rfl | hx
    · exact List.foldlRecOn _ _ h fun r hr m _ => hP r m hr
    · exact ih hx

theorem ne_address_of_isLocal {a : Address F} (h : r.isLocal a = false) : a ≠ r.address := by
  rintro rfl
  simp [isLocal, localAddresses] at h

theorem run_cons (r : Router F) (now : Time) (op : Operation F) (ops : List (Time × Operation F)) :
    r.run ((now, op) :: ops) = (r.apply now op).run ops := rfl

/-! ## The queue -/

theorem originate_outbound (r : Router F) (validity : Time) (ttl : UInt8) (body : Body F) :
    (r.originate validity ttl body).outbound = r.outbound ++
      [{ validity := .ofDuration validity, originator := r.address, ttl, hops := 0,
         seqno := r.messageSeqno.next, body }] := by
  rw [originate]
  rcases enqueue_cases _ _ with ⟨-, he⟩ | ⟨-, _, _, he⟩ <;> rw [he]

theorem sendPacket_outbound (r : Router F) (ms : List (Message F)) :
    (r.sendPacket ms).outbound = r.outbound := by
  unfold sendPacket
  dsimp only
  split
  · rw [foldl_call_eq]
  · rfl

theorem flush_outbound (r : Router F) : r.flush.outbound = [] := by
  rw [flush]
  refine List.foldlRecOn (motive := fun r : Router F => r.outbound = []) _ _ ?_ fun r hr ms _ => ?_
  · rfl
  · rw [sendPacket_outbound, hr]

theorem sendHello_outbound (r : Router F) (now : Time) :
    ∃ m : Message F, (r.sendHello now).outbound = r.outbound ++ [m] ∧ m.originator = r.address ∧
      m.body.isHello = true := by
  unfold sendHello
  dsimp only
  rw [originate_outbound]
  have hnotes : ((r.strayLinks now).foldl (fun r main => r.note (.strayLink main)) r).outbound =
        r.outbound ∧
      ((r.strayLinks now).foldl (fun r main => r.note (.strayLink main)) r).address = r.address :=
    List.foldlRecOn (motive := fun r' : Router F => r'.outbound = r.outbound ∧ r'.address = r.address)
      _ _ ⟨rfl, rfl⟩ fun r' hr main _ => hr
  exact ⟨_, congrArg (· ++ _) hnotes.1, hnotes.2, rfl⟩

end Router

/-- Deeds let messages wait behind those that wait. -/
theorem Does.outbound_grows {ps : List Part} {now : Time} {r r' : Router F} (h : Does ps now r r') :
    r.outbound <+: r'.outbound := by
  refine h.keep (P := fun r' => r.outbound <+: r'.outbound) (fun r' d _ _ hr => ?_) (List.prefix_refl _)
  cases d with
  | routes => exact (r'.updateRoutes_outbound now).symm ▸ hr
  | enqueue m =>
    have hm : r'.outbound <+: r'.outbound ++ [m] := List.prefix_append ..
    rcases r'.enqueue_cases m with ⟨-, he⟩ | ⟨-, _, _, he⟩ <;> rw [Router.perform, he] <;>
      exact hr.trans hm
  | _ => exact hr

namespace Operation

variable {now : Time} {r : Router F} {op : Operation F}

/-- An operation empties the queue or lets messages wait behind those that wait. -/
theorem outbound_apply (now : Time) (r : Router F) (op : Operation F) :
    (r.apply now op).outbound = [] ∨ (r.apply now op).outbound = r.outbound ++ op.queued now r := by
  have hgrows (h : r.outbound <+: (r.apply now op).outbound) :
      (r.apply now op).outbound = r.outbound ++ op.queued now r := by
    obtain ⟨ms, hms⟩ := h
    rw [queued, ← hms, List.drop_left]
  have hs := r.apply_step now op
  generalize hr' : r.apply now op = r' at hs hgrows ⊢
  cases hs with
  | idle => exact .inr (hgrows (List.prefix_refl _))
  | start _ _ _ hd | refresh _ hd | linkFailed _ _ hd | expiry _ _ _ hd | packet _ _ _ _ hd =>
    exact .inr (hgrows hd.outbound_grows)
  | hello _ _ _ hd | tc _ _ _ hd | mid _ _ _ hd => exact .inr (hgrows hd.outbound_grows)
  | stop => exact .inl rfl
  | flush hr =>
    rw [← hr', Router.apply, Router.handleTimer, if_pos hr]
    exact .inl (Router.flush_outbound _)

theorem queued_of_outbound {ms : List (Message F)} (h : (r.apply now op).outbound = r.outbound ++ ms) :
    op.queued now r = ms := by
  rw [queued, h, List.drop_left]

theorem queued_of_nil (h : (r.apply now op).outbound = []) : op.queued now r = [] := by
  rw [queued, h, List.drop_nil]

/-- A message that a router composes itself. A TC message advertises the set of selectors under its
number. -/
def Composes (r : Router F) (op : Operation F) (m : Message F) : Prop :=
  m.originator = r.address ∧
    (op = .timer .hello ∧ m.body.isHello = true ∨
      op = .timer .tc ∧ r.tables.selectors.isEmpty = false ∧
        m.body = .tc r.tables.ansn (r.tables.selectors.toList.map (·.main)) ∨
      op = .timer .mid ∧ m.body = .mid r.declaredInterfaces)

theorem tc_outbound (hr : r.running = true) (hne : r.tables.selectors.isEmpty = false) (now : Time) :
    ∃ m : Message F, (r.apply now (.timer .tc)).outbound = r.outbound ++ [m] ∧
      m.originator = r.address ∧ m.body = .tc r.tables.ansn (r.tables.selectors.toList.map (·.main)) := by
  rw [Router.apply, Router.handleTimer, if_pos hr]
  simp only [hne]
  exact ⟨_, Router.originate_outbound _ _ _ _, rfl, rfl⟩

theorem mid_outbound (hr : r.running = true) (hne : r.declaredInterfaces ≠ []) (now : Time) :
    ∃ m : Message F, (r.apply now (.timer .mid)).outbound = r.outbound ++ [m] ∧
      m.originator = r.address ∧ m.body = .mid r.declaredInterfaces := by
  rw [Router.apply, Router.handleTimer, if_pos hr]
  simp only [Router.sendMid, hne, if_false]
  exact ⟨_, Router.originate_outbound _ _ _ _, rfl, rfl⟩

theorem hello_outbound (hr : r.running = true) (now : Time) :
    ∃ m : Message F, (r.apply now (.timer .hello)).outbound = r.outbound ++ [m] ∧
      m.originator = r.address ∧ m.body.isHello = true := by
  rw [Router.apply, Router.handleTimer, if_pos hr]
  exact r.sendHello_outbound now

theorem eq_of_mem_queued {m m' : Message F} (h : (r.apply now op).outbound = r.outbound ++ [m'])
    (hm : m ∈ op.queued now r) : m = m' := by
  rwa [queued_of_outbound h, List.mem_singleton] at hm

/-- A message that waits after an operation other than a packet was composed by the router. -/
theorem composes_of_mem_queued (hop : op.isPacket = false)
    {m : Message F} (hm : m ∈ op.queued now r) : op.Composes r m := by
  have hidle (h : (r.apply now op).outbound = r.outbound) : op.Composes r m := by
    rw [queued_of_outbound (h.trans (List.append_nil _).symm)] at hm
    cases hm
  have hs := r.apply_step now op
  generalize hr' : r.apply now op = r' at hs
  cases hs with
  | idle => exact hidle (by rw [hr'])
  | start _ _ _ hd | refresh _ hd | linkFailed _ _ hd | expiry _ _ _ hd =>
    refine hidle ?_
    rw [hr']
    exact hd.outbound_eq (by decide)
  | stop =>
    rw [queued_of_nil (by rw [hr'])] at hm
    cases hm
  | packet => cases hop
  | hello _ _ hr =>
    obtain ⟨m', hout, ho, hbody⟩ := hello_outbound hr now
    rw [eq_of_mem_queued hout hm]
    exact ⟨ho, .inl ⟨rfl, hbody⟩⟩
  | tc _ _ hr =>
    cases hempty : r.tables.selectors.isEmpty with
    | true =>
      refine hidle ?_
      rw [Router.apply, Router.handleTimer, if_pos hr]
      simp only [hempty, if_true]
      rfl
    | false =>
      obtain ⟨m', hout, ho, hbody⟩ := tc_outbound hr hempty now
      rw [eq_of_mem_queued hout hm]
      exact ⟨ho, .inr (.inl ⟨rfl, hempty, hbody⟩)⟩
  | mid _ _ hr =>
    by_cases hnone : r.declaredInterfaces = []
    · refine hidle ?_
      rw [Router.apply, Router.handleTimer, if_pos hr]
      simp only [Router.sendMid, hnone, if_true]
      rfl
    · obtain ⟨m', hout, ho, hbody⟩ := mid_outbound hr hnone now
      rw [eq_of_mem_queued hout hm]
      exact ⟨ho, .inr (.inr ⟨rfl, hbody⟩)⟩
  | flush hr =>
    have hq : queued now r (.timer .flush) = [] := queued_of_nil (by
      rw [Router.apply, Router.handleTimer, if_pos hr]
      exact Router.flush_outbound _)
    rw [hq] at hm
    cases hm

end Operation

end Manet
