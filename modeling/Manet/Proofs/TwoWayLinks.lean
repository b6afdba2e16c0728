import Mathlib.Logic.Function.Basic
import Manet.Proofs.LinkOrigins

/-!
# Links that work both ways

A `World` is a network of routers on a medium that delays, repeats and loses what it likes: a packet
that a router sent reaches an interface of another node at any later time, any number of times or
never. A router that holds a symmetric link from `a` to `b` was heard: the node that owns `b` received
a packet that was sent out of `a` (`World.Reachable.heard_back`). Since a HELLO lists the links of all
interfaces of its sender and leaves on each of them, it need not have been `b` that received it, if the
node has further interfaces (`crossed_link`).
-/

namespace Manet

variable {F : Family} {ι : Type}

/-- The interfaces of the nodes of a network, no two of which share an address. -/
structure Sites (F : Family) (ι : Type) where
  interfaces : ι → List (Interface F)
  distinct : ∀ i j, ∀ x ∈ interfaces i, ∀ y ∈ interfaces j, x.address = y.address → i = j ∧ x = y

/-- The node has an interface with the address. -/
def Sites.Owns (S : Sites F ι) (i : ι) (a : Address F) : Prop := ∃ x ∈ S.interfaces i, x.address = a

theorem Sites.Owns.unique {S : Sites F ι} {i j : ι} {a : Address F} (h : S.Owns i a) (h' : S.Owns j a) :
    i = j := by
  obtain ⟨x, hx, hxa⟩ := h
  obtain ⟨y, hy, hya⟩ := h'
  exact (S.distinct i j x hx y hy (hxa.trans hya.symm)).1

/-- What a host may do to its router apart from handing over packets, with the given interfaces. -/
def Operation.IsLocal (interfaces : List (Interface F)) : Operation F → Prop
  | start provided | refresh provided => ∀ i ∈ provided, i ∈ interfaces
  | packet .. => False
  | stop | timer _ | linkFailed _ => True

/-- Routers, the time, and which packets arrived so far. The journals of the routers are not cleared,
and hold everything that was sent. -/
structure World (F : Family) (ι : Type) where
  routers : ι → Router F
  now : Time
  /-- The addresses of the sending and of the receiving interface of every packet that arrived. -/
  arrivals : List (Address F × Address F)

namespace World

/-- An interface of the node received a packet that was sent out of the one with the given address. -/
def HasHeard (W : World F ι) (S : Sites F ι) (i : ι) (a : Address F) : Prop :=
  ∃ b, S.Owns i b ∧ (a, b) ∈ W.arrivals

/-- Another node that owns `b` heard `a`. -/
def IsHeardBy (W : World F ι) (S : Sites F ι) (i : ι) (a b : Address F) : Prop :=
  ∃ j, j ≠ i ∧ S.Owns j b ∧ W.HasHeard S j a

variable [DecidableEq ι]

/-- A router carries out an operation. -/
def act (W : World F ι) (i : ι) (now : Time) (op : Operation F) : World F ι :=
  { W with routers := Function.update W.routers i ((W.routers i).apply now op), now }

/-- An interface of a node receives a packet that was sent out of another one. -/
def deliver (W : World F ι) (i : ι) (sender receiver : Interface F) (now : Time) (packet : Octets) :
    World F ι :=
  { W.act i now (.packet receiver.id sender.address packet) with
    arrivals := (sender.address, receiver.address) :: W.arrivals }

/-- The worlds that a run leads to. -/
inductive Reachable (S : Sites F ι) : World F ι → Prop where
  | create (address : ι → Address F) (params : ι → Params) (entropy : ι → Entropy) :
      Reachable S ⟨fun i => .create (address i) (params i) (entropy i), 0, []⟩
  | act {W : World F ι} {now : Time} (i : ι) (op : Operation F) : Reachable S W → W.now ≤ now →
      op.IsLocal (S.interfaces i) → Reachable S (W.act i now op)
  | deliver {W : World F ι} {now : Time} {packet : Octets} (i j : ι) (sender receiver : Interface F) :
      Reachable S W → W.now ≤ now → i ≠ j → sender ∈ S.interfaces i → receiver ∈ S.interfaces j →
      (W.routers i).journal.Sends sender.id packet →
      Reachable S (W.deliver j sender receiver now packet)

end World

/-! ## What a router cites -/

namespace Router

variable {now : Time} {r : Router F} {heard heard' : Address F → Prop}

/-- The router has links to interfaces only that it heard, and names no others in the HELLO messages
that it lets wait or sends. -/
structure Cites (heard : Address F → Prop) (r : Router F) : Prop where
  links : ∀ l ∈ r.tables.links, heard l.neighbour
  waiting : ∀ m ∈ r.outbound, ∀ a, m.Mentions a → heard a
  sent : ∀ id packet p, r.journal.Sends id packet → Packet.decode packet = .ok p →
    ∀ m ∈ p.messages, ∀ a, m.Mentions a → heard a

theorem Cites.mono (h : r.Cites heard) (hmono : ∀ a, heard a → heard' a) : r.Cites heard' where
  links l hl := hmono _ (h.links l hl)
  waiting m hm a ha := hmono _ (h.waiting m hm a ha)
  sent id packet p hs hp m hm a ha := hmono _ (h.sent id packet p hs hp m hm a ha)

theorem mentions_composedHello {a : Address F} (h : (r.composedHello now).Mentions a) :
    ∃ l ∈ r.tables.links, l.neighbour = a := by
  obtain ⟨c, hlists⟩ : ∃ c, Lists (r.helloBlocks now) c a := h
  obtain ⟨l, hl, -, -, hend⟩ := lists_helloBlocks.mp hlists
  exact ⟨l, hl, hend⟩

/-- A HELLO that comes to wait names the ends of links. -/
theorem mentions_of_mem_queued {op : Operation F} {m : Message F} (hm : m ∈ op.queued now r)
    {a : Address F} (ha : m.Mentions a) : ∃ l ∈ r.tables.links, l.neighbour = a := by
  have hhello := ha.isHello
  rcases op.mem_queued_cases hm with ⟨-, hc⟩ | ⟨_, _, _, _, -, -, m', -, hrelays⟩
  · rcases hc with ⟨rfl, -⟩ | ⟨-, -, htc⟩ | ⟨-, hmid⟩
    · cases hr : r.running with
      | false =>
        have hnone : Operation.queued now r (.timer .hello) = [] := Operation.queued_of_outbound (by
          rw [apply, handleTimer_of_not_running hr, List.append_nil])
        rw [hnone] at hm
        cases hm
      | true =>
        rw [queued_hello hr, List.mem_singleton] at hm
        exact mentions_composedHello (hm ▸ ha)
    · rw [htc] at hhello
      cases hhello
    · rw [hmid] at hhello
      cases hhello
  · rw [hrelays.same, hrelays.notHello] at hhello
    cases hhello

/-- An operation cites nothing new, apart from the sender of its packet. -/
theorem Cites.apply {t : Time} (h : r.Cites heard) (hr : r.Reachable t) {op : Operation F}
    (hop : ∀ id sender datagram, op = .packet id sender datagram → heard sender) :
    (r.apply now op).Cites heard where
  links := by
    have hlinks : r.tables.LinksSatisfy fun _ b e => heard b := h.links
    refine apply_linksSatisfy hlinks fun id sender datagram _ p he _ _ => ?_
    exact ⟨hop id sender datagram he, fun _ _ _ _ => hop id sender datagram he⟩
  waiting m hm a ha := by
    rcases mem_outbound_apply hm with hold | hnew
    · exact h.waiting m hold a ha
    · obtain ⟨l, hl, rfl⟩ := mentions_of_mem_queued hnew ha
      exact h.links l hl
  sent id packet p hs hp m hm a ha := by
    rcases sends_apply hs with hold | ⟨p', hne, hwaiting, he⟩
    · exact h.sent id packet p hold hp m hm a ha
    · obtain rfl : p' = p := Except.ok.inj ((hr.decode_encode hne hwaiting he).symm.trans hp)
      exact h.waiting m (hwaiting m hm) a ha

/-- A host provides interfaces of its own only. -/
theorem interfaces_apply {op : Operation F} {interfaces : List (Interface F)}
    (h : ∀ x ∈ r.interfaces, x ∈ interfaces)
    (hop : ∀ provided, op = .start provided ∨ op = .refresh provided → ∀ x ∈ provided, x ∈ interfaces) :
    ∀ x ∈ (r.apply now op).interfaces, x ∈ interfaces := by
  have hs := r.apply_step now op
  generalize r.apply now op = r' at hs
  cases hs with
  | idle | stop => exact h
  | start provided => exact hop provided (.inl rfl)
  | refresh provided => exact hop provided (.inr rfl)
  | packet _ _ _ _ hd | linkFailed _ _ hd | expiry _ _ _ hd | flush _ hd | hello _ _ _ hd | tc _ _ _ hd
  | mid _ _ _ hd =>
    have hsame := hd.sameNode.interfaces
    exact fun x hx => h x (hsame ▸ hx)

end Router

/-! ## Runs -/

namespace World

variable {S : Sites F ι} {W W' : World F ι} {i : ι}

/-- What holds of the router of a node in every world of a run. -/
structure Sound (W : World F ι) (S : Sites F ι) (i : ι) : Prop where
  reachable : ∃ t ≤ W.now, (W.routers i).Reachable t
  interfaces : ∀ x ∈ (W.routers i).interfaces, x ∈ S.interfaces i
  cites : (W.routers i).Cites (W.HasHeard S i)
  heardBack : (W.routers i).tables.LinksSatisfy fun a b e =>
    S.Owns i a ∧ (W.now < e → W.IsHeardBy S i a b)

theorem HasHeard.mono {a : Address F} (h : W.HasHeard S i a)
    (hsub : ∀ x ∈ W.arrivals, x ∈ W'.arrivals) : W'.HasHeard S i a := by
  obtain ⟨b, hb, hab⟩ := h
  exact ⟨b, hb, hsub _ hab⟩

theorem IsHeardBy.mono {a b : Address F} (h : W.IsHeardBy S i a b)
    (hsub : ∀ x ∈ W.arrivals, x ∈ W'.arrivals) : W'.IsHeardBy S i a b := by
  obtain ⟨j, hne, hb, ha⟩ := h
  exact ⟨j, hne, hb, ha.mono hsub⟩

/-- A node to which nothing happens stays as it was. -/
theorem Sound.mono (h : W.Sound S i) (hr : W'.routers i = W.routers i) (hnow : W.now ≤ W'.now)
    (hsub : ∀ x ∈ W.arrivals, x ∈ W'.arrivals) : W'.Sound S i where
  reachable := by
    obtain ⟨t, ht, hreach⟩ := h.reachable
    exact ⟨t, Nat.le_trans ht hnow, hr ▸ hreach⟩
  interfaces := hr ▸ h.interfaces
  cites := hr ▸ h.cites.mono fun _ ha => ha.mono hsub
  heardBack := hr ▸ h.heardBack.mono fun _ _ _ ⟨ha, hp⟩ =>
    ⟨ha, fun he => (hp (Nat.lt_of_le_of_lt hnow he)).mono hsub⟩

/-- What a node needs to know of a packet from `sender` that it receives. -/
structure IsGenuine (W : World F ι) (S : Sites F ι) (i : ι) (sender : Address F) (packet : Octets) : Prop
    where
  arrived : W.HasHeard S i sender
  mentions : ∀ p, Packet.decode packet = .ok p → ∀ m ∈ p.messages, ∀ a, m.Mentions a →
    W.IsHeardBy S i a sender

/-- The router of a node carries out an operation. -/
theorem Sound.act {now : Time} {op : Operation F} (h : W.Sound S i) (hnow : W.now ≤ now)
    (hr : W'.routers i = (W.routers i).apply now op) (hw : W'.now = now)
    (hsub : ∀ x ∈ W.arrivals, x ∈ W'.arrivals)
    (hprovided : ∀ provided, op = .start provided ∨ op = .refresh provided →
      ∀ x ∈ provided, x ∈ S.interfaces i)
    (hpacket : ∀ id sender packet, op = .packet id sender packet → W'.IsGenuine S i sender packet) :
    W'.Sound S i where
  reachable := by
    obtain ⟨t, ht, hreach⟩ := h.reachable
    exact ⟨now, Nat.le_of_eq hw.symm, hr ▸ .apply op hreach (Nat.le_trans ht hnow)⟩
  interfaces := hr ▸ Router.interfaces_apply h.interfaces hprovided
  cites := by
    obtain ⟨t, -, hreach⟩ := h.reachable
    have hcites : (W.routers i).Cites (W'.HasHeard S i) := h.cites.mono fun _ ha => ha.mono hsub
    exact hr ▸ hcites.apply hreach fun id sender packet he => (hpacket id sender packet he).arrived
  heardBack := by
    have hbefore : (W.routers i).tables.LinksSatisfy fun a b e =>
        S.Owns i a ∧ (now < e → W'.IsHeardBy S i a b) :=
      h.heardBack.mono fun _ _ _ ⟨ha, hp⟩ => ⟨ha, fun he => (hp (Nat.lt_of_le_of_lt hnow he)).mono hsub⟩
    rw [hr, hw]
    refine Router.apply_linksSatisfy hbefore fun id sender packet receiver p he hid hp => ?_
    have howns : S.Owns i receiver := by
      obtain ⟨x, hx, rfl⟩ := Option.map_eq_some_iff.mp hid
      exact ⟨x, h.interfaces x (List.mem_of_find?_eq_some hx), rfl⟩
    exact ⟨⟨howns, fun hlt => absurd hlt (Nat.lt_irrefl now)⟩, fun m hm hmentions _ =>
      ⟨howns, fun _ => (hpacket id sender packet he).mentions p hp m hm receiver hmentions⟩⟩

variable [DecidableEq ι]

theorem Reachable.sound (h : W.Reachable S) : ∀ i, W.Sound S i := by
  induction h with
  | create address params entropy =>
    exact fun i => ⟨⟨0, Nat.le_refl 0, .create ..⟩, nofun, ⟨nofun, nofun, nofun⟩, nofun⟩
  | @act W now i op _ hnow hop ih =>
    intro k
    by_cases hk : k = i
    · subst hk
      refine (ih k).act hnow (Function.update_self ..) rfl (fun _ hx => hx) ?_ ?_
      · rintro provided (rfl | rfl) <;> exact hop
      · rintro id sender packet rfl
        cases hop
    · exact (ih k).mono (Function.update_of_ne hk ..) hnow fun _ hx => hx
  | @deliver W now packet i j sender receiver _ hnow hij hs hr hsent ih =>
    have hsub : ∀ x ∈ W.arrivals, x ∈ (sender.address, receiver.address) :: W.arrivals :=
      fun _ hx => List.mem_cons_of_mem _ hx
    intro k
    by_cases hk : k = j
    · subst hk
      refine (ih k).act hnow (Function.update_self ..) rfl hsub nofun ?_
      rintro _ _ _ ⟨⟩
      refine ⟨⟨receiver.address, ⟨receiver, hr, rfl⟩, List.mem_cons_self⟩, fun p hp m hm a ha => ?_⟩
      have hheard : W.HasHeard S i a := (ih i).cites.sent sender.id packet p hsent hp m hm a ha
      exact ⟨i, hij, ⟨sender, hs, rfl⟩, hheard.mono hsub⟩
    · exact (ih k).mono (Function.update_of_ne hk ..) hnow hsub

/-- While a router holds a link as symmetric, this end is an interface of its node, and the one node
that owns the other end has received a packet that was sent out of this end: on the interface at the
other end if that is its only one. -/
theorem Reachable.heard_back (h : W.Reachable S) {l : LinkTuple F}
    (hl : l ∈ (W.routers i).tables.links) (hsymmetric : W.now < l.symTime) :
    S.Owns i l.iface ∧
      ∃ j, j ≠ i ∧ (∀ k, S.Owns k l.neighbour ↔ k = j) ∧
        (∃ b, S.Owns j b ∧ (l.iface, b) ∈ W.arrivals) ∧
        ((∀ b, S.Owns j b → b = l.neighbour) → (l.iface, l.neighbour) ∈ W.arrivals) := by
  obtain ⟨hiface, hback⟩ := (h.sound i).heardBack l hl
  obtain ⟨j, hne, howns, b, hb, harrived⟩ := hback hsymmetric
  refine ⟨hiface, j, hne, fun k => ⟨fun hk => hk.unique howns, fun hk => hk ▸ howns⟩,
    ⟨b, hb, harrived⟩, fun honly => ?_⟩
  exact honly b hb ▸ harrived

/-! ## A link that is crossed

The node 10.0.0.1 is heard on 10.0.0.3 only. The node that owns this interface says so on all of its
interfaces, and what 10.0.0.1 hears is the HELLO that leaves on 10.0.0.2. -/

/-- The interfaces of the two nodes. -/
def crossing : Sites .ipv4 (Fin 2) where
  interfaces
    | 0 => [⟨.number 0, .ofNat 0x0a000001⟩]
    | 1 => [⟨.number 0, .ofNat 0x0a000002⟩, ⟨.number 1, .ofNat 0x0a000003⟩]
  distinct := by decide +kernel

/-- The first HELLO of 10.0.0.1, which lists no links. -/
def firstHello : Octets := [0, 20, 0, 0, 1, 0x86, 0, 16, 10, 0, 0, 1, 1, 0, 0, 0, 0, 0, 5, 3]

/-- The answer of the other node, which lists 10.0.0.1 as heard. -/
def answer : Octets :=
  [0, 28, 0, 0, 1, 0x86, 0, 24, 10, 0, 0, 2, 1, 0, 0, 0, 0, 0, 5, 3, 1, 0, 0, 8, 10, 0, 0, 1]

/-- Both nodes were started, and the HELLO of 10.0.0.1 was sent. -/
def greeted : World .ipv4 (Fin 2) :=
  let W : World .ipv4 (Fin 2) :=
    ⟨fun i => .create (if i = 0 then .ofNat 0x0a000001 else .ofNat 0x0a000002) {} (.cycle #[]), 0, []⟩
  (((W.act 0 0 (.start (crossing.interfaces 0))).act 1 0 (.start (crossing.interfaces 1))).act 0 0
    (.timer .hello)).act 0 0 (.timer .flush)

/-- It arrived on 10.0.0.3, and the other node sent its answer. -/
def answered : World .ipv4 (Fin 2) :=
  ((greeted.deliver 1 ⟨.number 0, .ofNat 0x0a000001⟩ ⟨.number 1, .ofNat 0x0a000003⟩ 0 firstHello).act 1 0
    (.timer .hello)).act 1 0 (.timer .flush)

/-- The answer that left on 10.0.0.2 arrived. -/
def crossed : World .ipv4 (Fin 2) :=
  answered.deliver 0 ⟨.number 0, .ofNat 0x0a000002⟩ ⟨.number 0, .ofNat 0x0a000001⟩ 0 answer

/-- The link of 10.0.0.1 to 10.0.0.2. -/
def crossedLink : LinkTuple .ipv4 where
  iface := .ofNat 0x0a000001
  neighbour := .ofNat 0x0a000002
  symTime := .ofSeconds 6
  asymTime := .ofSeconds 6
  time := .ofSeconds 12
  lostTime := none

theorem greeted_reachable : greeted.Reachable crossing :=
  .act _ _ (.act _ _ (.act _ _ (.act _ _ (.create _ _ _) (Nat.le_refl 0) fun _ h => h) (Nat.le_refl 0)
    fun _ h => h) (Nat.le_refl 0) trivial) (Nat.le_refl 0) trivial

theorem answered_reachable : answered.Reachable crossing :=
  .act _ _ (.act _ _ (.deliver 0 1 _ _ greeted_reachable (Nat.le_refl 0) (by decide) (by decide)
    (by decide) (by decide +kernel)) (Nat.le_refl 0) trivial) (Nat.le_refl 0) trivial

theorem crossed_reachable : crossed.Reachable crossing :=
  .deliver 1 0 _ _ answered_reachable (Nat.le_refl 0) (by decide) (by decide) (by decide)
    (by decide +kernel)

/-- The interface at the other end of a symmetric link need not have received anything that was sent out
of this end. -/
theorem crossed_link :
    crossed.Reachable crossing ∧ crossedLink ∈ (crossed.routers 0).tables.links ∧
      crossed.now < crossedLink.symTime ∧
      (crossedLink.iface, crossedLink.neighbour) ∉ crossed.arrivals :=
  ⟨crossed_reachable, by decide +kernel, by decide +kernel, by decide +kernel⟩

theorem heard_back_crossed :
    crossed.Reachable crossing ∧ crossedLink ∈ (crossed.routers 0).tables.links ∧
      crossed.now < crossedLink.symTime ∧
      ∃ j, j ≠ 0 ∧ crossing.Owns j crossedLink.neighbour ∧
        ∃ b, crossing.Owns j b ∧ (crossedLink.iface, b) ∈ crossed.arrivals := by
  have hl : crossedLink ∈ (crossed.routers 0).tables.links := by decide +kernel
  have hsymmetric : crossed.now < crossedLink.symTime := by decide +kernel
  obtain ⟨-, j, hne, howns, harrived, -⟩ := crossed_reachable.heard_back hl hsymmetric
  exact ⟨crossed_reachable, hl, hsymmetric, j, hne, (howns j).mpr rfl, harrived⟩

end World

end Manet
