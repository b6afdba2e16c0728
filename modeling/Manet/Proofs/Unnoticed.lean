import Manet.Proofs.NeighbourChecks

/-!
# Changes that go unnoticed

`Router.keepsUp_iff_not_overlooks`: the relays or the routes lag behind the tables after an event
exactly if the event overlooks a change (`Router.Overlooks`), which takes a check of a neighbour
that tells no loss. So in a run that overlooks nothing (`Router.Diligent`) nothing ever lags.
-/

namespace Manet

variable {F : Family}

/-- Whether an operation comes from the network or from time, not from the operator. -/
def Operation.isEvent : Operation F → Bool
  | packet .. | timer _ | linkFailed _ => true
  | start _ | stop | refresh _ => false

/-- Whether an operation checks a neighbour and expects no more of it than a loss: the timer of a
tuple that is still valid, and reports of the link layer. -/
def Operation.checksNeighbour (now : Time) (r : Router F) : Operation F → Bool
  | timer (.expiry key generation) => (r.toStore.expire key generation now).1 = .pending
  | linkFailed _ => true
  | timer .hello | timer .tc | timer .mid | timer .flush | start _ | stop | packet .. | refresh _ =>
    false

namespace Router

variable {now : Time} {r r' : Router F}

/-- An operation checks a neighbour and tells no loss, and the relays or the routes of before are
not what the tables say then. -/
def Overlooks (r : Router F) (now : Time) (op : Operation F) : Prop :=
  let r' := r.apply now op
  op.checksNeighbour now r = true ∧ r'.journal.losses = r.journal.losses ∧
    (r.tables.mprs ≠ selectRelays r'.address r'.tables.neighbours r'.tables.twoHops ∨
      r'.tables.knowledge ≠ r.tables.knowledge ∧
        r.routes ≠ RouteTable.compute r'.tables r'.localAddresses now)

instance (r : Router F) : Decidable r.RelaysCurrent := inferInstanceAs (Decidable (_ = _))

instance (r : Router F) (now : Time) (op : Operation F) : Decidable (r.Overlooks now op) :=
  inferInstanceAs (Decidable (_ ∧ _ ∧ (_ ∨ _ ∧ _)))

/-- The routers that a run leads to whose operations overlook nothing. -/
inductive Diligent : Router F → Time → Prop where
  | create (address : Address F) (params : Params) (entropy : Entropy) :
      Diligent (create address params entropy) 0
  | apply {r : Router F} {t now : Time} (op : Operation F) :
      Diligent r t → t ≤ now → ¬ r.Overlooks now op → Diligent (r.apply now op) now

theorem emission_keepsUp {ps : List Part} (hp : ∀ p ∈ ps, p.isOutward = true)
    (h : r.RelaysCurrent) {r₁ r₂ : Router F} (hd : Does ps now r₁ r₂)
    (h₁ : r₁.tables = r.tables) (h₂ : r'.tables = r₂.tables) (ha : r'.address = r.address) :
    KeepsUp now r r' := by
  have ht : r'.tables = r.tables := h₂.trans ((hd.tables_eq hp).trans h₁)
  exact RelaysCurrent.keepsUp (h.congr ha (by rw [ht]) (by rw [ht]) (by rw [ht])) (by rw [ht])

theorem RelaysCurrent.keepsUp_self (h : r.RelaysCurrent) : KeepsUp now r r := h.keepsUp rfl

theorem packet_keepsUp (h : r.RelaysCurrent) (id : InterfaceId) (sender : Address F)
    (datagram : Octets) : KeepsUp now r (r.apply now (.packet id sender datagram)) := by
  cases hr : r.running with
  | false =>
    rw [apply, handlePacket_of_not_running hr]
    exact h.keepsUp_self
  | true =>
    unfold apply
    dsimp only
    split
    · rename_i r' hp
      exact (handlePacket_upToDate h hr hp).keepsUp
    · exact h.keepsUp_self

/-- The timers that watch over no tuple only let messages wait or send them. -/
theorem timer_keepsUp (h : r.RelaysCurrent) (hr : r.running = true) {timer : Timer F}
    (hτ : ∀ key generation, timer ≠ .expiry key generation) :
    KeepsUp now r (r.handleTimer timer now) := by
  cases timer with
  | hello =>
    obtain ⟨r', delay, entropy, hd, he⟩ := handleTimer_hello_does hr now
    rw [he]
    exact emission_keepsUp (by decide) h hd rfl rfl hd.sameNode.address
  | tc =>
    obtain ⟨r', delay, entropy, hd, he⟩ := handleTimer_tc_does hr now
    rw [he]
    exact emission_keepsUp (by decide) h hd rfl rfl hd.sameNode.address
  | mid =>
    obtain ⟨r', delay, entropy, hd, he⟩ := handleTimer_mid_does hr now
    rw [he]
    exact emission_keepsUp (by decide) h hd rfl rfl hd.sameNode.address
  | flush =>
    have hd : Does [.journal, .sending, .queue] now { r with flushTimer := none, outbound := [] }
        { r with flushTimer := none }.flush := flush_does { r with flushTimer := none }
    rw [handleTimer, if_pos hr]
    exact emission_keepsUp (by decide) h hd rfl rfl hd.sameNode.address
  | expiry key generation => exact absurd rfl (hτ key generation)

/-- Only checks of neighbours that tell no loss leave anything out of date, since they compute
nothing anew. -/
theorem event_cases (hb : r.LossesEnd now) (h : r.RelaysCurrent) {op : Operation F}
    (hop : op.isEvent = true) :
    (KeepsUp now r (r.apply now op) ∧
      (op.checksNeighbour now r = true →
        (r.apply now op).journal.losses ≠ r.journal.losses)) ∨
    (op.checksNeighbour now r = true ∧ Undisturbed r (r.apply now op)) := by
  cases op with
  | start | stop | refresh => cases hop
  | packet id sender datagram => exact .inl ⟨packet_keepsUp h id sender datagram, by rintro ⟨⟩⟩
  | linkFailed destination =>
    rcases linkFailed_cases hb destination with ⟨hu, hl⟩ | hu
    · exact .inl ⟨hu.keepsUp, fun _ => hl⟩
    · exact .inr ⟨rfl, hu⟩
  | timer timer =>
    rw [apply]
    cases hr : r.running with
    | false =>
      rw [handleTimer_of_not_running hr]
      cases hc : (Operation.timer timer).checksNeighbour now r with
      | false => exact .inl ⟨h.keepsUp_self, by rintro ⟨⟩⟩
      | true => exact .inr ⟨rfl, rfl, rfl, rfl⟩
    | true =>
      cases timer with
      | hello | tc | mid | flush => exact .inl ⟨timer_keepsUp h hr (by rintro _ _ ⟨⟩), by rintro ⟨⟩⟩
      | expiry key generation =>
        rw [handleTimer, if_pos hr]
        by_cases hp : (r.toStore.expire key generation now).1 = .pending
        · rcases expire_pending_cases hp with ⟨hu, hl⟩ | hu
          · exact .inl ⟨hu.keepsUp, fun _ => hl⟩
          · exact .inr ⟨decide_eq_true hp, hu⟩
        · exact .inl ⟨expire_keepsUp h hp, fun hc => absurd (of_decide_eq_true hc) hp⟩

/-- Where nothing was computed anew, what was derived lags exactly if it is not right any more. -/
theorem Undisturbed.keepsUp_iff (h : Undisturbed r r') :
    KeepsUp now r r' ↔
      ¬ (r.tables.mprs ≠ selectRelays r'.address r'.tables.neighbours r'.tables.twoHops ∨
        r'.tables.knowledge ≠ r.tables.knowledge ∧
          r.routes ≠ RouteTable.compute r'.tables r'.localAddresses now) := by
  rw [KeepsUp, RelaysCurrent, RoutesCurrent, h.mprs, h.routes, not_or, not_and]
  simp only [ne_eq, Decidable.not_not]

theorem event_keepsUp_iff (hb : r.LossesEnd now) (h : r.RelaysCurrent) {op : Operation F}
    (hop : op.isEvent = true) : KeepsUp now r (r.apply now op) ↔ ¬ r.Overlooks now op := by
  rcases event_cases hb h hop with ⟨hk, hl⟩ | ⟨hc, hu⟩
  · exact ⟨fun _ ho => hl ho.1 ho.2.1, fun _ => hk⟩
  · refine hu.keepsUp_iff.trans (not_congr ⟨fun hn => ⟨hc, hu.losses, hn⟩, fun ho => ho.2.2⟩)

/-- The operator changes neither neighbours nor nodes two hops away, except by stopping the
router. -/
theorem apply_relaysCurrent (h : r.RelaysCurrent) {op : Operation F} (hop : op.isEvent = false) :
    (r.apply now op).RelaysCurrent := by
  have hs := r.apply_step now op
  generalize r.apply now op = r' at hs
  cases hs with
  | idle => exact h
  | stop => rfl
  | start _ _ _ hd | refresh _ hd =>
    have h' := hd.relaysCurrent (by decide) h
    exact h'
  | packet | linkFailed | hello | tc | mid | flush | expiry => cases hop

theorem Diligent.relaysCurrent {t : Time} (h : r.Diligent t) : r.RelaysCurrent ∧ r.LossesEnd t := by
  induction h with
  | create => exact ⟨rfl, nofun⟩
  | @apply r t now op _ ht ho ih =>
    have hb : r.LossesEnd now := ih.2.mono ht
    refine ⟨?_, hb.step (apply_step _ _ op)⟩
    cases hop : op.isEvent with
    | false => exact apply_relaysCurrent ih.1 hop
    | true => exact ((event_keepsUp_iff hb ih.1 hop).mpr ho).1

/-- What the timer of a tuple overlooks is a link that stopped being symmetric, to a node that is
not stored as the neighbour that the links make it. -/
theorem Overlooks.unsettled (h : r.RelaysCurrent) {key : TupleKey F} {generation : Nat}
    (ho : r.Overlooks now (.timer (.expiry key generation))) :
    ∃ link, r.tables.get? key = some (.link link) ∧ link.isSymmetric now = false ∧
      ¬ r.IsSettled (r.mainAddress link.neighbour) now := by
  refine Classical.byContradiction fun hno => ?_
  have hset (link : LinkTuple F) (hl : r.tables.get? key = some (.link link))
      (hs : link.isSymmetric now = false) : r.IsSettled (r.mainAddress link.neighbour) now :=
    Classical.byContradiction fun hn => hno ⟨link, hl, hs, hn⟩
  obtain ⟨hc, -, hlag⟩ := ho
  have hsame : (r.apply now (.timer (.expiry key generation))).tables = r.tables ∧
      (r.apply now (.timer (.expiry key generation))).address = r.address := by
    rw [apply]
    cases hr : r.running with
    | false =>
      rw [handleTimer_of_not_running hr]
      exact ⟨rfl, rfl⟩
    | true =>
      have hd : Does upkeep now { r with toStore := (r.toStore.expire key generation now).2 }
          (r.expire key generation now) := expire_does r key generation
      rw [handleTimer, if_pos hr]
      exact ⟨expire_pending_tables (of_decide_eq_true hc) hset,
        hd.sameNode.address⟩
  rw [hsame.1, hsame.2] at hlag
  exact hlag.elim (fun hm => hm h) fun hk => hk.1 rfl

/-- What comes from the network or from time leaves the relays or the routes out of date exactly if
it overlooks a change. A timer overlooks one only where a link stopped being symmetric, and a report
leaves the relays out of date only where a route goes, to a neighbour that is not settled. In a run
that overlooks nothing, the relays are those that the neighbourhood calls for at any time, and
neither they nor the routes ever lag. -/
theorem keepsUp_iff_not_overlooks {t : Time} (h : r.Reachable t) :
    (∀ now op, t ≤ now → op.isEvent = true → r.RelaysCurrent →
      (KeepsUp now r (r.apply now op) ↔ ¬ r.Overlooks now op)) ∧
    (∀ now key generation, r.RelaysCurrent → r.Overlooks now (.timer (.expiry key generation)) →
      ∃ link, r.tables.get? key = some (.link link) ∧ link.isSymmetric now = false ∧
        ¬ r.IsSettled (r.mainAddress link.neighbour) now) ∧
    (∀ now destination, t ≤ now → r.RelaysCurrent →
      ¬ (r.linkFailed destination now).RelaysCurrent →
      ∃ route, r.routeTo? destination = some route ∧
        ¬ r.IsSettled (r.mainAddress route.nextHop) now) ∧
    (r.Diligent t → r.RelaysCurrent ∧
      ∀ now op, t ≤ now → op.isEvent = true → ¬ r.Overlooks now op →
        KeepsUp now r (r.apply now op)) := by
  have hb (now : Time) (ht : t ≤ now) : r.LossesEnd now := h.lossesEnd.mono ht
  refine ⟨fun now op ht hop hr => event_keepsUp_iff (hb now ht) hr hop,
    fun now key generation hr ho => ho.unsettled hr, fun now destination ht hr hn => ?_,
    fun hd => ?_⟩
  · refine Classical.byContradiction fun hno => hn (linkFailed_relaysCurrent (hb now ht) hr ?_)
    exact fun route hroute => Classical.byContradiction fun hs => hno ⟨route, hroute, hs⟩
  · have hr := hd.relaysCurrent.1
    exact ⟨hr, fun now op ht hop => (event_keepsUp_iff (hb now ht) hr hop).mpr⟩

/-! A node whose neighbour 10.0.0.2 turns out to be an interface of 10.0.0.9. When the link to it
stops being symmetric, the neighbour is stored anew, and 10.0.0.2 stays a relay. -/

/-- A HELLO of 10.0.0.9 from its interface 10.0.0.2. -/
def secondaryHello : Octets :=
  [0, 28, 0, 0, 1, 0x86, 0, 24, 10, 0, 0, 9, 1, 0, 0, 0, 0, 0, 5, 7, 6, 0, 0, 8, 10, 0, 0, 1]

/-- A MID in which 10.0.0.9 declares the interface 10.0.0.2. -/
def secondaryMid : Octets := [0, 20, 0, 1, 3, 0x88, 0, 16, 10, 0, 0, 9, 255, 0, 0, 1, 10, 0, 0, 2]

/-- The node after both. -/
def renamed : Router .ipv4 :=
  (((create sampleAddress {} (.cycle #[])).apply 0 sampleStart).apply 0
    (.packet (.number 0) (.ofNat 0x0a000002) secondaryHello)).apply 0
    (.packet (.number 0) (.ofNat 0x0a000002) secondaryMid)

theorem renamed_reachable : renamed.Reachable 0 :=
  .apply _ (.apply _ (.apply _ (.create _ _ _) (Nat.le_refl 0)) (Nat.le_refl 0)) (Nat.le_refl 0)

/-- The timer of the link. -/
def renamedTimer : Operation .ipv4 :=
  .timer (.expiry (.link sampleAddress (.ofNat 0x0a000002)) 1)

theorem keepsUp_iff_not_overlooks_samples :
    KeepsUp (.ofSeconds 6) sample (sample.apply (.ofSeconds 6) renamedTimer) ∧
      ¬ KeepsUp (.ofSeconds 6) renamed (renamed.apply (.ofSeconds 6) renamedTimer) :=
  ⟨((keepsUp_iff_not_overlooks sample_reachable).1 _ _ (Nat.zero_le _) rfl
      (by decide +kernel)).mpr (by decide +kernel),
    fun hk => ((keepsUp_iff_not_overlooks renamed_reachable).1 _ _ (Nat.zero_le _) rfl
      (by decide +kernel)).mp hk (by decide +kernel)⟩

end Router

end Manet