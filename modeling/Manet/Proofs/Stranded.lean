import Manet.Proofs.Ownership
import Manet.Proofs.Unnoticed

/-!
# Stranded neighbours

A neighbour goes with its last link, unless it is stranded: stored under an address to which no link
leads any more. `Router.eq_empty_iff_not_isStranded` says that this is the only way to keep neighbours
or relays without links, and that it takes an operation that reassigns the interface at the end of a
link.
-/

namespace Manet

variable {F : Family}

/-- Without neighbours no relay is selected. -/
theorem selectRelays_empty (self : Address F) (twoHops : Table (TwoHopTuple F)) :
    selectRelays self ∅ twoHops = ∅ := by
  have hpairs : RelaySelection.eligiblePairs self ∅ twoHops = [] := by
    simp [RelaySelection.eligiblePairs]
  rw [selectRelays, RelaySelection.run, hpairs]
  rfl

namespace Router

variable {now : Time} {r r' : Router F}

theorem eq_empty_of_kept {T T' : Tables F}
    (h : ∀ l ∈ T.links, ∃ l' ∈ T'.links, l'.neighbour = l.neighbour) (he : T'.links = ∅) : T.links = ∅ :=
  Table.eq_of_mem_iff fun l => ⟨fun hl => by
    obtain ⟨l', hl', -⟩ := h l hl
    rw [he] at hl'
    exact absurd hl' (Table.not_mem_empty l'), fun hl => absurd hl (Table.not_mem_empty l)⟩

/-- The timer of the last link gives up the relays with it. -/
theorem expire_relaysCurrent (h : r.tables.links = ∅ → r.RelaysCurrent) {key : TupleKey F} {generation : Nat}
    (he : (r.expire key generation now).tables.links = ∅) :
    (r.expire key generation now).RelaysCurrent := by
  have ht := r.toStore.tables_expire key generation now
  have hd : Does upkeep now { r with toStore := (r.toStore.expire key generation now).2 }
      (r.expire key generation now) := expire_does r key generation
  have hlinks : (r.toStore.expire key generation now).2.tables.links = ∅ :=
    (hd.links_of_leavesLinks (by decide)).symm.trans he
  have hsame (hl : r.tables.links = ∅) : (r.expire key generation now).RelaysCurrent := by
    by_cases hp : (r.toStore.expire key generation now).1 = .pending
    · have htables := expire_pending_tables hp fun link hget _ => by
        obtain rfl := Tables.key_of_get? hget
        rw [TimedTuple.key, Tables.get?, hl] at hget
        cases hget
      exact (h hl).congr hd.sameNode.address (by rw [htables]) (by rw [htables]) (by rw [htables])
    · exact (expire_keepsUp (h hl) hp).1
  cases hx : (r.toStore.expire key generation now).1 with
  | stale | pending =>
    rw [hx] at ht
    have ht : (r.toStore.expire key generation now).2.tables = r.tables := ht
    exact hsame (ht ▸ hlinks)
  | expired t =>
    rw [hx] at ht
    obtain ⟨hget, ht⟩ : r.tables.get? key = some t ∧
      (r.toStore.expire key generation now).2.tables = r.tables.drop key := ht
    obtain rfl := Tables.key_of_get? hget
    rw [ht] at hlinks
    cases t with
    | link t =>
      unfold expire
      dsimp only
      rw [hx]
      exact (linkRemoved_upToDate _ t now).relays
    | twoHop | selector | topology | association | duplicate => exact hsame hlinks

theorem linkFailed_relaysCurrent_of_kept (h : r.tables.links = ∅ → r.RelaysCurrent) {destination : Address F}
    (he : (r.linkFailed destination now).tables.links = ∅) : (r.linkFailed destination now).RelaysCurrent := by
  have hl : r.tables.links = ∅ :=
    eq_empty_of_kept ((linkFailed_does r destination).kept (by decide)) he
  unfold linkFailed
  split
  · split
    · exact h hl
    · dsimp only
      have hnote (n : Notice F) : (r.note n).tables.links = ∅ := hl
      rw [hnote]
      exact h hl
  · exact h hl

/-- Without links, the relays are those that the neighbourhood calls for. -/
theorem Reachable.relaysCurrent {t : Time} (h : r.Reachable t) : r.tables.links = ∅ → r.RelaysCurrent := by
  induction h with
  | create => exact fun _ => rfl
  | @apply r t now op _ _ ih =>
    have hs := r.apply_step now op
    generalize hr' : r.apply now op = r' at hs
    intro he
    cases hs with
    | idle => exact ih he
    | start _ _ _ hd | refresh _ hd =>
      have hl : r.tables.links = ∅ := (hd.links_of_leavesLinks (by decide)).symm.trans he
      have hr := hd.relaysCurrent (by decide) (ih hl)
      exact hr
    | stop => rfl
    | packet id sender datagram _ hd =>
      exact hr' ▸ (packet_keepsUp (ih (eq_empty_of_kept (hd.kept (by decide)) he)) id sender datagram).1
    | linkFailed destination =>
      rw [← hr'] at he ⊢
      exact linkFailed_relaysCurrent_of_kept ih he
    | hello _ _ hr hd | tc _ _ hr hd | mid _ _ hr hd | flush hr hd =>
      have hl : r.tables.links = ∅ := (congrArg Tables.links (hd.tables_eq (by decide))).symm.trans he
      rw [← hr', Router.apply]
      exact (timer_keepsUp (ih hl) hr (by rintro _ _ ⟨⟩)).1
    | expiry key generation hr hd =>
      rw [← hr', Router.apply, handleTimer, if_pos hr] at he ⊢
      exact expire_relaysCurrent ih he

/-- Where no operation reassigns the interface at the end of a link, no neighbour is ever stranded. -/
theorem ReachableBy.not_isStranded {t : Time}
    (h : r.ReachableBy (fun now r op => op.IsSteady now r) t) (main : Address F) :
    ¬ r.tables.IsStranded main := by
  induction h with
  | create => exact fun hm => Bool.noConfusion hm.1
  | apply op _ _ hop ih => exact fun hm => ih ((apply_calm hop).stranded main hm)

theorem neighbours_eq_empty (hl : r.tables.links = ∅) (hs : ∀ main, ¬ r.tables.IsStranded main) :
    r.tables.neighbours = ∅ := by
  refine Table.eq_of_mem_iff fun n => ⟨fun hn => ?_, fun hn => absurd hn (Table.not_mem_empty n)⟩
  refine absurd ⟨Table.contains_iff.mpr ⟨n, hn, rfl⟩, ?_⟩ (hs n.main)
  rintro ⟨l, hm, -⟩
  rw [hl] at hm
  exact Table.not_mem_empty l hm

/-- A router without links has neither neighbours nor relays iff no neighbour is stranded. A neighbour
is stranded only by an operation that reassigns the interface at the end of a link, so in a run without
such operations neighbours and relays are gone with the last link. -/
theorem eq_empty_iff_not_isStranded {t : Time} (h : r.Reachable t) :
    (r.tables.links = ∅ →
      ((r.tables.neighbours = ∅ ∧ r.tables.mprs = ∅) ↔ ∀ main, ¬ r.tables.IsStranded main)) ∧
    (∀ now op main, (r.apply now op).tables.IsStranded main → ¬ r.tables.IsStranded main →
      ∃ l ∈ (r.apply now op).tables.links, op.Reassigns now r l.neighbour) ∧
    (r.ReachableBy (fun now r op => op.IsSteady now r) t →
      (∀ main, ¬ r.tables.IsStranded main) ∧
        (r.tables.links = ∅ → r.tables.neighbours = ∅ ∧ r.tables.mprs = ∅)) := by
  have hempty (hl : r.tables.links = ∅) (hs : ∀ main, ¬ r.tables.IsStranded main) :
      r.tables.neighbours = ∅ ∧ r.tables.mprs = ∅ := by
    have hn := neighbours_eq_empty hl hs
    have hm := h.relaysCurrent hl
    rw [RelaysCurrent, hn, selectRelays_empty] at hm
    exact ⟨hn, hm⟩
  refine ⟨fun hl => ⟨fun hgone main hm => ?_, hempty hl⟩, fun now op main hm hno => ?_, fun hr => ?_⟩
  · rw [Tables.IsStranded, hgone.1] at hm
    exact Bool.noConfusion hm.1
  · refine Classical.byContradiction fun hsteady => hno ((apply_calm fun l hl hre => ?_).stranded main hm)
    exact hsteady ⟨l, hl, hre⟩
  · exact ⟨hr.not_isStranded, fun hl => hempty hl hr.not_isStranded⟩

/-! In a small run that reassigns nothing the neighbour goes with its link. The node whose neighbour
10.0.0.2 turned out to be an interface of 10.0.0.9 keeps it when the links to both have gone. -/

/-- The small run after its link has expired. -/
def unlinked : Router .ipv4 :=
  sample.apply (.ofSeconds 120) (.timer (.expiry (.link sampleAddress (.ofNat 0x0a000002)) 1))

/-- The node hears 10.0.0.9 directly too. -/
def heardTwice : Router .ipv4 :=
  renamed.apply 0 (.packet (.number 0) (.ofNat 0x0a000009) secondaryHello)

/-- The timers of both links, when they stop being symmetric and when they end. -/
def orphaned : Router .ipv4 :=
  (((heardTwice.apply (.ofSeconds 6) renamedTimer).apply (.ofSeconds 6)
    (.timer (.expiry (.link sampleAddress (.ofNat 0x0a000009)) 4))).apply (.ofSeconds 12)
    (.timer (.expiry (.link sampleAddress (.ofNat 0x0a000002)) 5))).apply (.ofSeconds 12)
    (.timer (.expiry (.link sampleAddress (.ofNat 0x0a000009)) 6))

theorem unlinked_steady :
    unlinked.ReachableBy (fun now r op => op.IsSteady now r) (.ofSeconds 120) :=
  .apply _ (.apply _ (.apply _ (.create _ _ _) (Nat.le_refl 0) (by decide +kernel)) (Nat.le_refl 0)
    (by decide +kernel)) (Nat.zero_le _) (by decide +kernel)

theorem orphaned_reachable : orphaned.Reachable (.ofSeconds 12) :=
  .apply _ (.apply _ (.apply _ (.apply _ (.apply _ renamed_reachable (Nat.le_refl 0)) (Nat.zero_le _))
    (Nat.le_refl _)) (by decide)) (Nat.le_refl _)

theorem eq_empty_iff_not_isStranded_samples :
    (unlinked.tables.links = ∅ ∧ unlinked.tables.neighbours = ∅ ∧ unlinked.tables.mprs = ∅) ∧
      orphaned.tables.links = ∅ ∧ orphaned.tables.IsStranded (.ofNat 0x0a000002) ∧
      ¬ (orphaned.tables.neighbours = ∅ ∧ orphaned.tables.mprs = ∅) := by
  have hl : unlinked.tables.links = ∅ := by decide +kernel
  have hl' : orphaned.tables.links = ∅ := by decide +kernel
  have hs : orphaned.tables.IsStranded (.ofNat 0x0a000002) := by decide +kernel
  refine ⟨⟨hl, ?_⟩, hl', hs, fun he => ?_⟩
  · exact ((eq_empty_iff_not_isStranded unlinked_steady.reachable).2.2 unlinked_steady).2 hl
  · exact ((eq_empty_iff_not_isStranded orphaned_reachable).1 hl').mp he _ hs

end Router

end Manet
