import Manet.Proofs.Reception

/-!
# The interfaces of this node

A running router resolves the addresses of its own interfaces to its main address, and no other
address (`Reachable.mainAddress_eq_iff`). It associates the interfaces that the host provides with its
main address for good, and forgets the associations of those that go; MID messages neither claim its
interfaces nor declare further ones in its name.
-/

namespace Manet

variable {F : Family}

namespace Router

variable {now : Time} {r r' : Router F}

/-- The association of an interface of the node with main address `main`, which lasts. -/
def ownAssociation (main : Address F) (i : Interface F) : AssociationTuple F :=
  { iface := i.address, main, time := none }

/-- The associations with this node are those of its own addresses, and while it runs all its
interfaces have one. -/
structure KnowsItself (r : Router F) : Prop where
  own : ∀ a t, r.tables.associations.get? a = some t → (t.main = r.address ↔ r.isLocal a = true)
  present : r.running = true → ∀ i ∈ r.interfaces,
    r.tables.associations.get? i.address = some (ownAssociation r.address i)

theorem isLocal_iff {r : Router F} {a : Address F} :
    r.isLocal a = true ↔ a = r.address ∨ ∃ i ∈ r.interfaces, i.address = a := by
  simp [isLocal, localAddresses]

theorem KnowsItself.mainAddress_eq_iff (h : r.KnowsItself) (hr : r.running = true) (a : Address F) :
    r.mainAddress a = r.address ↔ r.isLocal a = true := by
  unfold mainAddress Tables.mainAddress
  cases ht : r.tables.associations.get? a with
  | some t => exact h.own a t ht
  | none =>
    rw [isLocal_iff]
    refine ⟨.inl, fun hl => hl.resolve_right ?_⟩
    rintro ⟨i, hi, rfl⟩
    cases ht.symm.trans (h.present hr i hi)

namespace KnowsItself

/-- A router that has not started knows of no interfaces. -/
theorem of_unset (hr : r.running = false) (ha : r.tables.associations = ∅) : r.KnowsItself where
  own a t ht := by
    rw [ha] at ht
    cases ht
  present hrunning := absurd (hr.symm.trans hrunning) Bool.false_ne_true

theorem congr (h : r.KnowsItself) (hn : SameNode r r')
    (ha : r'.tables.associations = r.tables.associations) : r'.KnowsItself where
  own a t ht := by
    rw [hn.address, hn.isLocal_eq]
    exact h.own a t (ha ▸ ht)
  present hr i hi := by
    rw [ha, hn.address]
    exact h.present (hn.running ▸ hr) i (hn.interfaces ▸ hi)

theorem of_does {ps : List Part} (hd : Does ps now r r')
    (hp : ∀ p ∈ ps, p.spares .association = true) (h : r.KnowsItself) : r'.KnowsItself :=
  h.congr hd.sameNode (hd.associations_eq hp)

/-- An interface of another node becomes known. -/
theorem write (h : r.KnowsItself) (hn : SameNode r r') {t : AssociationTuple F}
    (hl : r.isLocal t.iface = false) (hm : t.main ≠ r.address)
    (ha : r'.tables.associations = r.tables.associations.insert t) : r'.KnowsItself where
  own a t' ht' := by
    rw [hn.address, hn.isLocal_eq]
    rw [ha, Table.get?_insert] at ht'
    split at ht'
    · rename_i hkey
      obtain rfl : t = t' := Option.some.inj ht'
      obtain rfl : t.iface = a := hkey
      rw [hl]
      exact ⟨fun h => absurd h hm, fun h => absurd h Bool.false_ne_true⟩
    · exact h.own a t' ht'
  present hr i hi := by
    have hi : i ∈ r.interfaces := hn.interfaces ▸ hi
    rw [ha, hn.address, Table.get?_insert, if_neg]
    · exact h.present (hn.running ▸ hr) i hi
    · intro hkey
      have hlocal : r.isLocal t.iface = true := isLocal_iff.mpr (.inr ⟨i, hi, hkey.symm⟩)
      rw [hl] at hlocal
      cases hlocal

end KnowsItself

/-! ## Messages -/

theorem recordInterface_knowsItself (h : r.KnowsItself) {originator : Address F}
    (ho : originator ≠ r.address) {validUntil : Time} (hv : now ≤ validUntil) (iface : Address F) :
    (recordInterface originator validUntil now r iface).KnowsItself := by
  have hn := (recordInterface_does r ho hv iface).sameNode
  unfold recordInterface at hn ⊢
  split at hn
  · rename_i hl
    rw [if_pos hl]
    exact h
  · rename_i hl
    rw [if_neg hl]
    have hl : r.isLocal iface = false := Bool.eq_false_iff.mpr hl
    split at hn
    · rename_i t ht
      obtain ⟨ht, hm⟩ := Option.filter_eq_some_iff.mp ht
      obtain rfl : t.iface = iface := (Table.get?_eq_some_iff.mp ht).2
      have hm : t.main = originator := of_decide_eq_true hm
      exact h.write (t := { t with time := some validUntil }) hn hl (hm ▸ ho) rfl
    · exact h.write (t := ⟨iface, originator, some validUntil⟩) hn hl ho
        (congrArg Tables.associations (tables_onStore_insert ..))

theorem processMid_knowsItself (h : r.KnowsItself) {originator : Address F}
    (ho : originator ≠ r.address) (validity : Time) (interfaces : List (Address F))
    (sender : Address F) : (r.processMid originator validity interfaces sender now).KnowsItself := by
  unfold processMid
  split
  · have hv : now ≤ now + validity := Nat.le_add_right ..
    refine (List.foldlRecOn (motive := fun r' : Router F => r'.KnowsItself ∧ r'.address = r.address)
      _ _ ⟨h, rfl⟩ fun r' ⟨hr, ha⟩ iface _ => ?_).1
    exact ⟨recordInterface_knowsItself hr (ha ▸ ho) hv iface,
      (recordInterface_does r' (ha ▸ ho) hv iface).sameNode.address.trans ha⟩
  · exact h

theorem process_knowsItself (h : r.KnowsItself) (m : Message F) (ho : m.originator ≠ r.address)
    (receiver sender : Address F) : (r.process m receiver sender now).KnowsItself := by
  unfold process
  split
  · exact h.of_does (processHello_does r _ _ _ _ _ _) (by decide)
  · exact h.of_does (processTc_does r _ _ _ _ _) (by decide)
  · exact processMid_knowsItself h ho _ _ _
  · exact ⟨h.own, h.present⟩

theorem handleMessage_knowsItself (h : r.KnowsItself) (m : Message F) (receiver sender : Address F) :
    (handleMessage receiver sender now r m).KnowsItself := by
  unfold handleMessage
  split
  · exact h
  · rename_i hm
    have ho := originator_ne_of_not_local hm
    split
    · split
      · exact h
      · exact h.of_does (forward_does r m receiver sender) (by decide)
    · have hp : (r.process m receiver sender now).KnowsItself :=
        process_knowsItself h m ho receiver sender
      dsimp only
      split
      · exact hp
      · exact hp.of_does (forward_does _ m receiver sender) (by decide)

/-! ## Interfaces that come and go -/

theorem get?_eraseAssociations (r : Router F) (gone : List (Address F)) (a : Address F) :
    (r.onStore (·.eraseAll (gone.map .association))).tables.associations.get? a =
      if a ∈ gone then none else r.tables.associations.get? a := by
  have hget := r.toStore.get?_eraseAll (gone.map .association) (.association a)
  refine Option.map_injective (fun _ _ => TimedTuple.association.inj) (hget.trans ?_)
  have hmem : TupleKey.association a ∈ gone.map .association ↔ a ∈ gone := by simp
  simp only [hmem]
  split <;> rfl

theorem get?_insertAssociations (provided : List (Interface F)) (r : Router F) (now : Time)
    (a : Address F) :
    (provided.foldl (fun r i => r.onStore
        (·.insert (.association (ownAssociation r.address i)) now)) r).tables.associations.get? a =
      if a ∈ provided.map (·.address) then some ⟨a, r.address, none⟩
      else r.tables.associations.get? a := by
  induction provided generalizing r with
  | nil => rfl
  | cons i provided ih =>
    have hget : (r.tables.put (.association (ownAssociation r.address i))).associations.get? a =
        if i.address = a then some (ownAssociation r.address i) else r.tables.associations.get? a :=
      Table.get?_insert ..
    rw [List.foldl_cons, ih, tables_onStore_insert, hget]
    by_cases ha : i.address = a
    · subst ha
      simp [onStore, ownAssociation]
    · simp [onStore, ha, Ne.symm ha]

theorem get?_refreshInterfaces (r : Router F) (provided : List (Interface F)) (now : Time)
    (a : Address F) :
    (r.refreshInterfaces provided now).tables.associations.get? a =
      if a ∈ provided.map (·.address) then some ⟨a, r.address, none⟩
      else if a ∈ r.interfaces.map (·.address) then none else r.tables.associations.get? a := by
  refine (get?_insertAssociations provided _ now a).trans ?_
  rw [get?_eraseAssociations]
  by_cases hp : a ∈ provided.map (·.address)
  · rw [if_pos hp, if_pos hp]
    rfl
  · simp only [List.mem_filter, hp, not_false_eq_true, decide_true, and_true, if_false]

/-- A refresh leaves the router with the interfaces that the host provides, and no others. -/
theorem refreshInterfaces_knowsItself
    (h : ∀ a t, r.tables.associations.get? a = some t → (t.main = r.address ↔ r.isLocal a = true))
    (provided : List (Interface F)) (now : Time) :
    (r.refreshInterfaces provided now).KnowsItself := by
  obtain ⟨r', hd, he⟩ := r.refreshInterfaces_does provided now
  have haddress : (r.refreshInterfaces provided now).address = r.address := by
    rw [he]
    exact hd.sameNode.address
  refine ⟨fun a t ht => ?_, fun _ i hi => ?_⟩
  · have hlocal : (r.refreshInterfaces provided now).isLocal a = true ↔
        a = r.address ∨ a ∈ provided.map (·.address) := by
      rw [isLocal_iff, haddress, List.mem_map]
      rfl
    rw [hlocal, haddress]
    rw [get?_refreshInterfaces] at ht
    split at ht
    · rename_i hp
      obtain rfl := Option.some.inj ht
      exact ⟨fun _ => .inr hp, fun _ => rfl⟩
    · rename_i hp
      split at ht
      · cases ht
      · rename_i hi
        rw [h a t ht, isLocal_iff, ← List.mem_map (f := fun i : Interface F => i.address)]
        exact ⟨fun hl => .inl (hl.resolve_right hi), fun hl => .inl (hl.resolve_right hp)⟩
  · have hi : i ∈ provided := hi
    rw [get?_refreshInterfaces, if_pos (List.mem_map_of_mem hi), haddress]
    rfl

/-! ## Runs -/

/-- What the store answers to a timer touches no association of this node. -/
theorem KnowsItself.expire (h : r.KnowsItself) (key : TupleKey F) (generation : Nat) :
    KnowsItself { r with toStore := (r.toStore.expire key generation now).2 } := by
  refine ⟨fun a t ht => h.own a t ?_, fun hr i hi => ?_⟩
  · have hget := Store.get?_of_get?_expire (Tables.get?_key_association ht)
    obtain ⟨u, hu, he⟩ := Option.map_eq_some_iff.mp hget
    obtain rfl := TimedTuple.association.inj he
    obtain rfl : u.iface = a := (Table.get?_eq_some_iff.mp ht).2
    exact hu
  · have hget : r.tables.get? (.association i.address) =
        some (.association (ownAssociation r.address i)) :=
      congrArg (Option.map _) (h.present hr i hi)
    have hkept := Store.get?_expire_of_lasting (s := r.toStore) hget rfl key generation now
    exact Option.map_injective (fun _ _ => TimedTuple.association.inj) hkept

theorem apply_knowsItself (h : r.KnowsItself) (op : Operation F) : (r.apply now op).KnowsItself := by
  have hs := r.apply_step now op
  cases op with
  | start provided =>
    rw [apply, start]
    split
    · exact h
    · have hrefreshed : ({ r with running := true }.refreshInterfaces provided now).KnowsItself :=
        refreshInterfaces_knowsItself (r := { r with running := true }) h.own provided now
      exact ⟨hrefreshed.own, hrefreshed.present⟩
  | stop =>
    generalize r.apply now .stop = r' at hs
    cases hs with
    | idle => exact h
    | stop => exact .of_unset rfl rfl
  | packet id sender datagram =>
    refine apply_packet_induction h (fun r n hr => ⟨hr.own, hr.present⟩)
      (fun r m receiver sender hr => handleMessage_knowsItself hr m receiver sender)
      (fun r hr => ?_) id sender datagram
    have hd : Does [.routes] now r (r.updateRoutes now) := (Does.nothing r).routes (by decide)
    exact hr.of_does hd (by decide)
  | timer timer =>
    generalize r.apply now (.timer timer) = r' at hs
    cases hs with
    | idle => exact h
    | hello _ _ _ hd | tc _ _ _ hd | mid _ _ _ hd | flush _ hd =>
      have h' := KnowsItself.of_does hd (by decide) ⟨h.own, h.present⟩
      exact ⟨h'.own, h'.present⟩
    | expiry key generation _ hd => exact (h.expire key generation).of_does hd (by decide)
  | linkFailed destination => exact h.of_does (linkFailed_does r destination) (by decide)
  | refresh provided => exact refreshInterfaces_knowsItself h.own provided now

theorem Reachable.knowsItself {t : Time} (h : r.Reachable t) : r.KnowsItself := by
  induction h with
  | create => exact .of_unset rfl rfl
  | apply op _ _ ih => exact apply_knowsItself ih op

/-- A router that runs resolves the addresses of this node to its main address, and no others. -/
theorem Reachable.mainAddress_eq_iff {t : Time} (h : r.Reachable t) (hr : r.running = true)
    (a : Address F) : r.mainAddress a = r.address ↔ r.isLocal a = true :=
  h.knowsItself.mainAddress_eq_iff hr a

end Router

end Manet
