import Manet.Proofs.Step

/-!
# The forwarding table of the host

A host keeps a forwarding table by carrying out the calls of its router that concern routes.
`ForwardingTable.replay` does so from an empty table and fails at the first call that does not fit
the table: an added destination that is there, a changed or removed one that is not there as the
call says. `Router.replay_calls`: over any run it never fails, and the table is always that of the
router's routes, without their paths.
-/

namespace Manet

variable {F : Family}

/-- What a forwarding table says of a destination. -/
structure ForwardingEntry (F : Family) where
  destination : Address F
  nextHop : Address F
  iface : Address F
  distance : Nat
deriving DecidableEq

instance : Keyed (ForwardingEntry F) (Address F) := ⟨ForwardingEntry.destination⟩

/-- The forwarding table of a host, with one entry for each destination. -/
abbrev ForwardingTable (F : Family) := Table (ForwardingEntry F)

/-- What a route says of forwarding. -/
def Route.entry (r : Route F) : ForwardingEntry F where
  destination := r.destination
  nextHop := r.nextHop
  iface := r.iface
  distance := r.distance

theorem Route.entry_eq_of_sameForwarding {r s : Route F} (hd : r.destination = s.destination)
    (h : r.sameForwarding s = true) : r.entry = s.entry := by
  obtain ⟨hn, hi, hl⟩ : r.nextHop = s.nextHop ∧ r.iface = s.iface ∧ r.distance = s.distance :=
    of_decide_eq_true h
  simp only [entry, hd, hn, hi, hl]

namespace ForwardingTable

/-- The table after a call of the router, if the call fits it. -/
def carryOut? (M : ForwardingTable F) : Call F → Option (ForwardingTable F)
  | .routeAdded r => if M.contains r.destination then none else some (M.insert r.entry)
  | .routeChanged old new =>
    if M.get? old.destination = some old.entry ∧ new.destination = old.destination then
      some (M.insert new.entry)
    else none
  | .routeRemoved r =>
    if M.get? r.destination = some r.entry then some (M.erase r.destination) else none
  | _ => some M

/-- The table that calls make of an empty one, if each fits. -/
def replay (calls : List (Call F)) : Option (ForwardingTable F) := calls.foldlM carryOut? ∅

/-- The table that forwards as routes say. -/
def ofRoutes (R : RouteTable F) : ForwardingTable F :=
  ⟨R.toList.map Route.entry, List.pairwise_map.mpr R.sorted⟩

theorem get?_ofRoutes (R : RouteTable F) (a : Address F) :
    (ofRoutes R).get? a = (R.get? a).map Route.entry :=
  List.find?_map ..

theorem get?_ofRoutes_of_mem {R : RouteTable F} {r : Route F} (h : r ∈ R) :
    (ofRoutes R).get? r.destination = some r.entry := by
  have hr : R.get? r.destination = some r := Table.get?_eq_some_iff.mpr ⟨h, rfl⟩
  rw [get?_ofRoutes, hr]
  rfl

theorem get?_insert_entry (M : ForwardingTable F) (r : Route F) (a : Address F) :
    (M.insert r.entry).get? a = if r.destination = a then some r.entry else M.get? a :=
  Table.get?_insert ..

end ForwardingTable

open ForwardingTable

/-! ## Journals that make a forwarding table -/

/-- The calls of the journal make the table `M`. -/
def Journal.Mirrors (j : Journal F) (M : ForwardingTable F) : Prop := replay j.calls.toList = some M

namespace Journal.Mirrors

variable {j : Journal F} {M M' : ForwardingTable F}

theorem call (h : j.Mirrors M) {c : Call F} (hc : carryOut? M c = some M') :
    (j.call c).Mirrors M' := by
  unfold Journal.Mirrors replay at h ⊢
  rw [Journal.call, Array.toList_push, List.foldlM_append, h]
  simp [hc]

theorem schedule (h : j.Mirrors M) (delay : Time) (timer : Timer F) :
    (j.schedule delay timer).Mirrors M :=
  Mirrors.call (j := { j with issued := j.nextHandle }) h rfl

theorem cancel (h : j.Mirrors M) (handle : Handle) : (j.call (.cancel handle)).Mirrors M :=
  h.call rfl

/-- Timers do not matter to the table. -/
theorem isTimeless (M : ForwardingTable F) : IsTimeless fun j => j.Mirrors M :=
  ⟨fun delay timer h => h.schedule delay timer, fun handle h => h.cancel handle⟩

theorem plain (h : j.Mirrors M) {c : Call F} (hc : c.isPlain = true) : (j.call c).Mirrors M := by
  refine h.call ?_
  cases c <;> first | rfl | cases hc

theorem cancelAll (h : j.Mirrors M) (hs : List Handle) : (j.cancelAll hs).Mirrors M := by
  induction hs generalizing j with
  | nil => exact h
  | cons handle hs ih => exact ih (h.cancel handle)

end Journal.Mirrors

/-! ## Differences of routes -/

namespace Router

/-- Reporting a route enters it into the table, whatever the earlier route was. -/
theorem reportRoute_mirrors {old : RouteTable F} {route : Route F} {r : Router F}
    {M : ForwardingTable F} (h : r.journal.Mirrors M)
    (hM : M.get? route.destination = (old.get? route.destination).map Route.entry) :
    (reportRoute old r route).journal.Mirrors (M.insert route.entry) := by
  unfold reportRoute
  split
  · rename_i hold
    have hc : M.contains route.destination = false := by
      rw [Table.contains_eq_isSome, hM, hold]
      rfl
    exact h.call (by rw [carryOut?, if_neg (by rw [hc]; exact Bool.false_ne_true)])
  · rename_i previous hold
    rw [hold, Option.map_some] at hM
    have hd : previous.destination = route.destination := (Table.get?_eq_some_iff.mp hold).2
    split
    · rename_i hs
      rw [Route.entry_eq_of_sameForwarding hd hs] at hM
      rwa [Table.insert_eq_self hM]
    · exact h.call (by rw [carryOut?, if_pos ⟨hd ▸ hM, hd.symm⟩])

theorem foldl_reportRoute_mirrors {old : RouteTable F} {l : List (Route F)}
    (hl : l.Pairwise fun a b => a.destination ≠ b.destination) {r : Router F}
    {M : ForwardingTable F} (h : r.journal.Mirrors M)
    (hM : ∀ route ∈ l,
      M.get? route.destination = (old.get? route.destination).map Route.entry) :
    ∃ M', (l.foldl (reportRoute old) r).journal.Mirrors M' ∧ ∀ a, M'.get? a =
      ((l.find? fun route => route.destination = a).map Route.entry).or (M.get? a) := by
  induction hl generalizing r M with
  | nil => exact ⟨M, h, fun a => rfl⟩
  | @cons route l hne _ ih =>
    obtain ⟨M', h', hM'⟩ := ih (reportRoute_mirrors h (hM route List.mem_cons_self))
      fun other ho => by
        rw [get?_insert_entry, if_neg (hne other ho)]
        exact hM other (List.mem_cons_of_mem _ ho)
    refine ⟨M', h', fun a => ?_⟩
    rw [hM', get?_insert_entry, List.find?_cons]
    by_cases ha : route.destination = a
    · have hn : l.find? (fun other => other.destination = a) = none :=
        List.find?_eq_none.mpr fun other ho he => hne other ho (ha.trans (of_decide_eq_true he).symm)
      simp [hn, ha]
    · simp [ha]

/-- What removes the routes of a list whose destinations satisfy `p`, one after the other. -/
theorem foldl_removes {σ : Type} {J : σ → Journal F} {p : Address F → Bool}
    {f : σ → Route F → σ}
    (hf : ∀ {x M route}, (J x).Mirrors M →
      (p route.destination = true → M.get? route.destination = some route.entry) →
      (J (f x route)).Mirrors
        (if p route.destination then M.erase route.destination else M))
    {l : List (Route F)} (hl : l.Pairwise fun a b => a.destination ≠ b.destination) {x : σ}
    {M : ForwardingTable F} (h : (J x).Mirrors M)
    (hM : ∀ route ∈ l,
      p route.destination = true → M.get? route.destination = some route.entry) :
    ∃ M', (J (l.foldl f x)).Mirrors M' ∧ ∀ a, M'.get? a =
      if p a ∧ l.any (fun route => route.destination = a) then none else M.get? a := by
  induction hl generalizing x M with
  | nil => exact ⟨M, h, fun a => by simp⟩
  | @cons route l hne _ ih =>
    have hg : ∀ a, (if p route.destination then M.erase route.destination else M).get? a =
        if p a ∧ route.destination = a then none else M.get? a := by
      intro a
      by_cases ha : route.destination = a
      · subst ha
        split <;> simp_all [Table.get?_erase]
      · have ha' : a ≠ route.destination := Ne.symm ha
        split <;> simp [Table.get?_erase, ha, ha']
    obtain ⟨M', h', hM'⟩ := ih (hf h (hM route List.mem_cons_self)) fun other ho hp => by
      rw [hg, if_neg fun hx => hne other ho hx.2]
      exact hM other (List.mem_cons_of_mem _ ho) hp
    refine ⟨M', h', fun a => ?_⟩
    rw [hM', hg, List.any_cons]
    by_cases hp : p a = true <;> by_cases ha : route.destination = a <;> simp [hp, ha]

theorem pairwise_destination (R : RouteTable F) :
    R.toList.Pairwise fun a b => a.destination ≠ b.destination :=
  R.sorted.imp KeyOrder.ne_of_before

/-- Reporting that a route is gone removes it from the table. -/
theorem reportRemoved_mirrors {new : RouteTable F} {route : Route F} {r : Router F}
    {M : ForwardingTable F} (h : r.journal.Mirrors M)
    (hM : (!new.contains route.destination) = true →
      M.get? route.destination = some route.entry) :
    (reportRemoved new r route).journal.Mirrors
      (if !new.contains route.destination then M.erase route.destination else M) := by
  unfold reportRemoved
  cases hc : new.contains route.destination with
  | true => exact h
  | false =>
    rw [hc] at hM
    exact h.call (if_pos (hM rfl))

theorem updateRoutes_mirrors {r : Router F} (h : r.journal.Mirrors (ofRoutes r.routes))
    (now : Time) :
    (r.updateRoutes now).journal.Mirrors (ofRoutes (r.updateRoutes now).routes) := by
  obtain ⟨j, hj, -⟩ := r.updateRoutes_eq now
  rw [show (r.updateRoutes now).routes = _ by rw [hj]]
  generalize hn : RouteTable.compute r.tables r.localAddresses now = new
  unfold updateRoutes
  dsimp only
  rw [hn]
  obtain ⟨M, hM, hg⟩ := foldl_reportRoute_mirrors (r := { r with routes := new })
    (pairwise_destination new) h fun route _ => get?_ofRoutes ..
  have hg : ∀ a, M.get? a =
      ((new.get? a).map Route.entry).or ((r.routes.get? a).map Route.entry) := fun a => by
    rw [hg, get?_ofRoutes]
    rfl
  obtain ⟨M', hM', hg'⟩ := foldl_removes (p := fun a => !new.contains a) (f := reportRemoved new)
    (fun {r' _ _} => reportRemoved_mirrors (r := r')) (pairwise_destination r.routes) hM
    fun route hr hp => by
      have hnone : new.get? route.destination = none := by
        simpa [Table.contains_eq_isSome] using hp
      have hsome : r.routes.get? route.destination = some route :=
        Table.get?_eq_some_iff.mpr ⟨hr, rfl⟩
      rw [hg, hnone, hsome]
      rfl
  have he : M' = ofRoutes new := by
    refine Table.ext_get? fun a => ?_
    rw [hg', hg, get?_ofRoutes, Table.contains_eq_isSome]
    cases new.get? a with
    | some route => rfl
    | none =>
      show (if true ∧ r.routes.contains a = true then _ else _) = _
      rw [Table.contains_eq_isSome]
      cases r.routes.get? a <;> simp
  exact he ▸ hM'

end Router

/-- Withdrawing all routes empties the table. -/
theorem Journal.Mirrors.withdrawAll {j : Journal F} {R : RouteTable F} (h : j.Mirrors (ofRoutes R)) :
    (j.withdrawAll R.toList).Mirrors ∅ := by
  have hf {j : Journal F} {M : ForwardingTable F} {route : Route F} (h : j.Mirrors M)
      (hM : true = true → M.get? route.destination = some route.entry) :
      (j.call (.routeRemoved route)).Mirrors
        (if true = true then M.erase route.destination else M) :=
    h.call (if_pos (hM rfl))
  obtain ⟨M, hM, hg⟩ := Router.foldl_removes (J := id) (p := fun _ => true) hf
    (Router.pairwise_destination R) h fun _ hr _ => get?_ofRoutes_of_mem hr
  have he : M = ∅ := by
    refine Table.ext_get? fun a => ?_
    rw [hg, get?_ofRoutes]
    show (if true = true ∧ R.contains a = true then _ else _) = none
    rw [Table.contains_eq_isSome]
    cases R.get? a <;> simp
  exact he ▸ hM

/-! ## Runs -/

namespace Router

/-- The calls so far make the table of the routes. -/
def Mirrored (r : Router F) : Prop := r.journal.Mirrors (ofRoutes r.routes)

theorem Mirrored.perform {r : Router F} (h : r.Mirrored) {now : Time} {d : Deed F}
    (hd : d.Fits now r) : (r.perform now d).Mirrored := by
  cases d with
  | note n => exact h
  | tell c => exact h.plain hd
  | loss main => exact h.call rfl
  | send id packet => exact h.call rfl
  | insert t => exact (Journal.Mirrors.isTimeless _).insert h t now
  | refresh t => exact h
  | erase k => exact (Journal.Mirrors.isTimeless _).erase h k
  | mark t => exact (Journal.Mirrors.isTimeless _).rearm (s := r.toStore.overwrite (.link t)) h _ now
  | neighbours table => exact h
  | relays mprs => exact h
  | routes => exact updateRoutes_mirrors h now
  | enqueue m =>
    rcases r.enqueue_cases m with ⟨-, he⟩ | ⟨-, delay, _, he⟩ <;> rw [Router.perform, he]
    · exact h
    · exact h.schedule delay .flush
  | numberMessage s => exact h
  | numberPacket s => exact h

theorem Mirrored.does {ps : List Part} {now : Time} {r r' : Router F} (h : r.Mirrored)
    (hd : Does ps now r r') : r'.Mirrored :=
  hd.keep (fun _ _ _ hf h => h.perform hf) h

theorem Mirrored.step {r r' : Router F} {now : Time} {op : Operation F} (h : r.Mirrored)
    (hs : Step now r op r') : r'.Mirrored := by
  cases hs with
  | idle => exact h
  | @start r' provided delay hr hd =>
    have h' : r'.Mirrored := Mirrored.does (r := { r with running := true }) h hd
    exact ((h'.schedule delay .hello).schedule delay .tc).schedule delay .mid
  | stop => exact ((h.cancelAll _).cancelAll _).withdrawAll
  | packet _ _ _ _ hd => exact h.does hd
  | linkFailed _ _ hd => exact h.does hd
  | @refresh r' _ hd =>
    have h' : r'.Mirrored := h.does hd
    exact h'
  | hello delay _ _ hd =>
    exact (Mirrored.does (r := { r with helloTimer := none }) h hd).schedule delay .hello
  | tc delay _ _ hd =>
    exact (Mirrored.does (r := { r with tcTimer := none }) h hd).schedule delay .tc
  | mid delay _ _ hd =>
    exact (Mirrored.does (r := { r with midTimer := none }) h hd).schedule delay .mid
  | flush _ hd => exact Mirrored.does (r := { r with flushTimer := none, outbound := [] }) h hd
  | expiry key generation _ hd =>
    exact Mirrored.does (r := { r with toStore := (r.toStore.expire key generation now).2 })
      ((Journal.Mirrors.isTimeless _).expire h key generation now) hd

theorem Mirrored.of_reachable {r : Router F} {t : Time} (h : Reachable r t) : r.Mirrored := by
  induction h with
  | create => rfl
  | apply op _ _ ih => exact ih.step (apply_step _ _ op)

/-- Only a running router gains routes. -/
theorem Step.routes {r r' : Router F} {now : Time} {op : Operation F} (hs : Step now r op r')
    (h : r.running = false → r.routes = ∅) (hr' : r'.running = false) : r'.routes = ∅ := by
  cases hs with
  | idle => exact h hr'
  | start _ _ _ hd => exact absurd (hr'.symm.trans hd.sameNode.running) Bool.false_ne_true
  | stop => rfl
  | refresh _ hd =>
    exact (hd.routes_eq (by decide)).trans (h (hd.sameNode.running.symm.trans hr'))
  | packet _ _ _ hr hd | linkFailed _ hr hd | hello _ _ hr hd | tc _ _ hr hd | mid _ _ hr hd
  | flush hr hd | expiry _ _ hr hd =>
    exact absurd (hr'.symm.trans (hd.sameNode.running.trans hr)) Bool.false_ne_true

theorem Reachable.routes_of_not_running {r : Router F} {t : Time} (h : Reachable r t)
    (hr : r.running = false) : r.routes = ∅ := by
  induction h with
  | create => rfl
  | apply op _ _ ih => exact (apply_step _ _ op).routes ih hr

/-- Over any run the calls of the router fit the host's forwarding table one after the other, and
make it the table of the router's routes. After a stop it is empty. -/
theorem replay_calls {r : Router F} {t : Time} (h : Reachable r t) :
    replay r.journal.calls.toList = some (ofRoutes r.routes) ∧
      replay r.stop.journal.calls.toList = some ∅ := by
  have hs : Reachable r.stop t := h.apply .stop (Nat.le_refl t)
  have hm : replay r.stop.journal.calls.toList = some (ofRoutes r.stop.routes) :=
    Mirrored.of_reachable hs
  refine ⟨Mirrored.of_reachable h, ?_⟩
  rw [hm, hs.routes_of_not_running r.stop_running]
  rfl

theorem replay_calls_sample :
    sample.Reachable 0 ∧ sample.routes.size = 2 ∧
      replay sample.journal.calls.toList = some (ofRoutes sample.routes) ∧
      replay sample.stop.journal.calls.toList = some ∅ :=
  ⟨sample_reachable, by decide +kernel, replay_calls sample_reachable⟩

end Router

end Manet
