import Manet.Proofs.Derived
import Manet.Proofs.RouteDependence

/-!
# Checks of neighbours

A link that stopped being symmetric, or that the link layer calls lost, makes a router check the
neighbour at its end. Such a check tells a loss and computes the relays and the routes anew, or it
does neither (`checkNeighbour_cases`); where the neighbour is stored as the links make it, it
changes nothing (`checkNeighbour_eq_self`). `expire_pending_cases` says so of timers and
`linkFailed_cases` of reports. A report may mark several links. Once one of them has told the loss
(`HasLost`), the others matter neither to the neighbour nor to the routes, since no link is taken
for lost beyond the end that a report sets (`LossesEnd`).
-/

namespace Manet.Router

variable {F : Family} {now : Time} {r r' : Router F}

/-! ## Neighbours and their links -/

theorem mainAddress_congr (ha : r'.tables.associations = r.tables.associations) (a : Address F) :
    r'.mainAddress a = r.mainAddress a := by
  unfold mainAddress Tables.mainAddress
  rw [ha]

theorem isReached_congr (hl : r'.tables.links = r.tables.links)
    (ha : r'.tables.associations = r.tables.associations) (hp : r'.params = r.params)
    (main : Address F) (now : Time) : r'.isReached main now = r.isReached main now := by
  unfold isReached linkCounts mainAddress Tables.mainAddress
  rw [hl, ha, hp]

theorem get?_storeNeighbour (T : Tables F) (link : LinkTuple F) (w : Option Willingness)
    (symmetric : Bool) :
    ((storeNeighbour T link w symmetric).neighbours.get? (T.mainAddress link.neighbour)).map
      (·.symmetric) = some symmetric := by
  unfold storeNeighbour
  dsimp only
  split
  · rename_i n hn
    have hk : n.main = T.mainAddress link.neighbour := (Table.get?_eq_some_iff.mp hn).2
    rw [Table.get?_insert]
    exact congrArg _ (if_pos hk)
  · rw [Table.get?_insert]
    exact congrArg _ (if_pos rfl)

/-- The neighbour that was stored, as the router finds it. -/
theorem exists_get?_storeNeighbour (r : Router F) (link : LinkTuple F) (w : Option Willingness)
    (symmetric : Bool) : ∃ n, (storeNeighbour r.tables link w symmetric).neighbours.get?
      (r.mainAddress link.neighbour) = some n ∧ n.symmetric = symmetric :=
  Option.map_eq_some_iff.mp (get?_storeNeighbour r.tables link w symmetric)

theorem contains_storeNeighbour (r : Router F) (link : LinkTuple F) (w : Option Willingness)
    (symmetric : Bool) : (storeNeighbour r.tables link w symmetric).neighbours.contains
      (r.mainAddress link.neighbour) = true := by
  obtain ⟨n, hn, -⟩ := r.exists_get?_storeNeighbour link w symmetric
  rw [Table.contains_eq_isSome, hn, Option.isSome_some]

theorem loseNeighbour_links (r : Router F) (main : Address F) (now : Time) :
    (r.loseNeighbour main now).tables.links = r.tables.links ∧
      (r.loseNeighbour main now).tables.neighbours = r.tables.neighbours ∧
      (r.loseNeighbour main now).tables.associations = r.tables.associations := by
  obtain ⟨r', hd, he⟩ := (r.note (.neighbourLost main)).forgetNeighbour_eq main now
  rw [loseNeighbour, he]
  exact hd.links_eq (by decide)

/-! ## Checks of a neighbour -/

theorem checkNeighbour_eq (r : Router F) (link : LinkTuple F) (w : Option Willingness)
    (now : Time) :
    r.checkNeighbour link w now =
      if (r.updateNeighbour link w now).1 then
        (r.updateNeighbour link w now).2.loseNeighbour
          ((r.updateNeighbour link w now).2.mainAddress link.neighbour) now
      else (r.updateNeighbour link w now).2 := rfl

/-- A check tells a loss and leaves nothing out of date, or it computes nothing anew. -/
theorem checkNeighbour_cases (r : Router F) (link : LinkTuple F) (w : Option Willingness)
    (now : Time) :
    ((r.updateNeighbour link w now).1 = true ∧ (r.checkNeighbour link w now).UpToDate now ∧
      ∃ main, (r.checkNeighbour link w now).journal.losses = r.journal.losses ++ [main]) ∨
    ((r.updateNeighbour link w now).1 = false ∧
      Undisturbed r (r.checkNeighbour link w now)) := by
  have hd : Does [.journal, .neighbours, .dropped .twoHop] now r (r.updateNeighbour link w now).2 :=
    updateNeighbour_does r link w
  rw [checkNeighbour_eq]
  cases hlost : (r.updateNeighbour link w now).1 with
  | true =>
    rw [if_pos rfl]
    refine .inl ⟨rfl, loseNeighbour_upToDate ..,
      (r.updateNeighbour link w now).2.mainAddress link.neighbour, ?_⟩
    rw [loseNeighbour_losses, hd.losses_eq (by decide)]
  | false =>
    rw [if_neg Bool.false_ne_true]
    exact .inr ⟨rfl, .of_does hd (by decide) (by decide) (by decide)⟩

/-- A loss is told of a neighbour that no link makes symmetric. -/
theorem updateNeighbour_of_lost {link : LinkTuple F} {w : Option Willingness}
    (h : (r.updateNeighbour link w now).1 = true) :
    r.isReached (r.mainAddress link.neighbour) now = false ∧
      r.updateNeighbour link w now =
        (true, r.onTables fun T => storeNeighbour T link w false) := by
  unfold updateNeighbour at h ⊢
  dsimp only at h ⊢
  cases hr : r.isReached (r.mainAddress link.neighbour) now with
  | true =>
    rw [hr] at h
    cases hb : r.hasSymmetricNeighbour (r.mainAddress link.neighbour) <;> rw [hb] at h <;> cases h
  | false =>
    rw [hr] at h
    cases hb : r.hasSymmetricNeighbour (r.mainAddress link.neighbour) with
    | true => exact ⟨rfl, rfl⟩
    | false =>
      rw [hb] at h
      cases h

theorem updateNeighbour_loses {link : LinkTuple F} {w : Option Willingness}
    (hb : r.hasSymmetricNeighbour (r.mainAddress link.neighbour) = true)
    (hr : r.isReached (r.mainAddress link.neighbour) now = false) :
    (r.updateNeighbour link w now).1 = true := by
  unfold updateNeighbour
  dsimp only
  rw [hb, hr]
  rfl

/-- `main` is stored as the neighbour that the links make it. -/
def IsSettled (r : Router F) (main : Address F) (now : Time) : Prop :=
  (r.tables.neighbours.get? main).map (·.symmetric) = some (r.isReached main now)

instance (r : Router F) (main : Address F) (now : Time) : Decidable (r.IsSettled main now) :=
  inferInstanceAs (Decidable (_ = _))

theorem IsSettled.congr {main : Address F} (h : r.IsSettled main now)
    (hn : r'.tables.neighbours = r.tables.neighbours)
    (hr : r'.isReached main now = r.isReached main now) : r'.IsSettled main now := by
  rw [IsSettled, hn, hr]
  exact h

theorem storeNeighbour_eq_self {T : Tables F} {link : LinkTuple F} {w : Option Willingness}
    {n : NeighbourTuple F} (h : T.neighbours.get? (T.mainAddress link.neighbour) = some n)
    (hw : w.getD n.willingness = n.willingness) : storeNeighbour T link w n.symmetric = T := by
  have hk : Keyed.key n = T.mainAddress link.neighbour := (Table.get?_eq_some_iff.mp h).2
  unfold storeNeighbour
  dsimp only
  rw [h]
  dsimp only
  rw [hw, Table.insert_eq_self (s := T.neighbours) (t := n) (hk ▸ h)]

/-- A check changes nothing where a neighbour is as its links make it, and as willing as it is said
to be. -/
theorem checkNeighbour_eq_self_of_willing {link : LinkTuple F} {w : Option Willingness}
    {n : NeighbourTuple F} (hn : r.tables.neighbours.get? (r.mainAddress link.neighbour) = some n)
    (hs : n.symmetric = r.isReached (r.mainAddress link.neighbour) now)
    (hw : w.getD n.willingness = n.willingness) : r.checkNeighbour link w now = r := by
  have hb : r.hasSymmetricNeighbour (r.mainAddress link.neighbour) = n.symmetric := by
    rw [hasSymmetricNeighbour, hn]
    rfl
  have hu : r.updateNeighbour link w now = (false, r) := by
    unfold updateNeighbour
    dsimp only
    rw [hb, ← hs, onTables, storeNeighbour_eq_self hn hw]
    cases n.symmetric <;> rfl
  unfold checkNeighbour
  rw [hu]
  rfl

/-- A check changes nothing where a neighbour is settled. -/
theorem checkNeighbour_eq_self {link : LinkTuple F}
    (h : r.IsSettled (r.mainAddress link.neighbour) now) :
    r.checkNeighbour link none now = r := by
  obtain ⟨n, hn, hs⟩ := Option.map_eq_some_iff.mp h
  exact checkNeighbour_eq_self_of_willing hn hs rfl

/-! ## Timers of tuples -/

theorem RelaysCurrent.congr (h : r.RelaysCurrent) (ha : r'.address = r.address)
    (hn : r'.tables.neighbours = r.tables.neighbours) (ht : r'.tables.twoHops = r.tables.twoHops)
    (hm : r'.tables.mprs = r.tables.mprs) : r'.RelaysCurrent := by
  rw [RelaysCurrent, ha, hn, ht, hm]
  exact h

theorem RelaysCurrent.keepsUp (h : r'.RelaysCurrent)
    (hk : r'.tables.knowledge = r.tables.knowledge) : KeepsUp now r r' :=
  ⟨h, fun hne => absurd hk hne⟩

/-- The removal of a tuple is answered by computing anew what depends on it. -/
theorem expire_keepsUp (h : r.RelaysCurrent) {key : TupleKey F} {generation : Nat}
    (he : (r.toStore.expire key generation now).1 ≠ .pending) :
    KeepsUp now r (r.expire key generation now) := by
  have ht := r.toStore.tables_expire key generation now
  unfold expire
  rcases hx : r.toStore.expire key generation now with ⟨expiry, s⟩
  rw [hx] at he ht
  cases expiry with
  | stale =>
    have hs : s.tables = r.tables := ht
    exact RelaysCurrent.keepsUp (h.congr rfl (by rw [hs]) (by rw [hs]) (by rw [hs])) (by rw [hs])
  | pending => exact absurd rfl he
  | expired t =>
    obtain ⟨hk, hs⟩ := ht
    have hs : s.tables = r.tables.drop key := hs
    obtain rfl : t.key = key := Tables.key_of_get? hk
    have hr (hn : (r.tables.drop t.key).neighbours = r.tables.neighbours)
        (ht : (r.tables.drop t.key).twoHops = r.tables.twoHops)
        (hm : (r.tables.drop t.key).mprs = r.tables.mprs) :
        RelaysCurrent { r with toStore := s } :=
      h.congr rfl ((congrArg _ hs).trans hn) ((congrArg _ hs).trans ht) ((congrArg _ hs).trans hm)
    cases t with
    | link t => exact (linkRemoved_upToDate _ t now).keepsUp
    | twoHop t => exact ((updateRelays_relaysCurrent _).updateRoutes now).keepsUp
    | topology t | association t => exact ((hr rfl rfl rfl).updateRoutes now).keepsUp
    | selector t | duplicate t =>
      exact RelaysCurrent.keepsUp (hr rfl rfl rfl) ((congrArg Tables.knowledge hs).trans rfl)

/-- A tuple that is still valid changes at most its neighbour: a loss is told and leaves nothing
out of date, and otherwise nothing is computed anew. -/
theorem expire_pending_cases {key : TupleKey F} {generation : Nat}
    (he : (r.toStore.expire key generation now).1 = .pending) :
    ((r.expire key generation now).UpToDate now ∧
      (r.expire key generation now).journal.losses ≠ r.journal.losses) ∨
    Undisturbed r (r.expire key generation now) := by
  have ht := r.toStore.tables_expire key generation now
  have hj := (Journal.isTimeless_losses r.journal.losses).expire (s := r.toStore) rfl key generation now
  unfold expire
  rcases hx : r.toStore.expire key generation now with ⟨expiry, s⟩
  rw [hx] at he ht hj
  obtain rfl : expiry = .pending := he
  have hs : s.tables = r.tables := ht
  have hj : s.journal.losses = r.journal.losses := hj
  have hu : Undisturbed r { r with toStore := s } := ⟨congrArg _ hs, rfl, hj⟩
  dsimp only
  split
  · split
    · exact .inr hu
    · rename_i link _ _
      rcases checkNeighbour_cases { r with toStore := s } link none now with
        ⟨-, hc, main, hl⟩ | ⟨-, hc⟩
      · refine .inl ⟨hc, fun hne => ?_⟩
        have hself : s.journal.losses ++ [main] = s.journal.losses :=
          hl.symm.trans (hne.trans hj.symm)
        exact List.cons_ne_nil main [] (List.append_right_eq_self.mp hself)
      · exact .inr (hu.trans hc)
  · exact .inr hu

/-- What a valid tuple lets go unnoticed is a link that stopped being symmetric, with a neighbour
that is not settled. -/
theorem expire_pending_tables {key : TupleKey F} {generation : Nat}
    (he : (r.toStore.expire key generation now).1 = .pending)
    (hs : ∀ link, r.tables.get? key = some (.link link) → link.isSymmetric now = false →
      r.IsSettled (r.mainAddress link.neighbour) now) :
    (r.expire key generation now).tables = r.tables := by
  have ht := r.toStore.tables_expire key generation now
  unfold expire
  rcases hx : r.toStore.expire key generation now with ⟨expiry, tables, book, journal⟩
  rw [hx] at he ht
  obtain rfl : expiry = .pending := he
  obtain rfl : tables = r.tables := ht
  dsimp only
  split
  · rename_i link hl
    split
    · rfl
    · rename_i hsym
      have hset := hs link hl (Bool.eq_false_iff.mpr hsym)
      exact congrArg (·.tables)
        (checkNeighbour_eq_self (r := { r with toStore := ⟨r.tables, book, journal⟩ }) hset)
  · rfl

/-! ## How long links are taken for lost -/

/-- No link is taken for lost for longer than a report at `now` would have it. -/
def LossesEnd (r : Router F) (now : Time) : Prop :=
  ∀ t ∈ r.tables.links, ∀ e, t.lostTime = some e → e ≤ now + r.params.neighbourHoldTime

theorem LossesEnd.mono {t : Time} (h : r.LossesEnd t) (ht : t ≤ now) : r.LossesEnd now :=
  fun l hl e he => Nat.le_trans (h l hl e he) (Nat.add_le_add_right ht _)

theorem LossesEnd.insert {T : Tables F} {l : LinkTuple F} (h : r.LossesEnd now)
    (hT : T.links = r.tables.links.insert l)
    (hl : ∀ e, l.lostTime = some e → e ≤ now + r.params.neighbourHoldTime) :
    LossesEnd (r.onTables fun _ => T) now := by
  intro t ht
  rcases Table.mem_insert.mp (hT ▸ ht) with rfl | ⟨ht, -⟩
  · exact hl
  · exact h t ht

theorem LossesEnd.perform {d : Deed F} (hd : d.Fits now r) (h : r.LossesEnd now) :
    (r.perform now d).LossesEnd now := by
  rw [LossesEnd, r.perform_tables, (r.perform_sameNode now d).params]
  cases d with
  | insert t =>
    cases t with
    | link t =>
      refine h.insert (T := r.tables.put (.link t)) rfl fun e he => ?_
      exact absurd (he.symm.trans (hd.2.1 t rfl)) nofun
    | _ => exact h
  | refresh t =>
    cases t with
    | link t =>
      obtain ⟨old, ho, hr⟩ := hd
      obtain ⟨l, hl, rfl⟩ := Option.map_eq_some_iff.mp ho
      refine h.insert (T := r.tables.write (.link t)) rfl fun e he => ?_
      rcases hr with hr | hr
      · exact absurd (he.symm.trans hr) nofun
      · exact h l (Table.get?_eq_some_iff.mp hl).1 e (hr.symm.trans he)
    | _ => exact h
  | erase k =>
    unfold Deed.onTables
    dsimp only
    split
    · cases k with
      | link a b => exact fun t ht => h t (Table.mem_erase.mp ht).1
      | _ => exact h
    · exact h
  | mark t =>
    obtain ⟨old, -, rfl⟩ := hd
    exact h.insert (T := r.tables.write (.link _)) rfl fun e he =>
      Nat.le_of_eq (Option.some.inj he).symm
  | _ => exact h

theorem LossesEnd.of_does {ps : List Part} (hd : Does ps now r r') (h : r.LossesEnd now) :
    r'.LossesEnd now :=
  hd.keep (fun _ _ _ hf => LossesEnd.perform hf) h

theorem LossesEnd.step {op : Operation F} (h : r.LossesEnd now) (hs : Step now r op r') :
    r'.LossesEnd now := by
  cases hs with
  | idle => exact h
  | stop => exact nofun
  | packet _ _ _ _ hd | linkFailed _ _ hd => exact .of_does hd h
  | start _ _ _ hd | refresh _ hd | hello _ _ _ hd | tc _ _ _ hd | mid _ _ _ hd | flush _ hd =>
    have h' := LossesEnd.of_does hd h
    exact h'
  | expiry key generation _ hd =>
    refine .of_does hd fun t ht => h t ?_
    have hx := r.toStore.tables_expire key generation now
    have ht : t ∈ (r.toStore.expire key generation now).2.tables.links := ht
    split at hx
    · rw [hx.2] at ht
      cases key with
      | link a b => exact (Table.mem_erase.mp ht).1
      | _ => exact ht
    · rwa [hx] at ht
    · rwa [hx] at ht

theorem Reachable.lossesEnd {t : Time} (h : r.Reachable t) : r.LossesEnd t := by
  induction h with
  | create => exact nofun
  | apply op _ ht ih => exact (ih.mono ht).step (apply_step _ _ op)

/-! ## Reports of the link layer -/

/-- The loss of the neighbour with the interface `a` was told, and nothing lags behind it. -/
structure HasLost (now : Time) (a : Address F) (r : Router F) : Prop extends r.UpToDate now where
  feedback : r.params.useLinkLayerFeedback = true
  lossesEnd : r.LossesEnd now
  settled : r.IsSettled (r.mainAddress a) now
  unreached : r.isReached (r.mainAddress a) now = false

theorem HasLost.hasSymmetricNeighbour_eq_false {a : Address F} (h : HasLost now a r) :
    r.hasSymmetricNeighbour (r.mainAddress a) = false := by
  obtain ⟨n, hn, hs⟩ := Option.map_eq_some_iff.mp h.settled
  rw [hasSymmetricNeighbour, hn, Option.any_some, hs, h.unreached]

theorem HasLost.of_check {link : LinkTuple F} (hf : r.params.useLinkLayerFeedback = true)
    (hb : r.LossesEnd now) (h : (r.updateNeighbour link none now).1 = true) :
    HasLost now link.neighbour (r.checkNeighbour link none now) := by
  obtain ⟨hreached, hu⟩ := updateNeighbour_of_lost h
  have hd : Does upkeep now r (r.checkNeighbour link none now) := checkNeighbour_does r link none
  rw [checkNeighbour_eq, hu, if_pos rfl] at hd ⊢
  let r' := r.onTables fun T => storeNeighbour T link none false
  have hT : r'.tables = { r.tables with neighbours := r'.tables.neighbours } :=
    storeNeighbour_eq ..
  obtain ⟨hl, hn, ha⟩ := r'.loseNeighbour_links (r'.mainAddress link.neighbour) now
  have ha := ha.trans (congrArg Tables.associations hT)
  have hl := hl.trans (congrArg Tables.links hT)
  have hr := isReached_congr hl ha hd.sameNode.params (r.mainAddress link.neighbour) now
  refine ⟨loseNeighbour_upToDate .., ?_, hb.of_does hd, ?_, ?_⟩
  · rw [hd.sameNode.params]
    exact hf
  · rw [IsSettled, mainAddress_congr ha, hr, hreached, hn]
    exact get?_storeNeighbour ..
  · rw [mainAddress_congr ha, hr, hreached]

/-- A link that the link layer takes for lost until `hold`. -/
def lostUntil (link : LinkTuple F) (hold : Time) : LinkTuple F :=
  { link with lostTime := some hold, time := hold }

/-- A report marks a link and checks its neighbour. -/
theorem markLost_eq {key : Address F × Address F} {link : LinkTuple F}
    (hl : r.tables.links.get? key = some link) (now : Time) :
    let new := lostUntil link (now + r.params.neighbourHoldTime)
    Deed.Fits now r (.mark new) ∧
      markLost (now + r.params.neighbourHoldTime) now r key =
        (r.perform now (.mark new)).checkNeighbour new none now := by
  obtain rfl : (link.iface, link.neighbour) = key := (Table.get?_eq_some_iff.mp hl).2
  refine ⟨⟨link, hl, rfl⟩, ?_⟩
  unfold markLost
  rw [hl]
  rfl

/-- A link that does not count because it is taken for lost is so no less when it is taken for lost
anew. -/
theorem linkCounts_lost {link : LinkTuple F} {hold : Time}
    (hh : ∀ e, link.lostTime = some e → e ≤ hold) (hc : r.linkCounts link now = false) :
    r.linkCounts (lostUntil link hold) now = false := by
  unfold linkCounts at hc ⊢
  rw [decide_eq_false_iff_not] at hc ⊢
  rintro ⟨hs, hl⟩
  refine hc ⟨hs, ?_⟩
  rw [Bool.not_eq_true', decide_eq_false_iff_not] at hl ⊢
  rintro ⟨hf, hlost⟩
  obtain ⟨e, he, hlt⟩ := Option.any_eq_true _ _ |>.mp hlost
  exact hl ⟨hf, decide_eq_true (Nat.lt_of_lt_of_le (of_decide_eq_true hlt) (hh e he))⟩

theorem mainAddress_mark (r : Router F) (now : Time) (t : LinkTuple F) (a : Address F) :
    (r.perform now (.mark t)).mainAddress a = r.mainAddress a :=
  mainAddress_congr (by rw [perform_tables]; rfl) a

/-- No further node is reached once a link is taken for lost. -/
theorem isReached_mark (hb : r.LossesEnd now) {link : LinkTuple F} (hl : link ∈ r.tables.links)
    {main : Address F} (h : r.isReached main now = false) :
    (r.perform now (.mark (lostUntil link (now + r.params.neighbourHoldTime)))).isReached main now =
      false := by
  unfold isReached at h ⊢
  rw [List.any_eq_false] at h ⊢
  intro t ht
  have ht : t ∈ r.tables.links.insert (lostUntil link (now + r.params.neighbourHoldTime)) := by
    rwa [perform_tables] at ht
  rw [mainAddress_mark]
  rcases Table.mem_insert.mp ht with rfl | ⟨ht, -⟩
  · have hn := h link hl
    rw [decide_eq_true_iff] at hn ⊢
    rintro ⟨hm, hc⟩
    refine hn ⟨hm, ?_⟩
    cases hlc : r.linkCounts link now with
    | true => rfl
    | false => exact absurd ((linkCounts_lost (hb link hl) hlc).symm.trans hc) Bool.false_ne_true
  · exact h t ht

theorem markLost_cases (hf : r.params.useLinkLayerFeedback = true) (hb : r.LossesEnd now)
    (key : Address F × Address F) :
    (HasLost now key.2 (markLost (now + r.params.neighbourHoldTime) now r key) ∧
      ∃ main, (markLost (now + r.params.neighbourHoldTime) now r key).journal.losses =
        r.journal.losses ++ [main]) ∨
    Undisturbed r (markLost (now + r.params.neighbourHoldTime) now r key) := by
  cases hl : r.tables.links.get? key with
  | none =>
    unfold markLost
    rw [hl]
    exact .inr ⟨rfl, rfl, rfl⟩
  | some link =>
    obtain ⟨hfit, he⟩ := markLost_eq hl now
    let new := lostUntil link (now + r.params.neighbourHoldTime)
    have hd : Does [.stored .link] now r (r.perform now (.mark new)) :=
      (Does.nothing r).deed (.mark new) (.stored .link) List.mem_cons_self rfl hfit
    have hu : Undisturbed r (r.perform now (.mark new)) :=
      .of_does hd (by decide) (by decide) (by decide)
    have hk : new.neighbour = key.2 := congrArg Prod.snd (Table.get?_eq_some_iff.mp hl).2
    rw [he]
    rcases checkNeighbour_cases (r.perform now (.mark new)) new none now with
      ⟨hlost, -, main, hlosses⟩ | ⟨-, hc⟩
    · refine .inl ⟨?_, main, hlosses.trans (congrArg (· ++ [main]) hu.losses)⟩
      exact hk ▸ .of_check (r := r.perform now (.mark new)) hf (hb.perform hfit) hlost
    · exact .inr (hu.trans hc)

/-- A further link that is taken for lost matters neither to the neighbour nor to the routes. -/
theorem HasLost.markLost {a : Address F} (h : HasLost now a r) {key : Address F × Address F}
    (hk : key.2 = a) :
    HasLost now a (markLost (now + r.params.neighbourHoldTime) now r key) ∧
      (markLost (now + r.params.neighbourHoldTime) now r key).journal.losses =
        r.journal.losses := by
  cases hl : r.tables.links.get? key with
  | none =>
    unfold Router.markLost
    rw [hl]
    exact ⟨h, rfl⟩
  | some link =>
    obtain ⟨hfit, he⟩ := markLost_eq hl now
    obtain ⟨hmem, hkey⟩ := Table.get?_eq_some_iff.mp hl
    obtain rfl : link.neighbour = a := (congrArg Prod.snd hkey).trans hk
    let new := lostUntil link (now + r.params.neighbourHoldTime)
    have hd : Does [.stored .link] now r (r.perform now (.mark new)) :=
      (Does.nothing r).deed (.mark new) (.stored .link) List.mem_cons_self rfl hfit
    have ht : (r.perform now (.mark new)).tables =
        { r.tables with links := r.tables.links.insert new } := r.perform_tables now (.mark new)
    have hmain := r.mainAddress_mark now new link.neighbour
    have hr : (r.perform now (.mark new)).isReached (r.mainAddress link.neighbour) now = false :=
      isReached_mark h.lossesEnd hmem h.unreached
    have hset : (r.perform now (.mark new)).IsSettled (r.mainAddress link.neighbour) now :=
      h.settled.congr (by rw [ht]) (hr.trans h.unreached.symm)
    -- the routes do not follow links to a neighbour that is not symmetric
    have hsym : RouteTable.isSymmetricNeighbour r.tables (r.tables.mainAddress new.neighbour) =
        false := h.hasSymmetricNeighbour_eq_false
    have hroutes : (r.perform now (.mark new)).RoutesCurrent now := by
      show r.routes = RouteTable.compute (r.perform now (.mark new)).tables r.localAddresses now
      rw [ht]
      exact h.routes.trans (RouteTable.compute_insert_link r.localAddresses hsym).symm
    rw [he, checkNeighbour_eq_self (hmain ▸ hset)]
    exact ⟨⟨⟨hd.relaysCurrent (by decide) h.relays, hroutes⟩, h.feedback, h.lossesEnd.perform hfit,
      hmain ▸ hset, hmain ▸ hr⟩, hd.losses_eq (by decide)⟩

theorem HasLost.foldl_markLost {a : Address F} {hold : Time} {keys : List (Address F × Address F)}
    (hk : ∀ key ∈ keys, key.2 = a) (h : HasLost now a r)
    (hh : hold = now + r.params.neighbourHoldTime) :
    HasLost now a (keys.foldl (Router.markLost hold now) r) ∧
      (keys.foldl (Router.markLost hold now) r).journal.losses = r.journal.losses := by
  induction keys generalizing r with
  | nil => exact ⟨h, rfl⟩
  | cons key keys ih =>
    subst hh
    obtain ⟨h', hl⟩ := h.markLost (hk key List.mem_cons_self)
    have hd : Does (.stored .link :: upkeep) now r
        (Router.markLost (now + r.params.neighbourHoldTime) now r key) := markLost_does r key
    have hp := hd.sameNode.params
    obtain ⟨h'', hl'⟩ := ih (fun k hm => hk k (List.mem_cons_of_mem _ hm)) h' (by rw [hp])
    exact ⟨h'', hl'.trans hl⟩

/-- Of the links to a neighbour, the one that is its last tells its loss. -/
theorem foldl_markLost_cases {a : Address F} {hold : Time} {keys : List (Address F × Address F)}
    (hk : ∀ key ∈ keys, key.2 = a) (hf : r.params.useLinkLayerFeedback = true)
    (hb : r.LossesEnd now) (hh : hold = now + r.params.neighbourHoldTime) :
    (HasLost now a (keys.foldl (Router.markLost hold now) r) ∧
      ∃ main, (keys.foldl (Router.markLost hold now) r).journal.losses =
        r.journal.losses ++ [main]) ∨
    Undisturbed r (keys.foldl (Router.markLost hold now) r) := by
  induction keys generalizing r with
  | nil => exact .inr ⟨rfl, rfl, rfl⟩
  | cons key keys ih =>
    subst hh
    have hd : Does (.stored .link :: upkeep) now r
        (Router.markLost (now + r.params.neighbourHoldTime) now r key) := markLost_does r key
    have hp := hd.sameNode.params
    have hk' : ∀ k ∈ keys, k.2 = a := fun k hm => hk k (List.mem_cons_of_mem _ hm)
    rcases markLost_cases hf hb key with ⟨h, main, hl⟩ | hu
    · obtain ⟨h', hl'⟩ := HasLost.foldl_markLost hk' (hk key List.mem_cons_self ▸ h) (by rw [hp])
      exact .inl ⟨h', main, hl'.trans hl⟩
    · rcases ih hk' (by rw [hp]; exact hf) (hb.of_does hd) (by rw [hp]) with ⟨h', main, hl⟩ | hu'
      · exact .inl ⟨h', main, hu.losses ▸ hl⟩
      · exact .inr (hu.trans hu')

/-- A settled neighbour stays settled, or its loss is told. -/
theorem markLost_of_settled (hf : r.params.useLinkLayerFeedback = true) (hb : r.LossesEnd now)
    (hr : r.RelaysCurrent) {key : Address F × Address F}
    (hs : r.IsSettled (r.mainAddress key.2) now) :
    HasLost now key.2 (markLost (now + r.params.neighbourHoldTime) now r key) ∨
    ((markLost (now + r.params.neighbourHoldTime) now r key).RelaysCurrent ∧
      (markLost (now + r.params.neighbourHoldTime) now r key).IsSettled
        ((markLost (now + r.params.neighbourHoldTime) now r key).mainAddress key.2) now) := by
  cases hl : r.tables.links.get? key with
  | none =>
    unfold markLost
    rw [hl]
    exact .inr ⟨hr, hs⟩
  | some link =>
    obtain ⟨hfit, he⟩ := markLost_eq hl now
    obtain ⟨hmem, hkey⟩ := Table.get?_eq_some_iff.mp hl
    obtain rfl : (link.iface, link.neighbour) = key := hkey
    let new := lostUntil link (now + r.params.neighbourHoldTime)
    have hd : Does [.stored .link] now r (r.perform now (.mark new)) :=
      (Does.nothing r).deed (.mark new) (.stored .link) List.mem_cons_self rfl hfit
    have hn : (r.perform now (.mark new)).tables.neighbours = r.tables.neighbours := by
      rw [perform_tables]
      rfl
    have hmain := r.mainAddress_mark now new link.neighbour
    rw [he]
    by_cases hreach : (r.perform now (.mark new)).isReached (r.mainAddress link.neighbour) now =
        r.isReached (r.mainAddress link.neighbour) now
    · have hset : (r.perform now (.mark new)).IsSettled
          ((r.perform now (.mark new)).mainAddress new.neighbour) now :=
        hmain ▸ hs.congr hn hreach
      rw [checkNeighbour_eq_self hset]
      exact .inr ⟨hd.relaysCurrent (by decide) hr, hset⟩
    · -- only a neighbour that was reached can become one that is not
      have hwas : r.isReached (r.mainAddress link.neighbour) now = true := by
        refine Bool.not_eq_false _ ▸ fun hf => hreach ?_
        rw [hf]
        exact isReached_mark hb hmem hf
      have hnot : (r.perform now (.mark new)).isReached
          ((r.perform now (.mark new)).mainAddress new.neighbour) now = false := by
        refine Bool.not_eq_true _ ▸ fun ht => hreach ?_
        rw [hwas]
        exact hmain ▸ ht
      have hbefore : (r.perform now (.mark new)).hasSymmetricNeighbour
          ((r.perform now (.mark new)).mainAddress new.neighbour) = true := by
        obtain ⟨n, hg, hsym⟩ := Option.map_eq_some_iff.mp hs
        have hg : r.tables.neighbours.get? (r.mainAddress new.neighbour) = some n := hg
        rw [hasSymmetricNeighbour, hn, mainAddress_mark, hg]
        exact hsym.trans hwas
      exact .inl (.of_check (r := r.perform now (.mark new)) hf (hb.perform hfit)
        (updateNeighbour_loses hbefore hnot))

theorem foldl_markLost_of_settled {a : Address F} {hold : Time} {keys : List (Address F × Address F)}
    (hk : ∀ key ∈ keys, key.2 = a) (hf : r.params.useLinkLayerFeedback = true)
    (hb : r.LossesEnd now) (hh : hold = now + r.params.neighbourHoldTime) (hr : r.RelaysCurrent)
    (hs : r.IsSettled (r.mainAddress a) now) :
    (keys.foldl (Router.markLost hold now) r).RelaysCurrent := by
  induction keys generalizing r with
  | nil => exact hr
  | cons key keys ih =>
    subst hh
    have hd : Does (.stored .link :: upkeep) now r
        (Router.markLost (now + r.params.neighbourHoldTime) now r key) := markLost_does r key
    have hp := hd.sameNode.params
    have hk' : ∀ k ∈ keys, k.2 = a := fun k hm => hk k (List.mem_cons_of_mem _ hm)
    obtain rfl : key.2 = a := hk key List.mem_cons_self
    rcases markLost_of_settled hf hb hr hs with h | ⟨hr', hs'⟩
    · exact (HasLost.foldl_markLost hk' h (by rw [hp])).1.relays
    · exact ih hk' (by rw [hp]; exact hf) (hb.of_does hd) (by rw [hp]) hr' hs'

theorem snd_of_mem_linkKeys {T : Tables F} {a : Address F} {key : Address F × Address F}
    (h : key ∈ (T.links.toList.filter fun t => t.neighbour = a).map Keyed.key) : key.2 = a := by
  obtain ⟨t, ht, rfl⟩ := List.mem_map.mp h
  exact of_decide_eq_true (List.mem_filter.mp ht).2

/-- A report that tells a loss leaves nothing out of date, and any other computes nothing anew. -/
theorem linkFailed_cases (hb : r.LossesEnd now) (destination : Address F) :
    ((r.linkFailed destination now).UpToDate now ∧
      (r.linkFailed destination now).journal.losses ≠ r.journal.losses) ∨
    Undisturbed r (r.linkFailed destination now) := by
  unfold linkFailed
  split
  · rename_i hf
    split
    · exact .inr ⟨rfl, rfl, rfl⟩
    · rename_i route _
      dsimp only
      rcases foldl_markLost_cases (r := r.note (.unreachable route.nextHop))
        (fun key => snd_of_mem_linkKeys) hf.2 hb rfl with ⟨h, main, hl⟩ | h
      · refine .inl ⟨h.toUpToDate, fun he => ?_⟩
        exact List.cons_ne_nil main [] (List.append_right_eq_self.mp (hl.symm.trans he))
      · exact .inr ⟨h.mprs, h.routes, h.losses⟩
  · exact .inr ⟨rfl, rfl, rfl⟩

/-- The relays lag after a report only if the neighbour was not settled before. -/
theorem linkFailed_relaysCurrent (hb : r.LossesEnd now) (hr : r.RelaysCurrent)
    {destination : Address F}
    (hs : ∀ route, r.routeTo? destination = some route →
      r.IsSettled (r.mainAddress route.nextHop) now) :
    (r.linkFailed destination now).RelaysCurrent := by
  unfold linkFailed
  split
  · rename_i hf
    split
    · exact hr
    · rename_i route hroute
      dsimp only
      exact foldl_markLost_of_settled (r := r.note (.unreachable route.nextHop))
        (fun key => snd_of_mem_linkKeys) hf.2 hb rfl hr (hs route hroute)
  · exact hr

end Manet.Router
