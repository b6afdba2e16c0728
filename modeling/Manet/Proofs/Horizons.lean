import Manet.Proofs.RelaySignal
import Manet.Proofs.RouteChains

/-!
# How far ahead a router looks

A router stores no time that is further ahead of its clock than `Params.horizon`: the longest validity
that a message can have and the time for which a lost link is kept, or the time for which a seen message
is remembered (`Reachable.endBy`). Nor does any of its routes have more hops than it has routes
(`Reachable.boundedRoutes`). So a run stays within the widths of a format as long as its clock and its
tables do.
-/

namespace Manet

variable {F : Family}

/-- The longest duration that a message can name. -/
def TimeCode.longest : Time := duration ⟨0xff⟩

theorem TimeCode.duration_le_longest (c : TimeCode) : c.duration ≤ longest := by
  have hunits : ∀ n < 256, (16 + n / 16) <<< (n % 16) ≤ units ⟨0xff⟩ := by decide +kernel
  exact Nat.mul_le_mul_right unit (hunits c.octet.toNat c.octet.toNat_lt)

/-- How far ahead of the clock the times of a router lie at most. -/
def Params.horizon (p : Params) : Time :=
  max (TimeCode.longest + p.neighbourHoldTime) p.dupHoldTime

/-! ## Times in the tables -/

/-- No time of the tuple lies behind `limit`. -/
def TimedTuple.EndsBy (limit : Time) : TimedTuple F → Prop
  | link t => t.symTime ≤ limit ∧ t.asymTime ≤ limit ∧ t.time ≤ limit ∧ ∀ e ∈ t.lostTime, e ≤ limit
  | t => ∀ e ∈ t.time, e ≤ limit

/-- No time in the tables lies behind `limit`. -/
def Tables.EndBy (T : Tables F) (limit : Time) : Prop :=
  ∀ k t, T.get? k = some t → t.EndsBy limit

theorem le_of_mem_some {t limit : Time} (h : t ≤ limit) : ∀ e ∈ some t, e ≤ limit :=
  fun _ he => Option.some.inj he ▸ h

theorem TimedTuple.EndsBy.mono {limit limit' : Time} (hle : limit ≤ limit') {t : TimedTuple F}
    (h : t.EndsBy limit) : t.EndsBy limit' := by
  cases t with
  | link t =>
    obtain ⟨hsym, hasym, htime, hlost⟩ := h
    exact ⟨Nat.le_trans hsym hle, Nat.le_trans hasym hle, Nat.le_trans htime hle,
      fun e he => Nat.le_trans (hlost e he) hle⟩
  | _ => exact fun e he => Nat.le_trans (h e he) hle

namespace Tables.EndBy

variable {T T' : Tables F} {limit limit' : Time}

theorem mono (h : T.EndBy limit) (hle : limit ≤ limit') : T.EndBy limit' :=
  fun k t ht => (h k t ht).mono hle

theorem of_get? (h : T.EndBy limit) (hget : ∀ k t, T'.get? k = some t → T.get? k = some t) :
    T'.EndBy limit :=
  fun k t ht => h k t (hget k t ht)

theorem write (h : T.EndBy limit) {t : TimedTuple F} (ht : t.EndsBy limit) : (T.write t).EndBy limit := by
  intro k u hu
  rw [get?_write] at hu
  split at hu
  · exact Option.some.inj hu ▸ ht
  · exact h k u hu

theorem put (h : T.EndBy limit) {t : TimedTuple F} (ht : t.EndsBy limit) : (T.put t).EndBy limit :=
  (h.write ht).of_get? fun k u hu => by rwa [Tables.put, get?_renumber] at hu

theorem withAnsn (s : SeqNum) : (Tables.withAnsn s : Tables F).EndBy limit := by
  intro k t ht
  cases k <;> cases ht

end Tables.EndBy

/-- A deed that neither stores nor refreshes a tuple with a validity time brings no time. -/
theorem Deed.endBy {d : Deed F} (hs : d.part.isStored = false) (hf : d.part.isRefreshed = false)
    {T : Tables F} {limit : Time} (h : T.EndBy limit) : (d.onTables T).EndBy limit := by
  have hkept (hd : d.part ≠ .lasting) : (d.onTables T).EndBy limit := by
    refine h.of_get? fun k t ht => get?_of_get?_onTables ?_ ht
    cases hp : d.part with
    | lasting => exact absurd hp hd
    | stored => exact absurd (hp ▸ hs) Bool.noConfusion
    | refreshed => exact absurd (hp ▸ hf) Bool.noConfusion
    | _ => rfl
  cases d with
  | insert t =>
    have htime : t.time = none := by
      cases ht : t.time with
      | none => rfl
      | some e =>
        rw [part, ht] at hs
        cases hs
    refine h.put ?_
    cases t with
    | association t =>
      intro e he
      rw [htime] at he
      cases he
    | _ => cases htime
  | tell c =>
    refine hkept fun hp => ?_
    cases c <;> cases hp
  | _ => exact hkept fun hp => by cases hp

namespace Router

variable {limit now : Time} {r r' : Router F}

/-- No time that is stored or that may be stored now lies behind `limit`. -/
structure Within (limit now : Time) (r : Router F) : Prop where
  tables : r.tables.EndBy limit
  horizon : now + r.params.horizon ≤ limit

namespace Within

theorem of_does {ps : List Part} (hd : Does ps now r r')
    (hp : ∀ p ∈ ps, p.isStored = false ∧ p.isRefreshed = false) (h : Within limit now r) :
    Within limit now r' where
  tables := hd.keep (P := fun r => r.tables.EndBy limit)
    (fun r d hmem _ hr => r.perform_tables now d ▸ d.endBy (hp _ hmem).1 (hp _ hmem).2 hr) h.tables
  horizon := hd.sameNode.params ▸ h.horizon

theorem congr (h : Within limit now r) (ht : r'.tables = r.tables) (hp : r'.params = r.params) :
    Within limit now r' :=
  ⟨ht ▸ h.tables, hp ▸ h.horizon⟩

theorem note (h : Within limit now r) (n : Notice F) : Within limit now (r.note n) := h.congr rfl rfl

theorem insert (h : Within limit now r) {t : TimedTuple F} (ht : t.EndsBy limit) :
    Within limit now (r.onStore (·.insert t now)) :=
  ⟨r.tables_onStore_insert t now ▸ h.tables.put ht, h.horizon⟩

theorem overwrite (h : Within limit now r) {t : TimedTuple F} (ht : t.EndsBy limit) :
    Within limit now (r.onStore (·.overwrite t)) :=
  ⟨h.tables.write ht, h.horizon⟩

theorem le_limit (h : Within limit now r) {validity : Time} (hv : validity ≤ TimeCode.longest) :
    now + validity + r.params.neighbourHoldTime ≤ limit :=
  calc now + validity + r.params.neighbourHoldTime
      = now + (validity + r.params.neighbourHoldTime) := Nat.add_assoc ..
    _ ≤ now + (TimeCode.longest + r.params.neighbourHoldTime) :=
        Nat.add_le_add_left (Nat.add_le_add_right hv _) _
    _ ≤ now + r.params.horizon := Nat.add_le_add_left (Nat.le_max_left _ _) _
    _ ≤ limit := h.horizon

theorem foldl {α : Type} {f : Router F → α → Router F} {l : List α} (h : Within limit now r)
    (hf : ∀ r, Within limit now r → ∀ x ∈ l, Within limit now (f r x)) : Within limit now (l.foldl f r) :=
  List.foldlRecOn (motive := Within limit now) l f h hf

end Within

/-! ## Messages -/

theorem checkNeighbour_within (h : Within limit now r) (link : LinkTuple F) (w : Option Willingness) :
    Within limit now (r.checkNeighbour link w now) :=
  .of_does (checkNeighbour_does r link w) (by decide) h

theorem senseLink_endsBy {validity hold : Time} (hlimit : now + validity + hold ≤ limit)
    (blocks : List (HelloBlock F)) {link : LinkTuple F} (h : (TimedTuple.link link).EndsBy limit) :
    (TimedTuple.link (senseLink now validity hold blocks link)).EndsBy limit := by
  have hvalid : now + validity ≤ limit := Nat.le_trans (Nat.le_add_right _ _) hlimit
  have hnow : now ≤ limit := Nat.le_trans (Nat.le_add_right _ _) hvalid
  have hsensed : (TimedTuple.link (blocks.foldl (senseBlock now validity hold)
      { link with asymTime := now + validity })).EndsBy limit := by
    refine List.foldlRecOn (motive := fun l : LinkTuple F => (TimedTuple.link l).EndsBy limit) _ _
      ⟨h.1, hvalid, h.2.2⟩ fun l hl b _ => ?_
    unfold senseBlock
    split
    · exact ⟨hnow, hl.2⟩
    · exact ⟨hvalid, hl.2.1, hlimit, nofun⟩
    · exact ⟨hvalid, hl.2.1, hlimit, nofun⟩
    · exact hl
  exact ⟨hsensed.1, hsensed.2.1, Nat.max_le.mpr ⟨hsensed.2.2.1, hsensed.2.1⟩, hsensed.2.2.2⟩

section Messages

variable {originator receiver sender : Address F} {validity : Time}

theorem senseHello_within (h : Within limit now r) (hv : validity ≤ TimeCode.longest) (w : Willingness)
    (blocks : List (HelloBlock F)) : Within limit now (r.senseHello validity w blocks receiver sender now) := by
  have hlimit := h.le_limit hv
  unfold senseHello
  dsimp only
  split
  · refine checkNeighbour_within ((h.note _).insert (senseLink_endsBy hlimit _ ?_)) _ _
    have hvalid : now + validity ≤ limit := Nat.le_trans (Nat.le_add_right _ _) hlimit
    have hnow : now ≤ limit := Nat.le_trans (Nat.le_add_right _ _) hvalid
    exact ⟨hnow, hnow, hvalid, nofun⟩
  · rename_i link hlink
    have hsensed := h.overwrite (senseLink_endsBy hlimit (blocks.filter fun b => receiver ∈ b.addresses)
      (h.tables _ _ (Tables.get?_key_link hlink)))
    split
    · exact checkNeighbour_within hsensed _ _
    · exact hsensed

theorem recordTwoHop_within (h : Within limit now r) {validUntil : Time} (hv : validUntil ≤ limit)
    (said : NeighbourType × Address F) :
    Within limit now (recordTwoHop originator validUntil now r said) := by
  unfold recordTwoHop
  dsimp only
  split
  · exact .of_does ((Does.nothing r).deed (.erase (.twoHop _ _)) (.dropped .twoHop)
      (List.mem_singleton.mpr rfl) rfl trivial) (by decide) h
  all_goals
    split
    · exact h
    · split
      · exact h.overwrite (le_of_mem_some hv)
      · exact (h.note _).insert (le_of_mem_some hv)

theorem recordSelector_within (h : Within limit now r) (hv : now + validity ≤ limit)
    (blocks : List (HelloBlock F)) : Within limit now (r.recordSelector originator validity blocks now) := by
  unfold recordSelector
  split
  · split
    · exact h.overwrite (le_of_mem_some hv)
    · exact (h.note _).insert (le_of_mem_some hv)
  · exact h

theorem processHello_within (h : Within limit now r) (hv : validity ≤ TimeCode.longest) (w : Willingness)
    (blocks : List (HelloBlock F)) :
    Within limit now (r.processHello originator validity w blocks receiver sender now) := by
  have hvalid : now + validity ≤ limit := Nat.le_trans (Nat.le_add_right _ _) (h.le_limit hv)
  unfold processHello
  dsimp only
  refine recordSelector_within (.of_does (updateRelays_does _) (by decide) ?_) hvalid blocks
  have hw : Within limit now
      ((r.senseHello validity w blocks receiver sender now).recordWillingness originator w) :=
    .of_does (recordWillingness_does _ _ _) (by decide) (senseHello_within h hv w blocks)
  unfold recordTwoHops
  split
  · exact hw.foldl fun r hr said _ => recordTwoHop_within hr hvalid said
  · exact hw

theorem processTc_within (h : Within limit now r) (hv : now + validity ≤ limit) (ansn : SeqNum)
    (neighbours : List (Address F)) :
    Within limit now (r.processTc originator validity ansn neighbours sender now) := by
  unfold processTc
  split
  · split
    · exact h.note _
    · have herased : Does [.dropped .topology] now r
          (r.onStore (·.eraseAll (advertisedKeys r.tables originator fun t => SeqNum.newer ansn t.seqno))) :=
        eraseAll_does (fun k hk => kind_of_mem_advertisedKeys hk ▸ List.mem_singleton.mpr rfl) r
      refine (Within.of_does herased (by decide) h).foldl fun r hr dest _ => ?_
      unfold recordAdvertised
      split
      · exact hr.overwrite (le_of_mem_some hv)
      · exact hr.insert (le_of_mem_some hv)
  · exact h

theorem processMid_within (h : Within limit now r) (hv : now + validity ≤ limit)
    (interfaces : List (Address F)) :
    Within limit now (r.processMid originator validity interfaces sender now) := by
  unfold processMid
  split
  · refine h.foldl fun r hr iface _ => ?_
    unfold recordInterface
    split
    · exact hr
    · split
      · exact hr.overwrite (le_of_mem_some hv)
      · exact (hr.note _).insert (le_of_mem_some hv)
  · exact h

theorem process_within (h : Within limit now r) (m : Message F) :
    Within limit now (r.process m receiver sender now) := by
  have hv := m.validity.duration_le_longest
  have hvalid : now + m.validity.duration ≤ limit := Nat.le_trans (Nat.le_add_right _ _) (h.le_limit hv)
  unfold process
  split
  · exact processHello_within h hv _ _
  · exact processTc_within h hvalid _ _
  · exact processMid_within h hvalid _
  · exact h.note _

theorem Forwards.within {m : Message F} (h : Within limit now r)
    (hf : Forwards r m receiver sender now r') (hp : r'.params = r.params) : Within limit now r' := by
  refine ⟨?_, hp ▸ h.horizon⟩
  cases hf with
  | nothing => exact h.tables
  | recorded copies _ _ _ _ ht =>
    have hseen : (TimedTuple.duplicate (r.seenTuple m receiver (copies ≠ []) now)).EndsBy limit := by
      intro e he
      obtain rfl := Option.some.inj he
      exact Nat.le_trans (Nat.add_le_add_left (Nat.le_max_right _ _) now) h.horizon
    exact ht ▸ h.tables.write hseen

theorem handleMessage_within (h : Within limit now r) (m : Message F) :
    Within limit now (handleMessage receiver sender now r m) := by
  have hh := r.handleMessage_handles m receiver sender now
  have hp : (handleMessage receiver sender now r m).params = r.params :=
    (handleMessage_does r m receiver sender).sameNode.params
  generalize handleMessage receiver sender now r m = r' at hh hp
  cases hh with
  | ignored => exact h
  | again _ _ _ _ hf => exact hf.within h hp
  | greeted => exact process_within h m
  | first hlocal _ _ hf =>
    have hprocess : (r.process m receiver sender now).params = r.params :=
      (process_does r m (ne_address_of_isLocal hlocal) receiver sender).sameNode.params
    exact hf.within (process_within h m) (hp.trans hprocess.symm)

end Messages

/-! ## Runs -/

theorem markLost_within (h : Within limit now r) {hold : Time} (hhold : hold ≤ limit)
    (key : Address F × Address F) : Within limit now (markLost hold now r key) := by
  unfold markLost
  split
  · exact h
  · rename_i link hlink
    obtain ⟨hsym, hasym, -⟩ := h.tables _ _ (Tables.get?_key_link hlink)
    refine checkNeighbour_within (r := r.onStore _) ⟨?_, h.horizon⟩ _ _
    have htables := r.perform_tables now (.mark { link with lostTime := some hold, time := hold })
    exact htables ▸ h.tables.write ⟨hsym, hasym, hhold, le_of_mem_some hhold⟩

theorem linkFailed_within (h : Within limit now r) (destination : Address F) :
    Within limit now (r.linkFailed destination now) := by
  have hhold : now + r.params.neighbourHoldTime ≤ limit := h.le_limit (Nat.zero_le _)
  unfold linkFailed
  split
  · split
    · exact h
    · exact (h.note _).foldl fun r hr key _ => markLost_within hr hhold key
  · exact h

theorem apply_within (h : Within limit now r) (op : Operation F) : Within limit now (r.apply now op) := by
  have hs := r.apply_step now op
  generalize hr' : r.apply now op = r' at hs
  cases hs with
  | idle => exact h
  | stop => exact ⟨.withAnsn _, h.horizon⟩
  | start _ _ _ hd => exact (Within.of_does hd (by decide) (h.congr rfl rfl)).congr rfl rfl
  | refresh _ hd => exact (Within.of_does hd (by decide) h).congr rfl rfl
  | hello _ _ _ hd => exact (Within.of_does hd (by decide) (h.congr rfl rfl)).congr rfl rfl
  | tc _ _ _ hd => exact (Within.of_does hd (by decide) (h.congr rfl rfl)).congr rfl rfl
  | mid _ _ _ hd => exact (Within.of_does hd (by decide) (h.congr rfl rfl)).congr rfl rfl
  | flush _ hd => exact .of_does hd (by decide) (h.congr rfl rfl)
  | expiry key generation _ hd =>
    have hexpired : Within limit now { r with toStore := (r.toStore.expire key generation now).2 } :=
      ⟨h.tables.of_get? fun k t => Store.get?_of_get?_expire, h.horizon⟩
    exact .of_does hd (by decide) hexpired
  | linkFailed destination => exact hr' ▸ linkFailed_within h destination
  | packet id sender datagram =>
    rw [← hr']
    refine apply_packet_induction h (fun r n hr => hr.note n)
      (fun r m receiver sender hr => handleMessage_within hr m) (fun r hr => ?_) id sender datagram
    exact .of_does (.routes (.nothing r) (List.mem_singleton.mpr rfl)) (by decide) hr

/-- No time that a router stores is further ahead of its clock than its horizon. -/
theorem Reachable.endBy (h : Reachable r now) : r.tables.EndBy (now + r.params.horizon) := by
  induction h with
  | create => exact .withAnsn _
  | @apply r t now op _ hle ih =>
    rw [apply_params]
    have hw : Within (now + r.params.horizon) now r :=
      ⟨ih.mono (Nat.add_le_add_right hle _), Nat.le_refl _⟩
    exact (apply_within hw op).tables

/-! ## Routes -/

/-- No route has more hops than there are routes. -/
def BoundedRoutes (r : Router F) : Prop := ∀ route ∈ r.routes, route.distance ≤ r.routes.size

theorem BoundedRoutes.of_does {ps : List Part} (hd : Does ps now r r') (h : r.BoundedRoutes) :
    r'.BoundedRoutes := by
  refine hd.keep (fun r d _ _ hr => ?_) h
  cases d with
  | routes =>
    obtain ⟨j, hj, -⟩ := r.updateRoutes_eq now
    rw [perform, hj]
    exact RouteTable.distance_le_size _ _ _
  | enqueue m =>
    rcases r.enqueue_cases m with ⟨-, he⟩ | ⟨-, _, _, he⟩ <;> rw [perform, he] <;> exact hr
  | _ => exact hr

theorem Step.boundedRoutes {op : Operation F} (hs : Step now r op r') (h : r.BoundedRoutes) :
    r'.BoundedRoutes := by
  cases hs with
  | idle => exact h
  | stop => exact fun route hr => absurd hr (Table.not_mem_empty route)
  | start _ _ _ hd | refresh _ hd | packet _ _ _ _ hd | linkFailed _ _ hd | hello _ _ _ hd
  | tc _ _ _ hd | mid _ _ _ hd | flush _ hd | expiry _ _ _ hd =>
    have hr' := BoundedRoutes.of_does hd h
    exact hr'

/-- No route of a router has more hops than the router has routes. -/
theorem Reachable.boundedRoutes (h : Reachable r now) : r.BoundedRoutes := by
  induction h with
  | create => exact fun route hr => absurd hr (Table.not_mem_empty route)
  | apply op _ _ ih => exact (apply_step _ _ op).boundedRoutes ih

end Router

end Manet
