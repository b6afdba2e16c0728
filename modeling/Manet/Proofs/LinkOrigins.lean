import Manet.Proofs.Emissions
import Manet.Proofs.RepeatedHello

/-!
# Where links come from

A link joins an interface of the node to one that it heard. Only HELLOs make links and change their times,
and only reports of the link layer take them for lost: an operation that is no report keeps a property of
links that HELLOs keep (`apply_links`, `Senses`), and a report marks the links to the next hop that failed
(`get?_links_linkFailed`).

Only a HELLO that lists the interface makes a link to it symmetric. `Tables.LinksSatisfy P` says that `P`
holds of the ends of every link and of the time until which it is symmetric. An operation keeps it
(`apply_linksSatisfy`) if the packet that it brings is accounted for: `P` holds of the ends that it joins,
and for any time if one of its HELLOs lists the receiver.
-/

namespace Manet

variable {F : Family}

/-- `P` holds of the ends of all links, and of the time until which each is symmetric. -/
def Tables.LinksSatisfy (T : Tables F) (P : Address F → Address F → Time → Prop) : Prop :=
  ∀ l ∈ T.links, P l.iface l.neighbour l.symTime

/-- The message is a HELLO that lists the address. -/
def Message.Mentions (m : Message F) (a : Address F) : Prop :=
  match m.body with
  | .hello _ _ blocks => ∃ c, Lists blocks c a
  | .tc .. | .mid _ | .unknown .. => False

theorem Message.Mentions.isHello {m : Message F} {a : Address F} (h : m.Mentions a) :
    m.body.isHello = true := by
  unfold Mentions at h
  split at h
  · rename_i hbody
    rw [hbody]
    rfl
  all_goals cases h

namespace Tables.LinksSatisfy

variable {P Q : Address F → Address F → Time → Prop} {T T' : Tables F}

theorem mono (h : T.LinksSatisfy P) (hPQ : ∀ a b e, P a b e → Q a b e) : T.LinksSatisfy Q :=
  fun l hm => hPQ _ _ _ (h l hm)

end Tables.LinksSatisfy

namespace Router

variable {now : Time} {r r' : Router F}

/-! ## HELLO messages -/

/-- Once the link is sensed, a HELLO leaves the links alone. -/
theorem processHello_links (r : Router F) (originator : Address F) (validity : Time) (w : Willingness)
    (blocks : List (HelloBlock F)) (receiver sender : Address F) (now : Time) :
    (r.processHello originator validity w blocks receiver sender now).tables.links =
      (r.senseHello validity w blocks receiver sender now).tables.links := by
  rw [processHello_eq]
  generalize r.senseHello validity w blocks receiver sender now = r₁
  calc ((r₁.recordNeighbourhood originator validity w blocks now).recordSelector originator validity
        blocks now).tables.links
      = (r₁.recordNeighbourhood originator validity w blocks now).tables.links :=
        Does.links_of_leavesLinks (recordSelector_does ..) (by decide)
    _ = r₁.tables.links := Does.links_of_leavesLinks (recordNeighbourhood_does ..) (by decide)

/-- What HELLOs among the messages, from `sender` and received on `receiver`, make of a link satisfies
`P`, if the link is new or did so before. -/
def Senses (P : LinkTuple F → Prop) (now : Time) (receiver sender : Address F) (ms : List (Message F)) :
    Prop :=
  ∀ m ∈ ms, ∀ interval w blocks, m.body = .hello interval w blocks → ∀ hold l,
    l = freshLink receiver sender now m.validity.duration ∨ Keyed.key l = (receiver, sender) ∧ P l →
    P (senseLink now m.validity.duration hold (blocks.filter fun b => receiver ∈ b.addresses) l)

section Sensing

variable {P : LinkTuple F → Prop}

theorem forall_mem_insert {s s' : Table (LinkTuple F)} {l : LinkTuple F} (h : ∀ l ∈ s, P l) (hl : P l)
    (hs : s' = s.insert l) : ∀ l ∈ s', P l := by
  intro l' hm
  rw [hs] at hm
  rcases Table.mem_insert.mp hm with rfl | ⟨hm, -⟩
  · exact hl
  · exact h l' hm

/-- A HELLO changes the link that it came over, or adds it. -/
theorem senseHello_links {receiver sender : Address F} {validity : Time} {w : Willingness}
    {blocks : List (HelloBlock F)} (h : ∀ l ∈ r.tables.links, P l)
    (hs : ∀ l, l = freshLink receiver sender now validity ∨ Keyed.key l = (receiver, sender) ∧ P l →
      P (senseLink now validity r.params.neighbourHoldTime
        (blocks.filter fun b => receiver ∈ b.addresses) l)) :
    ∀ l ∈ (r.senseHello validity w blocks receiver sender now).tables.links, P l := by
  unfold senseHello
  dsimp only
  split
  · rw [(checkNeighbour_links ..).1]
    exact forall_mem_insert h (hs _ (.inl rfl)) (congrArg Tables.links (tables_onStore_insert ..))
  · rename_i old hget
    obtain ⟨hmem, hkey⟩ := Table.get?_eq_some_iff.mp hget
    have hnew := hs old (.inr ⟨hkey, h old hmem⟩)
    split
    · rw [(checkNeighbour_links ..).1]
      exact forall_mem_insert h hnew rfl
    · exact forall_mem_insert h hnew rfl

theorem handleMessage_links {m : Message F} {receiver sender : Address F} {ms : List (Message F)}
    (h : ∀ l ∈ r.tables.links, P l) (hs : Senses P now receiver sender ms) (hm : m ∈ ms) :
    ∀ l ∈ (handleMessage receiver sender now r m).tables.links, P l := by
  have hh := r.handleMessage_handles m receiver sender now
  generalize handleMessage receiver sender now r m = r' at hh
  cases hh with
  | ignored => exact h
  | again _ _ _ _ hf => rwa [hf.tables]
  | greeted _ _ _ hhello =>
    unfold process
    cases hbody : m.body with
    | hello interval w blocks =>
      dsimp only
      rw [processHello_links]
      exact senseHello_links h fun l hl => hs m hm interval w blocks hbody _ l hl
    | tc | mid | unknown =>
      rw [hbody] at hhello
      cases hhello
  | first hlocal _ hhello hf => rwa [hf.tables, process_links hlocal hhello]

/-! ## Operations -/

theorem links_expire_subset (r : Router F) (key : TupleKey F) (generation : Nat) (now : Time) :
    ∀ l ∈ (r.toStore.expire key generation now).2.tables.links, l ∈ r.tables.links := by
  intro l hl
  have hget : (r.toStore.expire key generation now).2.tables.links.get? (Keyed.key l) = some l :=
    Table.get?_eq_some_iff.mpr ⟨hl, rfl⟩
  have hget := Store.get?_of_get?_expire (Tables.get?_key_link hget)
  obtain ⟨l', hl', he⟩ := Option.map_eq_some_iff.mp hget
  obtain rfl := TimedTuple.link.inj he
  exact (Table.get?_eq_some_iff.mp hl').1

/-- An operation that is no report of the link layer keeps what the HELLOs of its packet keep. -/
theorem apply_links {op : Operation F} (h : ∀ l ∈ r.tables.links, P l)
    (hop : ∀ destination, op ≠ .linkFailed destination)
    (hs : ∀ id sender datagram receiver p, op = .packet id sender datagram →
      r.interfaceAddress? id = some receiver → Packet.decode datagram = .ok p →
      Senses P now receiver sender p.messages) : ∀ l ∈ (r.apply now op).tables.links, P l := by
  have hstep := r.apply_step now op
  generalize hr' : r.apply now op = r' at hstep
  cases hstep with
  | idle => exact h
  | stop => exact nofun
  | start _ _ _ hd | refresh _ hd =>
    have hlinks := hd.links_of_leavesLinks (by decide)
    exact fun l hl => h l (hlinks ▸ hl)
  | hello _ _ _ hd | tc _ _ _ hd | mid _ _ _ hd | flush _ hd =>
    have hlinks := hd.links_of_leavesLinks (by decide)
    exact fun l hl => h l (hlinks ▸ hl)
  | expiry key generation _ hd =>
    have hlinks := hd.links_of_leavesLinks (by decide)
    exact fun l hl => h l (r.links_expire_subset key generation now l (hlinks ▸ hl))
  | linkFailed destination => exact absurd rfl (hop destination)
  | packet id sender datagram =>
    rw [← hr']
    rcases r.apply_packet_cases now id sender datagram with ⟨he, -⟩ | ⟨receiver, p, -, hid, hp, he, -⟩
    · rw [he]
      exact h
    · rw [he, updateRoutes_tables]
      have hsenses := hs id sender datagram receiver p rfl hid hp
      exact List.foldlRecOn (motive := fun r' : Router F => ∀ l ∈ r'.tables.links, P l) _ _ h
        fun _ hr _ hm => handleMessage_links hr hsenses hm

end Sensing

/-! ## Reports of the link layer -/

/-- The next hop that a report takes to have failed. -/
def failedHop? (r : Router F) (destination : Address F) : Option (Address F) :=
  if r.running ∧ r.params.useLinkLayerFeedback then (r.routeTo? destination).map (·.nextHop) else none

theorem get?_links_markLost (hold : Time) (key k : Address F × Address F) :
    (markLost hold now r key).tables.links.get? k =
      (r.tables.links.get? k).map fun l => if k = key then lostUntil l hold else l := by
  unfold markLost
  cases hget : r.tables.links.get? key with
  | none =>
    dsimp only
    split
    · rename_i he
      rw [he, hget]
      rfl
    · exact Option.map_id'.symm
  | some link =>
    have hkey : Keyed.key link = key := (Table.get?_eq_some_iff.mp hget).2
    have hrearm : (r.onStore fun s => (s.overwrite (.link (lostUntil link hold))).rearm
        (.link link.iface link.neighbour) now).tables.links = r.tables.links.insert (lostUntil link hold) :=
      congrArg Tables.links (Store.tables_rearm ..)
    refine (congrArg (Table.get? · k) ((checkNeighbour_links ..).1.trans hrearm)).trans ?_
    rw [Table.get?_insert]
    by_cases he : k = key
    · subst he
      have hmarked : Keyed.key (lostUntil link hold) = k := hkey
      rw [if_pos hmarked, hget, Option.map_some, if_pos rfl]
    · have hne : Keyed.key (lostUntil link hold) ≠ k := fun h => he (h.symm.trans hkey)
      simp only [if_neg hne, if_neg he, Option.map_id_fun', id_eq]

/-- The links with the given keys are taken for lost, and nothing else happens to links. -/
theorem get?_links_foldl_markLost (hold : Time) (keys : List (Address F × Address F)) (r : Router F)
    (k : Address F × Address F) :
    (keys.foldl (markLost hold now) r).tables.links.get? k =
      (r.tables.links.get? k).map fun l => if k ∈ keys then lostUntil l hold else l := by
  induction keys generalizing r with
  | nil => exact Option.map_id'.symm
  | cons key keys ih =>
    rw [List.foldl_cons, ih, get?_links_markLost, Option.map_map]
    refine Option.map_congr fun l _ => ?_
    by_cases hkey : k = key <;> by_cases hmem : k ∈ keys <;> simp [hkey, hmem, lostUntil]

/-- A report takes the links to the next hop that failed for lost, and nothing else happens to links. -/
theorem get?_links_linkFailed (r : Router F) (destination : Address F) (now : Time)
    (k : Address F × Address F) :
    (r.linkFailed destination now).tables.links.get? k =
      (r.tables.links.get? k).map fun l =>
        if r.failedHop? destination = some l.neighbour then
          lostUntil l (now + r.params.neighbourHoldTime)
        else l := by
  unfold linkFailed failedHop?
  split
  · cases hroute : r.routeTo? destination with
    | none => simp
    | some route =>
      dsimp only
      rw [get?_links_foldl_markLost]
      refine Option.map_congr fun l hl => ?_
      obtain ⟨hmem, rfl⟩ := Table.get?_eq_some_iff.mp hl
      have hkeys : Keyed.key l ∈ ((r.note (.unreachable route.nextHop)).tables.links.toList.filter
          fun t => t.neighbour = route.nextHop).map Keyed.key ↔
          Option.map (·.nextHop) (some route) = some l.neighbour := by
        rw [Option.map_some, Option.some.injEq]
        constructor
        · exact fun h => (snd_of_mem_linkKeys h).symm
        · exact fun h => List.mem_map_of_mem (List.mem_filter.mpr ⟨hmem, decide_eq_true h.symm⟩)
      simp only [hkeys]
      rfl
  · simp

/-! ## The ends of links -/

variable {P : Address F → Address F → Time → Prop}

/-- What messages from `sender` that come in on `receiver` may make of the link satisfies `P`. -/
structure Accounts (P : Address F → Address F → Time → Prop) (now : Time) (receiver sender : Address F)
    (ms : List (Message F)) : Prop where
  heard : P receiver sender now
  listed : ∀ m ∈ ms, m.Mentions receiver → ∀ e, P receiver sender e

/-- Unless it lists the receiver, a HELLO leaves the time until which a link is symmetric. -/
theorem senseLink_satisfies (now validity hold : Time) {receiver sender : Address F} {old : LinkTuple F}
    {blocks : List (HelloBlock F)} (hkey : Keyed.key old = (receiver, sender))
    (hold' : P receiver sender old.symTime)
    (hlisted : (∃ c, Lists blocks c receiver) → ∀ e, P receiver sender e) :
    let new := senseLink now validity hold (blocks.filter fun b => receiver ∈ b.addresses) old
    P new.iface new.neighbour new.symTime := by
  intro new
  obtain ⟨hi, hn, -⟩ := senseLink_spec now validity hold
    (blocks.filter fun b => receiver ∈ b.addresses) old
  obtain ⟨hiface, hneighbour⟩ := Prod.mk.inj hkey
  rw [show new.iface = receiver from hi.trans hiface,
    show new.neighbour = sender from hn.trans hneighbour]
  cases hb : blocks.filter fun b => receiver ∈ b.addresses with
  | nil =>
    have hsame : new.symTime = old.symTime := by
      unfold new
      rw [hb]
      rfl
    rwa [hsame]
  | cons b bs =>
    have hmem : b ∈ blocks.filter fun b => receiver ∈ b.addresses := hb ▸ List.mem_cons_self
    obtain ⟨hmem, hreceiver⟩ := List.mem_filter.mp hmem
    exact hlisted ⟨b.code, b, hmem, rfl, of_decide_eq_true hreceiver⟩ _

theorem Accounts.senses {receiver sender : Address F} {ms : List (Message F)}
    (h : Accounts P now receiver sender ms) :
    Senses (fun l => P l.iface l.neighbour l.symTime) now receiver sender ms := by
  intro m hm interval w blocks hbody hold old hold'
  have hlisted : (∃ c, Lists blocks c receiver) → ∀ e, P receiver sender e := fun hl => by
    refine h.listed m hm ?_
    unfold Message.Mentions
    rw [hbody]
    exact hl
  generalize m.validity.duration = validity at hold' ⊢
  rcases hold' with rfl | ⟨hkey, hsat⟩
  · exact senseLink_satisfies now validity hold rfl h.heard hlisted
  · obtain ⟨rfl, rfl⟩ := Prod.mk.inj hkey
    exact senseLink_satisfies now validity hold rfl hsat hlisted

/-- An operation keeps what holds of all links if its packet is accounted for. -/
theorem apply_linksSatisfy {op : Operation F} (h : r.tables.LinksSatisfy P)
    (ha : ∀ id sender datagram receiver p, op = .packet id sender datagram →
      r.interfaceAddress? id = some receiver → Packet.decode datagram = .ok p →
      Accounts P now receiver sender p.messages) : (r.apply now op).tables.LinksSatisfy P := by
  cases op with
  | linkFailed destination =>
    -- a report leaves the time until which a link is symmetric
    intro l' hl'
    have hget := Table.get?_eq_some_iff.mpr ⟨hl', rfl⟩
    rw [apply, get?_links_linkFailed] at hget
    obtain ⟨l, hl, rfl⟩ := Option.map_eq_some_iff.mp hget
    have hsat := h l (Table.get?_eq_some_iff.mp hl).1
    split
    · exact hsat
    · exact hsat
  | _ =>
    exact apply_links (P := fun l => P l.iface l.neighbour l.symTime) h (by rintro _ ⟨⟩)
      fun id sender datagram receiver p he hid hp => (ha id sender datagram receiver p he hid hp).senses

end Router

end Manet
