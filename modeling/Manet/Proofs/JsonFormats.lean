import Mathlib.Data.List.Nodup
import Manet.Format.Config
import Manet.Format.Snapshot
import Manet.Proofs.JsonText
import Manet.Proofs.TableContents

/-!
# The JSON formats

`Json.IsFormat` says of a writer and a reader that values which fit are read as they are written, and
that whatever is read fits. A value fits if its numbers have the width that the reader allows: the
seconds of a duration 64 bits, the distance of a route 32 (`Time.Fits`, `Route.Fits`, and from them
`Snapshot.Fits`, `Params.Fits` and `Config.Fits`). Lists and values that may be missing have a format if
their parts have one; a structure has one because the members that are written are those that are
looked for, in order (`Json.fields?_record`).
-/

namespace Manet

namespace Json

/-- Values that fit are read as they are written, and whatever is read fits. -/
structure IsFormat {α : Type} (write : α → Json) (read : Json → Option α) (Fits : α → Prop) : Prop where
  plain (a : α) : (write a).IsPlain
  read_write {a : α} (h : Fits a) : read (write a) = some a
  fits_of_read {j : Json} {a : α} (h : read j = some a) : Fits a

variable {α : Type} {write : α → Json} {read : Json → Option α} {Fits : α → Prop}

/-! ## Plain values -/

theorem natural_isFormat (greatest : Nat) :
    IsFormat natural (natural? greatest) fun n => n ≤ greatest where
  plain := .natural
  read_write h := if_pos h
  fits_of_read {j n} h := by
    unfold natural? at h
    split at h
    · split at h
      · rename_i hle
        exact Option.some.inj h ▸ hle
      · cases h
    · cases h

theorem bool_isFormat : IsFormat bool bool? fun _ => True where
  plain := .bool
  read_write _ := rfl
  fits_of_read _ := trivial

theorem text_isFormat : IsFormat text string? fun _ => True where
  plain := .text
  read_write _ := rfl
  fits_of_read _ := trivial

/-! ## Lists and values that may be missing -/

theorem exists_read_of_mapM {items : List Json} {l : List α} (h : items.mapM read = some l) :
    ∀ a ∈ l, ∃ j, read j = some a := by
  induction items generalizing l with
  | nil =>
    cases h
    exact nofun
  | cons j items ih =>
    simp only [List.mapM_cons, Option.bind_eq_bind, Option.bind_eq_some_iff] at h
    obtain ⟨a, ha, l, hl, h⟩ := h
    obtain rfl := Option.some.inj h
    exact List.forall_mem_cons.mpr ⟨⟨j, ha⟩, ih hl⟩

namespace IsFormat

theorem list (h : IsFormat write read Fits) :
    IsFormat (fun l => .list (l.map write)) (list? read) fun l => ∀ a ∈ l, Fits a where
  plain l := .list fun j hj => by
    obtain ⟨a, -, rfl⟩ := List.mem_map.mp hj
    exact h.plain a
  read_write hl := mapM_map_eq_some fun a ha => h.read_write (hl a ha)
  fits_of_read {j l} hl a ha := by
    unfold list? at hl
    split at hl
    · obtain ⟨j, hj⟩ := exists_read_of_mapM hl a ha
      exact h.fits_of_read hj
    · cases hl

theorem option (h : IsFormat write read Fits) (hnull : ∀ a, write a ≠ null) :
    IsFormat (ofOption write) (nullable? read) fun o => ∀ a ∈ o, Fits a where
  plain o := by
    cases o with
    | none => exact .null
    | some a => exact h.plain a
  read_write {o} ho := by
    cases o with
    | none => rfl
    | some a =>
      rw [ofOption, nullable?, h.read_write (ho a rfl)]
      · rfl
      · exact hnull a
  fits_of_read {j o} ho a ha := by
    unfold nullable? at ho
    split at ho
    · cases ho
      cases ha
    · obtain ⟨b, hb, rfl⟩ := Option.map_eq_some_iff.mp ho
      exact Option.some.inj ha ▸ h.fits_of_read hb

theorem fits_of_bind (h : IsFormat write read Fits) {a : α} {o : Option Json} (ho : o.bind read = some a) :
    Fits a := by
  obtain ⟨j, -, hj⟩ := Option.bind_eq_some_iff.mp ho
  exact h.fits_of_read hj

/-- What is read with a default fits if the default does. -/
theorem fits_of_orDefault (h : IsFormat write read Fits) {default a : α} (hdefault : Fits default)
    {o : Option Json} (ho : orDefault read default o = some a) : Fits a := by
  cases o with
  | none => exact Option.some.inj ho ▸ hdefault
  | some j => exact h.fits_of_read ho

/-- Both texts of a value that fits are read back. -/
theorem read_compact (h : IsFormat write read Fits) {a : α} (ha : Fits a) :
    (parse? (write a).toCompactString).bind read = some a := by
  rw [parse?_toCompactString (h.plain a), Option.bind_some, h.read_write ha]

theorem read_pretty (h : IsFormat write read Fits) {a : α} (ha : Fits a) :
    (parse? (write a).toPrettyString).bind read = some a := by
  rw [parse?_toPrettyString (h.plain a), Option.bind_some, h.read_write ha]

end IsFormat

/-! ## Structures -/

theorem record_eq (members : List (String × Json)) :
    record members = object (members.map fun m => (some m.1, m.2)) := rfl

/-- If no two fields have one name, the members that give all of them in order are read in order. -/
theorem fields?_record {closed : Bool} {fields : List Field} {members : List (String × Json)}
    (hnames : members.map Prod.fst = fields.map Field.name) (hnodup : (fields.map Field.name).Nodup) :
    (record members).fields? closed fields = some (members.map fun m => some m.2) := by
  have hknown : ∀ m ∈ members, ∃ f ∈ fields, f.name = m.1 := fun m hm =>
    List.mem_map.mp (hnames ▸ List.mem_map_of_mem hm)
  have hfit : fit closed fields (members.map fun m => (some m.1, m.2)) = true := by
    rw [fit, Bool.and_eq_true]
    constructor
    · rw [List.all_map, List.all_eq_true]
      intro m hm
      obtain ⟨f, hf, hname⟩ := hknown m hm
      have hany : (fields.any fun f => f.name = m.1) = true :=
        List.any_eq_true.mpr ⟨f, hf, decide_eq_true hname⟩
      simp [hany]
    · rw [List.all_eq_true]
      intro f _
      have hcount := List.nodup_iff_count.mp hnodup f.name
      rw [← hnames, List.count_eq_countP, List.countP_map] at hcount
      rw [decide_eq_true_eq, ← List.countP_eq_length_filter, List.countP_map]
      refine Nat.le_trans (List.countP_mono_left fun m _ hm => ?_) hcount
      simpa using hm
  have hmember {f : Field} {m : String × Json} (hm : m ∈ members) (hname : m.1 = f.name) :
      member? (members.map fun m => (some m.1, m.2)) f = some m.2 := by
    have hfind : members.find? (fun m => m.1 = f.name) = some m := by
      cases hfind : members.find? fun m => m.1 = f.name with
      | none => exact absurd (decide_eq_true hname) (List.find?_eq_none.mp hfind m hm)
      | some m' =>
        have hname' : m'.1 = f.name := by simpa using List.find?_some hfind
        rw [List.inj_on_of_nodup_map (hnames ▸ hnodup) (List.mem_of_find?_eq_some hfind) hm
          (hname'.trans hname.symm)]
    have htests : (fun m : JsonText × Json => decide (m.1 = some f.name)) ∘
        (fun m : String × Json => (some m.1, m.2)) = fun m => decide (m.1 = f.name) :=
      funext fun m => by simp
    rw [member?, List.find?_map, htests, hfind]
    rfl
  rw [record_eq, fields?, if_pos hfit, Option.some.injEq]
  have hlength : members.length = fields.length := by simpa using congrArg List.length hnames
  refine List.ext_getElem (by simp [hlength]) fun i hi hi' => ?_
  rw [List.length_map] at hi hi'
  have hname : members[i].1 = fields[i].name := by
    simpa [hi, hi'] using congrArg (·[i]?) hnames
  rw [List.getElem_map, List.getElem_map, hmember (List.getElem_mem hi') hname]

end Json

open Json

/-! ## Values -/

namespace Time

/-- The seconds of a duration fit 64 bits. -/
def Fits (t : Time) : Prop := t / 1000000000 ≤ greatest 64

instance (t : Time) : Decidable t.Fits := Nat.decLe _ _

theorem nanos_le (t : Nat) : t % 1000000000 ≤ greatest 32 := by
  have hlt : t % 1000000000 < 1000000000 := Nat.mod_lt t (by decide)
  have hgreatest : greatest 32 = 4294967295 := rfl
  omega

theorem ofSeconds_add_nanos (t : Nat) : ofSeconds (t / 1000000000) + t % 1000000000 = t :=
  Nat.div_add_mod' t 1000000000

theorem isFormat : IsFormat toJson ofJson? Fits where
  plain t := .record (by simp [IsPlain.natural])
  read_write {t} h := by
    have hsecs : t / 1000000000 ≤ greatest 64 := h
    rw [ofJson?, toJson, fields?_record rfl (by decide)]
    simp only [List.map_cons, List.map_nil, Option.bind_eq_bind, Option.bind_some]
    rw [(natural_isFormat _).read_write hsecs, Option.bind_some,
      (natural_isFormat _).read_write (nanos_le t), Option.bind_some, ofSeconds_add_nanos, if_pos hsecs]
  fits_of_read {j t} h := by
    unfold ofJson? at h
    split at h
    · simp only [Option.bind_eq_bind, Option.bind_eq_some_iff] at h
      obtain ⟨secs, -, nanos, -, h⟩ := h
      split at h
      · rename_i hle
        exact Option.some.inj h ▸ hle
      · cases h
    · cases h

theorem toJson_ne_null (t : Time) : toJson t ≠ null := nofun

end Time

namespace Address

variable {F : Family}

theorem isFormat : IsFormat (toJson (F := F)) ofJson? fun _ => True where
  plain a := .text a.toString
  read_write {a} _ := ofString?_toString a
  fits_of_read _ := trivial

theorem toJson_ne_null (a : Address F) : a.toJson ≠ null := nofun

end Address

namespace Willingness

theorem isFormat : IsFormat toJson ofJson? fun _ => True where
  plain w := .natural w.val
  read_write {w} _ := by
    have hw : w.val ≤ 7 := Nat.le_of_lt_succ w.isLt
    simp [toJson, ofJson?, (natural_isFormat 7).read_write hw]
  fits_of_read _ := trivial

end Willingness

namespace SeqNum

theorem isFormat : IsFormat toJson ofJson? fun _ => True where
  plain s := .natural s.toNat
  read_write {s} _ := by
    have hs : s.toNat ≤ greatest 16 := Nat.le_of_lt_succ s.toNat_lt
    simp [toJson, ofJson?, (natural_isFormat _).read_write hs]
  fits_of_read _ := trivial

end SeqNum

/-! ## Tuples -/

section Tuples

variable {F : Family}

namespace LinkTuple

/-- The times of the link fit. -/
structure Fits (t : LinkTuple F) : Prop where
  symTime : Time.Fits t.symTime
  asymTime : Time.Fits t.asymTime
  time : Time.Fits t.time
  lostTime : ∀ e ∈ t.lostTime, Time.Fits e

theorem isFormat : IsFormat (toJson (F := F)) ofJson? Fits where
  plain t := .record (by
    simp [Address.isFormat.plain, Time.isFormat.plain, (Time.isFormat.option Time.toJson_ne_null).plain])
  read_write {t} h := by
    rw [ofJson?, toJson, fields?_record rfl (by decide)]
    simp [Address.isFormat.read_write, Time.isFormat.read_write, h.symTime, h.asymTime, h.time,
      (Time.isFormat.option Time.toJson_ne_null).read_write h.lostTime]
  fits_of_read {j t} h := by
    unfold ofJson? at h
    split at h
    · simp only [Option.bind_eq_bind, Option.bind_eq_some_iff, Option.some.injEq] at h
      obtain ⟨iface, -, neighbour, -, symTime, ⟨_, -, hsym⟩, asymTime, ⟨_, -, hasym⟩, time, ⟨_, -, htime⟩,
        lostTime, ⟨_, -, hlost⟩, rfl⟩ := h
      exact ⟨Time.isFormat.fits_of_read hsym, Time.isFormat.fits_of_read hasym,
        Time.isFormat.fits_of_read htime,
        (Time.isFormat.option Time.toJson_ne_null).fits_of_read hlost⟩
    · cases h

end LinkTuple

namespace NeighbourTuple

theorem statusOfJson?_text (symmetric : Bool) :
    statusOfJson? (.text (statusWord symmetric)) = some symmetric := by
  cases symmetric <;> decide

theorem isFormat : IsFormat (toJson (F := F)) ofJson? fun _ => True where
  plain t := .record (by simp [Address.isFormat.plain, Willingness.isFormat.plain, IsPlain.text])
  read_write {t} _ := by
    rw [ofJson?, toJson, fields?_record rfl (by decide)]
    simp [Address.isFormat.read_write, Willingness.isFormat.read_write, statusOfJson?_text]
  fits_of_read _ := trivial

end NeighbourTuple

namespace TwoHopTuple

/-- The time of the tuple fits. -/
def Fits (t : TwoHopTuple F) : Prop := Time.Fits t.time

theorem isFormat : IsFormat (toJson (F := F)) ofJson? Fits where
  plain t := .record (by simp [Address.isFormat.plain, Time.isFormat.plain])
  read_write {t} h := by
    rw [ofJson?, toJson, fields?_record rfl (by decide)]
    simp [Address.isFormat.read_write, Time.isFormat.read_write h]
  fits_of_read {j t} h := by
    unfold ofJson? at h
    split at h
    · simp only [Option.bind_eq_bind, Option.bind_eq_some_iff, Option.some.injEq] at h
      obtain ⟨neighbour, -, twoHop, -, time, ⟨_, -, htime⟩, rfl⟩ := h
      exact Time.isFormat.fits_of_read htime
    · cases h

end TwoHopTuple

namespace SelectorTuple

/-- The time of the tuple fits. -/
def Fits (t : SelectorTuple F) : Prop := Time.Fits t.time

theorem isFormat : IsFormat (toJson (F := F)) ofJson? Fits where
  plain t := .record (by simp [Address.isFormat.plain, Time.isFormat.plain])
  read_write {t} h := by
    rw [ofJson?, toJson, fields?_record rfl (by decide)]
    simp [Address.isFormat.read_write, Time.isFormat.read_write h]
  fits_of_read {j t} h := by
    unfold ofJson? at h
    split at h
    · simp only [Option.bind_eq_bind, Option.bind_eq_some_iff, Option.some.injEq] at h
      obtain ⟨main, -, time, ⟨_, -, htime⟩, rfl⟩ := h
      exact Time.isFormat.fits_of_read htime
    · cases h

end SelectorTuple

namespace TopologyTuple

/-- The time of the tuple fits. -/
def Fits (t : TopologyTuple F) : Prop := Time.Fits t.time

theorem isFormat : IsFormat (toJson (F := F)) ofJson? Fits where
  plain t := .record (by simp [Address.isFormat.plain, SeqNum.isFormat.plain, Time.isFormat.plain])
  read_write {t} h := by
    rw [ofJson?, toJson, fields?_record rfl (by decide)]
    simp [Address.isFormat.read_write, SeqNum.isFormat.read_write, Time.isFormat.read_write h]
  fits_of_read {j t} h := by
    unfold ofJson? at h
    split at h
    · simp only [Option.bind_eq_bind, Option.bind_eq_some_iff, Option.some.injEq] at h
      obtain ⟨dest, -, last, -, seqno, -, time, ⟨_, -, htime⟩, rfl⟩ := h
      exact Time.isFormat.fits_of_read htime
    · cases h

end TopologyTuple

namespace AssociationTuple

/-- The time of the association, if it has one, fits. -/
def Fits (t : AssociationTuple F) : Prop := ∀ e ∈ t.time, Time.Fits e

theorem isFormat : IsFormat (toJson (F := F)) ofJson? Fits where
  plain t := .record (by
    simp [Address.isFormat.plain, (Time.isFormat.option Time.toJson_ne_null).plain])
  read_write {t} h := by
    rw [ofJson?, toJson, fields?_record rfl (by decide)]
    simp [Address.isFormat.read_write, (Time.isFormat.option Time.toJson_ne_null).read_write h]
  fits_of_read {j t} h := by
    unfold ofJson? at h
    split at h
    · simp only [Option.bind_eq_bind, Option.bind_eq_some_iff, Option.some.injEq] at h
      obtain ⟨iface, -, main, -, time, ⟨_, -, htime⟩, rfl⟩ := h
      exact (Time.isFormat.option Time.toJson_ne_null).fits_of_read htime
    · cases h

end AssociationTuple

namespace DuplicateTuple

/-- The time of the tuple fits. -/
def Fits (t : DuplicateTuple F) : Prop := Time.Fits t.time

theorem isFormat : IsFormat (toJson (F := F)) ofJson? Fits where
  plain t := .record (by
    simp [Address.isFormat.plain, SeqNum.isFormat.plain, IsPlain.bool, Address.isFormat.list.plain,
      Time.isFormat.plain])
  read_write {t} h := by
    rw [ofJson?, toJson, fields?_record rfl (by decide)]
    simp [Address.isFormat.read_write, SeqNum.isFormat.read_write, bool_isFormat.read_write,
      Address.isFormat.list.read_write, Time.isFormat.read_write h]
  fits_of_read {j t} h := by
    unfold ofJson? at h
    split at h
    · simp only [Option.bind_eq_bind, Option.bind_eq_some_iff, Option.some.injEq] at h
      obtain ⟨originator, -, seqno, -, retransmitted, -, interfaces, -, time, ⟨_, -, htime⟩, rfl⟩ := h
      exact Time.isFormat.fits_of_read htime
    · cases h

end DuplicateTuple

/-! ## Routes and snapshots -/

namespace Route

/-- The distance of the route fits 32 bits. -/
def Fits (r : Route F) : Prop := r.distance ≤ greatest 32

theorem isFormat : IsFormat (toJson (F := F)) ofJson? Fits where
  plain r := .record (by simp [Address.isFormat.plain, IsPlain.natural, Address.isFormat.list.plain])
  read_write {r} h := by
    rw [ofJson?, toJson, fields?_record rfl (by decide)]
    simp [Address.isFormat.read_write, (natural_isFormat _).read_write h,
      Address.isFormat.list.read_write]
  fits_of_read {j r} h := by
    unfold ofJson? at h
    split at h
    · simp only [Option.bind_eq_bind, Option.bind_eq_some_iff, Option.some.injEq] at h
      obtain ⟨destination, -, nextHop, -, iface, -, distance, ⟨_, -, hdistance⟩, path, -, rfl⟩ := h
      exact (natural_isFormat _).fits_of_read hdistance
    · cases h

end Route

namespace FiledRoute

theorem isFormat : IsFormat (toJson (F := F)) ofJson? fun r => r.route.Fits where
  plain r := .list (by simp [Address.isFormat.plain, Route.isFormat.plain])
  read_write {r} h := by
    simp [ofJson?, toJson, Address.isFormat.read_write, Route.isFormat.read_write h]
  fits_of_read {j r} h := by
    unfold ofJson? at h
    split at h
    · simp only [Option.bind_eq_bind, Option.bind_eq_some_iff, Option.some.injEq] at h
      obtain ⟨address, -, route, hroute, rfl⟩ := h
      exact Route.isFormat.fits_of_read hroute
    · cases h

end FiledRoute

namespace Snapshot

/-- The times of the tuples and the distances of the routes fit. -/
structure Fits (s : Snapshot F) : Prop where
  links : ∀ t ∈ s.links, t.Fits
  twoHops : ∀ t ∈ s.twoHops, t.Fits
  selectors : ∀ t ∈ s.selectors, t.Fits
  topology : ∀ t ∈ s.topology, t.Fits
  associations : ∀ t ∈ s.associations, t.Fits
  duplicates : ∀ t ∈ s.duplicates, t.Fits
  routes : ∀ r ∈ s.routes, r.route.Fits

theorem isFormat : IsFormat (toJson (F := F)) ofJson? Fits where
  plain s := .record (by
    simp [Address.isFormat.plain, LinkTuple.isFormat.list.plain, NeighbourTuple.isFormat.list.plain,
      TwoHopTuple.isFormat.list.plain, SelectorTuple.isFormat.list.plain,
      TopologyTuple.isFormat.list.plain, AssociationTuple.isFormat.list.plain,
      DuplicateTuple.isFormat.list.plain, Address.isFormat.list.plain, SeqNum.isFormat.plain,
      FiledRoute.isFormat.list.plain])
  read_write {s} h := by
    rw [ofJson?, toJson, fields?_record rfl (by decide)]
    simp [Address.isFormat.read_write, LinkTuple.isFormat.list.read_write h.links,
      NeighbourTuple.isFormat.list.read_write, TwoHopTuple.isFormat.list.read_write h.twoHops,
      SelectorTuple.isFormat.list.read_write h.selectors,
      TopologyTuple.isFormat.list.read_write h.topology,
      AssociationTuple.isFormat.list.read_write h.associations,
      DuplicateTuple.isFormat.list.read_write h.duplicates, Address.isFormat.list.read_write,
      SeqNum.isFormat.read_write, FiledRoute.isFormat.list.read_write h.routes, Table.ofList_toList]
  fits_of_read {j s} h := by
    unfold ofJson? at h
    split at h
    · obtain ⟨address, -, h⟩ := Option.bind_eq_some_iff.mp h
      obtain ⟨links, hlinks, h⟩ := Option.bind_eq_some_iff.mp h
      obtain ⟨neighbours, -, h⟩ := Option.bind_eq_some_iff.mp h
      obtain ⟨twoHops, htwoHops, h⟩ := Option.bind_eq_some_iff.mp h
      obtain ⟨selectors, hselectors, h⟩ := Option.bind_eq_some_iff.mp h
      obtain ⟨topology, htopology, h⟩ := Option.bind_eq_some_iff.mp h
      obtain ⟨associations, hassociations, h⟩ := Option.bind_eq_some_iff.mp h
      obtain ⟨duplicates, hduplicates, h⟩ := Option.bind_eq_some_iff.mp h
      obtain ⟨mprs, -, h⟩ := Option.bind_eq_some_iff.mp h
      obtain ⟨ansn, -, h⟩ := Option.bind_eq_some_iff.mp h
      obtain ⟨routes, hroutes, h⟩ := Option.bind_eq_some_iff.mp h
      obtain rfl := Option.some.inj h
      exact ⟨LinkTuple.isFormat.list.fits_of_bind hlinks, TwoHopTuple.isFormat.list.fits_of_bind htwoHops,
        SelectorTuple.isFormat.list.fits_of_bind hselectors,
        TopologyTuple.isFormat.list.fits_of_bind htopology,
        AssociationTuple.isFormat.list.fits_of_bind hassociations,
        DuplicateTuple.isFormat.list.fits_of_bind hduplicates,
        fun r hr => FiledRoute.isFormat.list.fits_of_bind hroutes r (Table.mem_of_mem_ofList hr)⟩
    · cases h

end Snapshot

end Tuples

/-! ## Parameters and configurations -/

namespace Params

/-- The intervals, the hold times and the number of messages fit. -/
structure Fits (p : Params) : Prop where
  helloInterval : Time.Fits p.helloInterval
  refreshInterval : Time.Fits p.refreshInterval
  tcInterval : Time.Fits p.tcInterval
  midInterval : Time.Fits p.midInterval
  neighbourHoldTime : Time.Fits p.neighbourHoldTime
  topologyHoldTime : Time.Fits p.topologyHoldTime
  midHoldTime : Time.Fits p.midHoldTime
  dupHoldTime : Time.Fits p.dupHoldTime
  maxJitter : Time.Fits p.maxJitter
  maxMessages : p.maxMessages ≤ greatest 64

/-- The defaults fit. -/
theorem fits_default : ({} : Params).Fits := by
  constructor <;> decide

theorem isFormat : IsFormat toJson ofJson? Fits where
  plain p := .record (by
    simp [Time.isFormat.plain, IsPlain.natural, Willingness.isFormat.plain, IsPlain.bool])
  read_write {p} h := by
    rw [ofJson?, toJson, fields?_record rfl (by decide)]
    simp [orDefault, Time.isFormat.read_write, h.helloInterval, h.refreshInterval, h.tcInterval,
      h.midInterval, h.neighbourHoldTime, h.topologyHoldTime, h.midHoldTime, h.dupHoldTime,
      h.maxJitter, (natural_isFormat _).read_write h.maxMessages, Willingness.isFormat.read_write,
      bool_isFormat.read_write]
  fits_of_read {j p} h := by
    unfold ofJson? at h
    split at h
    · obtain ⟨hello, hhello, h⟩ := Option.bind_eq_some_iff.mp h
      obtain ⟨refresh, hrefresh, h⟩ := Option.bind_eq_some_iff.mp h
      obtain ⟨tc, htc, h⟩ := Option.bind_eq_some_iff.mp h
      obtain ⟨mid, hmid, h⟩ := Option.bind_eq_some_iff.mp h
      obtain ⟨neighbourHold, hneighbourHold, h⟩ := Option.bind_eq_some_iff.mp h
      obtain ⟨topologyHold, htopologyHold, h⟩ := Option.bind_eq_some_iff.mp h
      obtain ⟨midHold, hmidHold, h⟩ := Option.bind_eq_some_iff.mp h
      obtain ⟨dupHold, hdupHold, h⟩ := Option.bind_eq_some_iff.mp h
      obtain ⟨jitter, hjitter, h⟩ := Option.bind_eq_some_iff.mp h
      obtain ⟨messages, hmessages, h⟩ := Option.bind_eq_some_iff.mp h
      obtain ⟨willingness, -, h⟩ := Option.bind_eq_some_iff.mp h
      obtain ⟨feedback, -, h⟩ := Option.bind_eq_some_iff.mp h
      obtain ⟨optimized, -, h⟩ := Option.bind_eq_some_iff.mp h
      obtain rfl := Option.some.inj h
      exact ⟨Time.isFormat.fits_of_orDefault fits_default.helloInterval hhello,
        Time.isFormat.fits_of_orDefault fits_default.refreshInterval hrefresh,
        Time.isFormat.fits_of_orDefault fits_default.tcInterval htc,
        Time.isFormat.fits_of_orDefault fits_default.midInterval hmid,
        Time.isFormat.fits_of_orDefault fits_default.neighbourHoldTime hneighbourHold,
        Time.isFormat.fits_of_orDefault fits_default.topologyHoldTime htopologyHold,
        Time.isFormat.fits_of_orDefault fits_default.midHoldTime hmidHold,
        Time.isFormat.fits_of_orDefault fits_default.dupHoldTime hdupHold,
        Time.isFormat.fits_of_orDefault fits_default.maxJitter hjitter,
        (natural_isFormat _).fits_of_orDefault fits_default.maxMessages hmessages⟩
    · cases h

end Params

namespace InterfaceConfig

theorem isFormat : IsFormat toJson ofJson? fun _ => True where
  plain i := .record (by simp [IsPlain.text, Address.isFormat.plain, IsPlain.natural])
  read_write {i} _ := by
    have hlen : i.prefixLen.toNat ≤ greatest 8 := Nat.le_of_lt_succ i.prefixLen.toNat_lt
    rw [ofJson?, toJson, fields?_record rfl (by decide)]
    simp [text_isFormat.read_write, Address.isFormat.read_write, (natural_isFormat _).read_write hlen]
  fits_of_read _ := trivial

end InterfaceConfig

namespace Config

/-- The parameters fit. -/
def Fits (c : Config) : Prop := c.params.Fits

theorem isFormat : IsFormat toJson ofJson? Fits where
  plain c := .record (by
    simp [(Address.isFormat.option Address.toJson_ne_null).plain, IsPlain.natural,
      InterfaceConfig.isFormat.list.plain, Params.isFormat.plain])
  read_write {c} h := by
    have hport : c.port.toNat ≤ greatest 16 := Nat.le_of_lt_succ c.port.toNat_lt
    rw [ofJson?, toJson, fields?_record rfl (by decide)]
    simp [orDefault, (Address.isFormat.option Address.toJson_ne_null).read_write,
      (natural_isFormat _).read_write hport, InterfaceConfig.isFormat.list.read_write,
      Params.isFormat.read_write h]
  fits_of_read {j c} h := by
    unfold ofJson? at h
    split at h
    · simp only [Option.bind_eq_bind, Option.bind_eq_some_iff, Option.some.injEq] at h
      obtain ⟨main, -, port, -, interfaces, -, params, hparams, rfl⟩ := h
      exact Params.isFormat.fits_of_orDefault Params.fits_default hparams
    · cases h

end Config

end Manet
