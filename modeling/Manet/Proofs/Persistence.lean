import Manet.Proofs.Horizons
import Manet.Proofs.JsonFormats

/-!
# What is written is read back

A snapshot, a set of parameters or a configuration is read back from its text if its numbers have the
width that the format gives them (`Fits`): the types of the model do not bound times and distances. What
a router stores has that width for as long as its horizon does (`Router.Reachable.snapshot_fits`), and
whatever is read from a text, in any spelling, has it too (`Snapshot.fits_of_ofText?`). So to write
again what was read changes nothing (`written_readBack`).
-/

namespace Manet

variable {F : Family}

theorem Time.Fits.of_le {t limit : Time} (h : limit.Fits) (hle : t ≤ limit) : t.Fits :=
  Nat.le_trans (Nat.div_le_div_right hle) h

/-! ## Texts -/

namespace Snapshot

theorem ofText?_toText {s : Snapshot F} (h : s.Fits) : ofText? s.toText = some s := isFormat.read_pretty h

/-- Whatever is read from a text fits. -/
theorem fits_of_ofText? {text : String} {s : Snapshot F} (h : ofText? text = some s) : s.Fits := by
  obtain ⟨j, -, hj⟩ := Option.bind_eq_some_iff.mp h
  exact isFormat.fits_of_read hj

end Snapshot

theorem Params.ofText?_toText {p : Params} (h : p.Fits) : ofText? p.toText = some p :=
  isFormat.read_compact h

theorem Config.ofText?_toText {c : Config} (h : c.Fits) : ofText? c.toText = some c :=
  isFormat.read_compact h

/-! ## Snapshots of routers -/

/-- What a router knows fits if its horizon does and it has no more routes than a route can have hops. -/
theorem Router.Reachable.snapshot_fits {r : Router F} {now : Time} (h : r.Reachable now)
    (hhorizon : Time.Fits (now + r.params.horizon)) (hroutes : r.routes.size ≤ Json.greatest 32) :
    r.snapshot.Fits := by
  have hends {k : TupleKey F} {t : TimedTuple F} (ht : r.tables.get? k = some t) :
      t.EndsBy (now + r.params.horizon) := h.endBy k t ht
  constructor
  case links =>
    intro t ht
    obtain ⟨hsym, hasym, htime, hlost⟩ := hends (Tables.get?_key_link (Table.get?_eq_some_iff.mpr ⟨ht, rfl⟩))
    exact ⟨hhorizon.of_le hsym, hhorizon.of_le hasym, hhorizon.of_le htime,
      fun e he => hhorizon.of_le (hlost e he)⟩
  case twoHops =>
    intro t ht
    have hend := hends (Tables.get?_key_twoHop (Table.get?_eq_some_iff.mpr ⟨ht, rfl⟩))
    exact hhorizon.of_le (hend _ rfl)
  case selectors =>
    intro t ht
    have hend := hends (Tables.get?_key_selector (Table.get?_eq_some_iff.mpr ⟨ht, rfl⟩))
    exact hhorizon.of_le (hend _ rfl)
  case topology =>
    intro t ht
    have hend := hends (Tables.get?_key_topology (Table.get?_eq_some_iff.mpr ⟨ht, rfl⟩))
    exact hhorizon.of_le (hend _ rfl)
  case associations =>
    intro t ht
    have hend := hends (Tables.get?_key_association (Table.get?_eq_some_iff.mpr ⟨ht, rfl⟩))
    exact fun e he => hhorizon.of_le (hend e he)
  case duplicates =>
    intro t ht
    have hend := hends (Tables.get?_key_duplicate (Table.get?_eq_some_iff.mpr ⟨ht, rfl⟩))
    exact hhorizon.of_le (hend _ rfl)
  case routes =>
    intro filed hfiled
    obtain ⟨route, hroute, rfl⟩ := List.mem_map.mp (Table.mem_of_mem_ofList hfiled)
    exact Nat.le_trans (h.boundedRoutes route hroute) hroutes

/-- Snapshots, parameters and configurations are read back from their texts; among the snapshots are those
of routers, and those that were read from any other text. -/
theorem written_readBack :
    (∀ (F : Family) (s : Snapshot F), s.Fits → Snapshot.ofText? s.toText = some s) ∧
    (∀ (F : Family) (r : Router F) (now : Time), r.Reachable now → Time.Fits (now + r.params.horizon) →
      r.routes.size ≤ Json.greatest 32 → Snapshot.ofText? r.snapshot.toText = some r.snapshot) ∧
    (∀ (F : Family) (text : String) (s : Snapshot F), Snapshot.ofText? text = some s →
      Snapshot.ofText? s.toText = some s) ∧
    (∀ p : Params, p.Fits → Params.ofText? p.toText = some p) ∧
    ∀ c : Config, c.Fits → Config.ofText? c.toText = some c := by
  refine ⟨fun F s hs => s.ofText?_toText hs, fun F r now hr hhorizon hroutes => ?_,
    fun F text s hs => ?_, fun p hp => p.ofText?_toText hp, fun c hc => c.ofText?_toText hc⟩
  · exact r.snapshot.ofText?_toText (hr.snapshot_fits hhorizon hroutes)
  · exact s.ofText?_toText (Snapshot.fits_of_ofText? hs)

/-- A snapshot in another spelling: structures as lists, members out of order, addresses with a mixed end
or a needless zero, a relay named twice. -/
def spelledText : String :=
  "[\"::FFFF:10.0.0.1\",[],[],[],[\x7b\"time\":[5,7],\"main_address\":\"0::2\"\x7d],[],[],[],[\"::2\", \"::02\"],7,[]]"

/-- The snapshot that the text spells. -/
def spelledSnapshot : Snapshot .ipv6 where
  address := .ofNat 0xffff0a000001
  links := []
  neighbours := []
  twoHops := []
  selectors := [⟨.ofNat 2, 5000000007⟩]
  topology := []
  associations := []
  duplicates := []
  mprs := .ofList [.ofNat 2]
  ansn := 7
  routes := ∅

/-- A configuration whose interface has a quote, a backslash and a line break in its name. -/
def quotedConfig : Config where
  main := some (.ofNat 0x0a000001)
  port := 698
  interfaces := [⟨"wlan \"0\"\\\n", .ofNat 0x0a000001, 24⟩]
  params := { helloInterval := 2500000000 }

/-- A snapshot with a link that was lost and has the greatest time. -/
def farSnapshot : Snapshot .ipv4 :=
  { Router.sample.snapshot with
    links := [⟨.ofNat 0x0a000001, .ofNat 0x0a000002, 0, 0, 18446744073709551615999999999, some 0⟩] }

theorem written_readBack_samples :
    farSnapshot.Fits ∧ Snapshot.ofText? farSnapshot.toText = some farSnapshot ∧
      Router.sample.Reachable 0 ∧ Time.Fits (0 + Router.sample.params.horizon) ∧
      Router.sample.routes.size ≤ Json.greatest 32 ∧
      Snapshot.ofText? Router.sample.snapshot.toText = some Router.sample.snapshot ∧
      Snapshot.ofText? spelledText = some spelledSnapshot ∧
      Snapshot.ofText? spelledSnapshot.toText = some spelledSnapshot ∧
      quotedConfig.params.Fits ∧ Params.ofText? quotedConfig.params.toText = some quotedConfig.params ∧
      quotedConfig.Fits ∧ Config.ofText? quotedConfig.toText = some quotedConfig := by
  have hhorizon : Time.Fits (0 + Router.sample.params.horizon) := by decide +kernel
  have hroutes : Router.sample.routes.size ≤ Json.greatest 32 := by decide +kernel
  have hsample : Router.sample.snapshot.Fits := Router.sample_reachable.snapshot_fits hhorizon hroutes
  have hlink : ∀ t ∈ farSnapshot.links, t.Fits := List.forall_mem_singleton.mpr
    ⟨by decide, by decide, by decide +kernel, fun e he => Option.some.inj he ▸ Nat.zero_le _⟩
  have hfar : farSnapshot.Fits := { hsample with links := hlink }
  have hspelled : Snapshot.ofText? spelledText = some spelledSnapshot := by decide +kernel
  have hparams : quotedConfig.params.Fits := by
    constructor <;> decide
  obtain ⟨hfits, hrouter, htext, hp, hc⟩ := written_readBack
  exact ⟨hfar, hfits _ _ hfar, Router.sample_reachable, hhorizon, hroutes,
    hrouter _ _ _ Router.sample_reachable hhorizon hroutes, hspelled, htext _ _ _ hspelled,
    hparams, hp _ hparams, hparams, hc _ hparams⟩

end Manet
