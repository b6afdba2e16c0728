import Manet.Proofs.FailedHops
import Manet.Proofs.LinkOrigins

/-!
# The times of links

A link is kept for as long as it is symmetric or heard. HELLOs see to that: a link that is sensed does not
end before the HELLO does (`senseLink_orderedWhen`). A report of the link layer sets the end of the links to
the next hop that failed, however long the neighbour promised to be heard; it puts those links out of order
whose times lie beyond the end of the loss (`Operation.Undercuts`), and nothing else does
(`ordersAt_iff_not_undercuts`). So only links that were called lost can be out of order.
-/

namespace Manet

variable {F : Family}

/-- The link is kept for as long as it is symmetric or heard. -/
def LinkTuple.IsOrdered (t : LinkTuple F) : Prop := t.symTime ≤ t.time ∧ t.asymTime ≤ t.time

instance (t : LinkTuple F) : Decidable t.IsOrdered := inferInstanceAs (Decidable (_ ∧ _))

/-- The link is ordered if the link layer did not call it lost, or if `q` holds of its key. -/
def LinkTuple.OrderedWhen (q : Address F × Address F → Prop) (t : LinkTuple F) : Prop :=
  t.lostTime = none ∨ q (Keyed.key t) → t.IsOrdered

namespace Router

variable {now : Time} {r : Router F} {q : Address F × Address F → Prop}

/-! ## HELLO messages -/

section Sensing

/-- Each block leaves a link that stops being symmetric in time, with the end that it gets last. -/
theorem foldl_senseBlock_le {p : Prop} (now validity hold : Time) (blocks : List (HelloBlock F))
    (l : LinkTuple F) (hasym : l.asymTime = now + validity)
    (hsym : l.lostTime = none ∨ p → l.symTime ≤ max l.time l.asymTime) :
    let l' := blocks.foldl (senseBlock now validity hold) l
    l'.asymTime = now + validity ∧ (l'.lostTime = none ∨ p → l'.symTime ≤ max l'.time l'.asymTime) := by
  refine List.foldlRecOn (motive := fun l' : LinkTuple F => l'.asymTime = now + validity ∧
    (l'.lostTime = none ∨ p → l'.symTime ≤ max l'.time l'.asymTime)) blocks _ ⟨hasym, hsym⟩ ?_
  rintro l ⟨hasym, hsym⟩ b -
  unfold senseBlock
  split
  · -- the sender calls the link lost: it is symmetric until now only
    exact ⟨hasym, fun _ => Nat.le_trans (hasym ▸ Nat.le_add_right now validity) (Nat.le_max_right ..)⟩
  · exact ⟨hasym, fun _ => Nat.le_trans (Nat.le_add_right ..) (Nat.le_max_left ..)⟩
  · exact ⟨hasym, fun _ => Nat.le_trans (Nat.le_add_right ..) (Nat.le_max_left ..)⟩
  · exact ⟨hasym, hsym⟩

theorem senseLink_orderedWhen (now validity hold : Time) (blocks : List (HelloBlock F))
    {l : LinkTuple F} (h : l.OrderedWhen q) :
    (senseLink now validity hold blocks l).OrderedWhen q := by
  obtain ⟨hi, hn, -⟩ := senseLink_spec now validity hold blocks l
  have hkey : Keyed.key (senseLink now validity hold blocks l) = Keyed.key l := Prod.ext hi hn
  obtain ⟨-, hsym⟩ := foldl_senseBlock_le now validity hold blocks
    { l with asymTime := now + validity } rfl
    fun hq : l.lostTime = none ∨ q (Keyed.key l) => Nat.le_trans (h hq).1 (Nat.le_max_left ..)
  unfold LinkTuple.OrderedWhen
  rw [hkey]
  exact fun hq => ⟨hsym hq, Nat.le_max_right ..⟩

theorem senses_orderedWhen (receiver sender : Address F) (ms : List (Message F)) :
    Senses (LinkTuple.OrderedWhen q) now receiver sender ms := by
  intro m _ interval w blocks _ hold l hl
  refine senseLink_orderedWhen now _ _ _ ?_
  rcases hl with rfl | ⟨-, hl⟩
  · exact fun _ => ⟨Nat.le_add_right .., Nat.le_add_right ..⟩
  · exact hl

end Sensing

/-! ## Operations -/

/-- The link under `k`, if there is one, is kept for as long as it is symmetric or heard. -/
def OrdersAt (r : Router F) (k : Address F × Address F) : Prop :=
  ∀ l ∈ r.tables.links, Keyed.key l = k → l.IsOrdered

end Router

/-- A report takes the link under `k` for lost, and the loss ends before the link stops being symmetric and
heard. -/
def Operation.Undercuts (now : Time) (r : Router F) (op : Operation F) (k : Address F × Address F) : Prop :=
  match op with
  | .linkFailed destination => ∃ l ∈ r.tables.links, Keyed.key l = k ∧
      r.failedHop? destination = some l.neighbour ∧
      now + r.params.neighbourHoldTime < max l.symTime l.asymTime
  | .start _ | .stop | .packet .. | .timer _ | .refresh _ => False

instance (now : Time) (r : Router F) (op : Operation F) (k : Address F × Address F) :
    Decidable (op.Undercuts now r k) :=
  match op with
  | .linkFailed _ => inferInstanceAs (Decidable (∃ l ∈ r.tables.links.toList, _ ∧ _ ∧ _))
  | .start _ | .stop | .packet .. | .timer _ | .refresh _ => inferInstanceAs (Decidable False)

namespace Router

variable {now : Time} {r : Router F}

/-- A link that is taken for lost is ordered iff the loss does not end before its times. -/
theorem isOrdered_lostUntil {l : LinkTuple F} {hold : Time} :
    (lostUntil l hold).IsOrdered ↔ ¬ hold < max l.symTime l.asymTime := by
  rw [Nat.not_lt, Nat.max_le]
  exact Iff.rfl

/-- What a report puts out of order it calls lost. -/
theorem linkFailed_orderedWhen (h : ∀ l ∈ r.tables.links, l.OrderedWhen fun _ => False)
    (destination : Address F) :
    ∀ l ∈ (r.linkFailed destination now).tables.links, l.OrderedWhen fun _ => False := by
  intro l' hl'
  have hget := Table.get?_eq_some_iff.mpr ⟨hl', rfl⟩
  rw [get?_links_linkFailed] at hget
  obtain ⟨l, hl, rfl⟩ := Option.map_eq_some_iff.mp hget
  split
  · exact fun hq => hq.elim nofun False.elim
  · exact h l (Table.get?_eq_some_iff.mp hl).1

theorem Reachable.orderedWhen {t : Time} (h : r.Reachable t) :
    ∀ l ∈ r.tables.links, l.OrderedWhen fun _ => False := by
  induction h with
  | create => exact nofun
  | apply op _ _ ih =>
    cases op with
    | linkFailed destination => exact linkFailed_orderedWhen ih destination
    | _ => exact apply_links ih (fun _ => nofun) fun _ _ _ _ _ _ _ _ => senses_orderedWhen _ _ _

/-- Where no link layer is listened to, no link is called lost. -/
theorem Reachable.lostTime_eq_none {t : Time} (h : r.Reachable t)
    (hf : r.params.useLinkLayerFeedback = false) : ∀ l ∈ r.tables.links, l.lostTime = none := by
  induction h with
  | create => exact fun l hl => absurd hl (Table.not_mem_empty l)
  | @apply r t now op _ _ ih =>
    have hsame : r.params.useLinkLayerFeedback = false := by
      rwa [apply_params] at hf
    cases op with
    | linkFailed destination =>
      rw [Router.apply, linkFailed, if_neg fun hc => Bool.false_ne_true (hsame.symm.trans hc.2)]
      exact ih hsame
    | _ =>
      refine apply_links (ih hsame) (by rintro _ ⟨⟩) fun _ _ _ _ _ _ _ _ m _ _ _ _ _ hold l hl => ?_
      have hlost : l.lostTime = none := hl.elim (fun he => he ▸ rfl) fun hl => hl.2
      exact (senseLink_spec ..).2.2.2.elim id fun he => he.trans hlost

theorem linkFailed_ordersAt_iff {k : Address F × Address F} (h : r.OrdersAt k) (destination : Address F) :
    (r.linkFailed destination now).OrdersAt k ↔ ¬ (Operation.linkFailed destination).Undercuts now r k := by
  constructor
  · rintro hafter ⟨l, hl, hkey, hfailed, hlt⟩
    have hget : (r.linkFailed destination now).tables.links.get? k =
        some (lostUntil l (now + r.params.neighbourHoldTime)) := by
      rw [get?_links_linkFailed, Table.get?_eq_some_iff.mpr ⟨hl, hkey⟩, Option.map_some, if_pos hfailed]
    exact isOrdered_lostUntil.mp (hafter _ (Table.get?_eq_some_iff.mp hget).1 hkey) hlt
  · intro hspared l' hl' hkey
    have hget := Table.get?_eq_some_iff.mpr ⟨hl', hkey⟩
    rw [get?_links_linkFailed] at hget
    obtain ⟨l, hl, rfl⟩ := Option.map_eq_some_iff.mp hget
    obtain ⟨hmem, hkey⟩ := Table.get?_eq_some_iff.mp hl
    split
    · rename_i hfailed
      exact isOrdered_lostUntil.mpr fun hlt => hspared ⟨l, hmem, hkey, hfailed, hlt⟩
    · exact h l hmem hkey

/-- Only a report of the link layer that undercuts a link puts it out of order. -/
theorem apply_ordersAt_iff (hr : ∀ l ∈ r.tables.links, l.OrderedWhen fun _ => False)
    {k : Address F × Address F} (h : r.OrdersAt k) (op : Operation F) :
    (r.apply now op).OrdersAt k ↔ ¬ op.Undercuts now r k := by
  have hbefore : ∀ l ∈ r.tables.links, l.OrderedWhen (· = k) := fun l hl hq =>
    hq.elim (fun hlost => hr l hl (.inl hlost)) (h l hl)
  cases op with
  | linkFailed destination => exact linkFailed_ordersAt_iff h destination
  | _ =>
    refine iff_of_true (fun l hl hkey => apply_links hbefore ?_ ?_ l hl (.inr hkey)) not_false
    · exact fun _ => nofun
    · exact fun _ _ _ _ _ _ _ _ => senses_orderedWhen _ _ _

/-- A link that the link layer did not call lost is kept for as long as it is symmetric or heard. Of all
operations only a report that ends before the times of a link puts the link out of order; in runs without
such reports, and without a link layer to listen to, all links are ordered. -/
theorem ordersAt_iff_not_undercuts {t : Time} (h : r.Reachable t) :
    (∀ l ∈ r.tables.links, l.lostTime = none → l.IsOrdered) ∧
    (∀ now op k, r.OrdersAt k → ((r.apply now op).OrdersAt k ↔ ¬ op.Undercuts now r k)) ∧
    (r.ReachableBy (fun now r op => ∀ k, ¬ op.Undercuts now r k) t → ∀ l ∈ r.tables.links, l.IsOrdered) ∧
    (r.params.useLinkLayerFeedback = false → ∀ l ∈ r.tables.links, l.IsOrdered) := by
  have hlost := h.orderedWhen
  refine ⟨fun l hl hn => hlost l hl (.inl hn), fun now op k hk => apply_ordersAt_iff hlost hk op, ?_, ?_⟩
  · intro hby
    have hall : ∀ k, r.OrdersAt k := by
      clear h hlost
      induction hby with
      | create => exact fun k => nofun
      | apply op hr _ hop ih =>
        exact fun k => (apply_ordersAt_iff hr.reachable.orderedWhen (ih k) op).mpr (hop k)
    exact fun l hl => hall _ l hl rfl
  · exact fun hf l hl => hlost l hl (.inl (h.lostTime_eq_none hf l hl))

/-! A node that listens to its link layer. Its neighbour 10.0.0.9 promised to be heard for as long as a loss
lasts, and 10.0.0.2 for longer. -/

/-- The node after the HELLO of 10.0.0.2. -/
def longLinked : Router .ipv4 :=
  ((create sampleAddress { useLinkLayerFeedback := true } (.cycle #[])).apply 0 sampleStart).apply 0
    sampleReception

theorem longLinked_reachable : longLinked.Reachable 0 :=
  .apply _ (.apply _ (.create _ _ _) (Nat.le_refl 0)) (Nat.le_refl 0)

theorem onceLinked_not_undercuts :
    onceLinked.ReachableBy (fun now r op => ∀ k, ¬ op.Undercuts now r k) 0 :=
  .apply _ (.apply _ (.create _ _ _) (Nat.le_refl 0) fun _ => not_false) (Nat.le_refl 0) fun _ => not_false

theorem ordersAt_iff_not_undercuts_samples :
    (∀ l ∈ onceLinked.tables.links, l.IsOrdered) ∧
      (onceLinked.apply 0 (.linkFailed (.ofNat 0x0a000009))).OrdersAt
        (sampleAddress, .ofNat 0x0a000009) ∧
      ¬ (longLinked.apply 0 (.linkFailed (.ofNat 0x0a000002))).OrdersAt
        (sampleAddress, .ofNat 0x0a000002) := by
  have honce := ordersAt_iff_not_undercuts onceLinked_reachable
  have hlong := ordersAt_iff_not_undercuts longLinked_reachable
  have hordered := honce.2.2.1 onceLinked_not_undercuts
  have hpromised : ∀ l ∈ longLinked.tables.links, l.IsOrdered := by decide +kernel
  refine ⟨hordered, (honce.2.1 _ _ _ fun l hl _ => hordered l hl).mpr (by decide +kernel), fun h => ?_⟩
  exact (hlong.2.1 _ _ _ fun l hl _ => hpromised l hl).mp h (by decide +kernel)

end Router

end Manet
