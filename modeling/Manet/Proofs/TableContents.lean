import Mathlib.Data.List.Sort
import Manet.Table

/-!
# Tables by what they hold

The order of a table is that of its keys, so two tables with the same tuples are the same table
(`Table.eq_of_mem_iff`), and so are two with the same look-ups (`Table.ext_get?`). A table is what
the list of its tuples makes (`Table.ofList_toList`).
-/

namespace Manet

namespace Table

open KeyOrder Keyed

variable {τ κ : Type} [Keyed τ κ] [KeyOrder κ] [DecidableEq κ]

/-! ## Equality -/

omit [DecidableEq κ] in
/-- Two tables with the same tuples are the same table. -/
theorem eq_of_mem_iff {s t : Table τ} (h : ∀ a, a ∈ s ↔ a ∈ t) : s = t :=
  ext (s.sorted.eq_of_mem_iff t.sorted h)

/-- A table is determined by its look-ups. -/
theorem ext_get? {s t : Table τ} (h : ∀ k, s.get? k = t.get? k) : s = t := by
  refine eq_of_mem_iff fun a => ?_
  have := h (key a)
  rw [Option.ext_iff] at this
  have := this a
  rw [get?_eq_some_iff, get?_eq_some_iff] at this
  simpa using this

theorem insert_eq_self {s : Table τ} {t : τ} (h : s.get? (key t) = some t) : s.insert t = s := by
  refine ext_get? fun k => ?_
  rw [get?_insert]
  split
  · rename_i hk
    rw [← hk, h]
  · rfl

/-! ## Tables of lists -/

theorem mem_foldl_insert {l : List τ} (hl : l.Pairwise fun a b => before (key a) (key b)) {s : Table τ}
    {a : τ} : a ∈ l.foldl insert s ↔ a ∈ l ∨ a ∈ s ∧ ∀ t ∈ l, key a ≠ key t := by
  induction hl generalizing s with
  | nil => simp
  | @cons t l ht _ ih =>
    have hne : a ∈ l → key a ≠ key t := fun ha heq => ne_of_before (ht a ha) heq.symm
    rw [List.foldl_cons, ih, mem_insert, List.mem_cons, List.forall_mem_cons]
    constructor
    · rintro (ha | ⟨rfl | ⟨ha, hk⟩, hl⟩)
      · exact .inl (.inr ha)
      · exact .inl (.inl rfl)
      · exact .inr ⟨ha, hk, hl⟩
    · rintro ((rfl | ha) | ⟨ha, hk, hl⟩)
      · exact .inr ⟨.inl rfl, fun u hu => ne_of_before (ht u hu)⟩
      · exact .inl ha
      · exact .inr ⟨.inr ⟨ha, hk⟩, hl⟩

/-- A table is what the list of its tuples makes. -/
theorem ofList_toList (s : Table τ) : ofList s.toList = s := by
  refine eq_of_mem_iff fun a => ?_
  rw [ofList, mem_foldl_insert s.sorted]
  exact or_iff_left fun h => not_mem_empty a h.1

theorem mem_of_mem_ofList {l : List τ} {a : τ} (h : a ∈ ofList l) : a ∈ l := by
  refine List.foldlRecOn (motive := fun s : Table τ => ∀ a ∈ s, a ∈ l) l insert
    (fun a ha => absurd ha (not_mem_empty a)) (fun s hs t ht a ha => ?_) a h
  obtain rfl | ⟨ha, -⟩ := mem_insert.mp ha
  · exact ht
  · exact hs a ha

end Table

end Manet
