import Manet.KeyOrder

/-!
# Tables

A `Table τ` holds tuples of type `τ`, at most one for each key, in the order of their keys. The
order is part of the type, so a table is determined by what it holds. Sets of addresses are tables
whose tuples are their own keys.

The view of a table is `toList`; `get?_insert` and `get?_erase` say what the two operations do to
look-ups, `mem_insert` and `mem_erase` what they do to membership.
-/

namespace Manet

/-- How the key of a tuple is read off it. -/
class Keyed (τ : Type) (κ : outParam Type) where
  key : τ → κ

/-- A finite set of tuples with distinct keys, listed in key order. -/
structure Table (τ : Type) {κ : Type} [Keyed τ κ] [KeyOrder κ] where
  toList : List τ
  sorted : toList.Pairwise fun a b => KeyOrder.before (Keyed.key a) (Keyed.key b)

namespace Table

open KeyOrder Keyed

variable {τ κ : Type} [Keyed τ κ] [KeyOrder κ] [DecidableEq κ]

/-! ## Sorted lists -/

/-- Puts a tuple in its place, over the one with the same key if there is one. -/
def insertSorted (t : τ) : List τ → List τ
  | [] => [t]
  | u :: us =>
    if before (key t) (key u) then t :: u :: us
    else if key u = key t then t :: us
    else u :: insertSorted t us

omit [DecidableEq κ] in
theorem key_inj_of_mem {l : List τ} (h : l.Pairwise fun a b => before (key a) (key b)) {a b : τ}
    (ha : a ∈ l) (hb : b ∈ l) (hk : key a = key b) : a = b := by
  induction h with
  | nil => cases ha
  | cons hx _ ih =>
    rcases List.mem_cons.mp ha with rfl | ha' <;> rcases List.mem_cons.mp hb with rfl | hb'
    · rfl
    · exact absurd hk (ne_of_before (hx _ hb'))
    · exact absurd hk.symm (ne_of_before (hx _ ha'))
    · exact ih ha' hb'

theorem mem_insertSorted {t a : τ} {l : List τ}
    (h : l.Pairwise fun a b => before (key a) (key b)) :
    a ∈ insertSorted t l ↔ a = t ∨ a ∈ l ∧ key a ≠ key t := by
  induction h with
  | nil => simp [insertSorted]
  | @cons u us hu hus ih =>
    simp only [insertSorted]
    split
    · rename_i htu
      have hne : ∀ b ∈ u :: us, key b ≠ key t := by
        intro b hb heq
        rcases List.mem_cons.mp hb with rfl | hb
        · exact ne_of_before htu heq.symm
        · exact ne_of_before (trans htu (hu b hb)) heq.symm
      constructor
      · intro ha
        rcases List.mem_cons.mp ha with rfl | ha
        · exact .inl rfl
        · exact .inr ⟨ha, hne a ha⟩
      · rintro (rfl | ⟨ha, -⟩)
        · exact List.mem_cons_self
        · exact List.mem_cons_of_mem _ ha
    · rename_i htu
      split
      · rename_i heq
        have hne : ∀ b ∈ us, key b ≠ key t := fun b hb h =>
          ne_of_before (hu b hb) (heq.trans h.symm)
        constructor
        · intro ha
          rcases List.mem_cons.mp ha with rfl | ha
          · exact .inl rfl
          · exact .inr ⟨List.mem_cons_of_mem _ ha, hne a ha⟩
        · rintro (rfl | ⟨ha, hk⟩)
          · exact List.mem_cons_self
          · rcases List.mem_cons.mp ha with rfl | ha
            · exact absurd heq hk
            · exact List.mem_cons_of_mem _ ha
      · rename_i hne
        rw [List.mem_cons, ih, List.mem_cons]
        constructor
        · rintro (rfl | rfl | ⟨ha, hk⟩)
          · exact .inr ⟨.inl rfl, hne⟩
          · exact .inl rfl
          · exact .inr ⟨.inr ha, hk⟩
        · rintro (rfl | ⟨rfl | ha, hk⟩)
          · exact .inr (.inl rfl)
          · exact .inl rfl
          · exact .inr (.inr ⟨ha, hk⟩)

theorem pairwise_insertSorted {t : τ} {l : List τ}
    (h : l.Pairwise fun a b => before (key a) (key b)) :
    (insertSorted t l).Pairwise fun a b => before (key a) (key b) := by
  induction h with
  | nil => simp [insertSorted]
  | @cons u us hu hus ih =>
    simp only [insertSorted]
    split
    · rename_i htu
      refine .cons (fun b hb => ?_) (.cons hu hus)
      rcases List.mem_cons.mp hb with rfl | hb
      · exact htu
      · exact trans htu (hu b hb)
    · rename_i htu
      split
      · rename_i heq
        exact .cons (fun b hb => heq ▸ hu b hb) hus
      · rename_i hne
        refine .cons (fun b hb => ?_) ih
        rcases (mem_insertSorted hus).mp hb with rfl | ⟨hb, -⟩
        · exact before_of_not_before htu hne
        · exact hu b hb

theorem length_insertSorted {t : τ} {l : List τ} (h : ∀ u ∈ l, key u ≠ key t) :
    (insertSorted t l).length = l.length + 1 := by
  induction l with
  | nil => rfl
  | cons u us ih =>
    rw [insertSorted]
    split
    · rfl
    · rw [if_neg (h u List.mem_cons_self), List.length_cons, List.length_cons,
        ih fun v hv => h v (List.mem_cons_of_mem _ hv)]

/-! ## Operations -/

omit [DecidableEq κ] in
@[ext] theorem ext {s t : Table τ} (h : s.toList = t.toList) : s = t := by
  cases s; cases t; cases h; rfl

instance [DecidableEq τ] : DecidableEq (Table τ) := fun s t =>
  decidable_of_iff (s.toList = t.toList) ⟨ext, congrArg toList⟩

/-- The table without tuples. -/
def empty : Table τ := ⟨[], .nil⟩

instance : EmptyCollection (Table τ) := ⟨empty⟩

instance : Inhabited (Table τ) := ⟨∅⟩

instance : Membership τ (Table τ) := ⟨fun s t => t ∈ s.toList⟩

instance [DecidableEq τ] (t : τ) (s : Table τ) : Decidable (t ∈ s) :=
  inferInstanceAs (Decidable (t ∈ s.toList))

/-- The tuple stored under `k`. -/
def get? (s : Table τ) (k : κ) : Option τ := s.toList.find? fun t => key t = k

/-- Whether a tuple is stored under `k`. -/
def contains (s : Table τ) (k : κ) : Bool := s.toList.any fun t => key t = k

/-- Stores a tuple in the place of the one with its key. -/
def insert (s : Table τ) (t : τ) : Table τ := ⟨insertSorted t s.toList, pairwise_insertSorted s.sorted⟩

/-- Keeps the tuples that satisfy `p`. -/
def filter (s : Table τ) (p : τ → Bool) : Table τ := ⟨s.toList.filter p, s.sorted.filter p⟩

/-- Removes the tuple stored under `k`. -/
def erase (s : Table τ) (k : κ) : Table τ := s.filter fun t => key t ≠ k

/-- How many tuples are stored. -/
def size (s : Table τ) : Nat := s.toList.length

/-- Whether no tuple is stored. -/
def isEmpty (s : Table τ) : Bool := s.toList.isEmpty

/-- The tuples of a list, the last of those with one key. -/
def ofList (l : List τ) : Table τ := l.foldl insert ∅

/-! ## Membership and look-ups -/

omit [DecidableEq κ] in
theorem mem_toList {s : Table τ} {t : τ} : t ∈ s.toList ↔ t ∈ s := Iff.rfl

omit [DecidableEq κ] in
@[simp] theorem toList_empty : (∅ : Table τ).toList = [] := rfl

omit [DecidableEq κ] in
@[simp] theorem not_mem_empty (t : τ) : t ∉ (∅ : Table τ) := nofun

omit [DecidableEq κ] in
theorem eq_of_mem {s : Table τ} {a b : τ} (ha : a ∈ s) (hb : b ∈ s) (h : key a = key b) : a = b :=
  key_inj_of_mem s.sorted ha hb h

theorem mem_insert {s : Table τ} {t a : τ} : a ∈ s.insert t ↔ a = t ∨ a ∈ s ∧ key a ≠ key t :=
  mem_insertSorted s.sorted

omit [DecidableEq κ] in
theorem mem_filter {s : Table τ} {p : τ → Bool} {a : τ} : a ∈ s.filter p ↔ a ∈ s ∧ p a = true :=
  List.mem_filter

theorem mem_erase {s : Table τ} {k : κ} {a : τ} : a ∈ s.erase k ↔ a ∈ s ∧ key a ≠ k := by
  simp [erase, mem_filter]

theorem get?_eq_some_iff {s : Table τ} {k : κ} {t : τ} : s.get? k = some t ↔ t ∈ s ∧ key t = k := by
  constructor
  · intro h
    exact ⟨List.mem_of_find?_eq_some h, by simpa using List.find?_some h⟩
  · rintro ⟨hm, rfl⟩
    cases h : s.get? (key t) with
    | none =>
      have := List.find?_eq_none.mp h t hm
      simp at this
    | some u =>
      have hu : u ∈ s := List.mem_of_find?_eq_some h
      have hk : key u = key t := by simpa using List.find?_some h
      rw [eq_of_mem hu hm hk]

theorem get?_eq_none_iff {s : Table τ} {k : κ} : s.get? k = none ↔ ∀ t ∈ s, key t ≠ k := by
  simp only [get?, List.find?_eq_none, decide_eq_true_eq]
  exact Iff.rfl

theorem contains_iff {s : Table τ} {k : κ} : s.contains k = true ↔ ∃ t ∈ s, key t = k := by
  simp only [contains, List.any_eq_true, decide_eq_true_eq]
  exact Iff.rfl

theorem contains_eq_isSome (s : Table τ) (k : κ) : s.contains k = (s.get? k).isSome := by
  rw [Bool.eq_iff_iff, contains_iff, Option.isSome_iff_exists]
  simp only [get?_eq_some_iff]

theorem get?_insert (s : Table τ) (t : τ) (k : κ) :
    (s.insert t).get? k = if key t = k then some t else s.get? k := by
  split
  · rename_i h
    exact get?_eq_some_iff.mpr ⟨mem_insert.mpr (.inl rfl), h⟩
  · rename_i h
    apply Option.ext
    intro u
    rw [get?_eq_some_iff, get?_eq_some_iff, mem_insert]
    constructor
    · rintro ⟨rfl | ⟨hu, -⟩, rfl⟩
      · exact absurd rfl h
      · exact ⟨hu, rfl⟩
    · rintro ⟨hu, rfl⟩
      exact ⟨.inr ⟨hu, fun h' => h h'.symm⟩, rfl⟩

theorem get?_erase (s : Table τ) (k k' : κ) :
    (s.erase k).get? k' = if k' = k then none else s.get? k' := by
  split
  · rename_i h
    exact get?_eq_none_iff.mpr fun t ht => h ▸ (mem_erase.mp ht).2
  · rename_i h
    apply Option.ext
    intro u
    rw [get?_eq_some_iff, get?_eq_some_iff, mem_erase]
    constructor
    · rintro ⟨⟨hu, -⟩, rfl⟩
      exact ⟨hu, rfl⟩
    · rintro ⟨hu, rfl⟩
      exact ⟨⟨hu, h⟩, rfl⟩

/-- A tuple under a new key is one more. -/
theorem size_insert {s : Table τ} {t : τ} (h : s.get? (key t) = none) :
    (s.insert t).size = s.size + 1 :=
  length_insertSorted (get?_eq_none_iff.mp h)

end Table

end Manet
