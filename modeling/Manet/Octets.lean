/-!
# Octet strings

Numbers on the wire are written with the most significant octet first. `Octets.ofNat n v` is the
number `v` in `n` octets, `Octets.toNat` reads octets back, and `Octets.splitFirst n` cuts a string
after `n` octets if it has that many.
-/

namespace Manet

/-- A string of octets. -/
abbrev Octets := List UInt8

namespace Octets

/-- The low `n` octets of `v`, most significant first. -/
def ofNat : (n v : Nat) → Octets
  | 0, _ => []
  | n + 1, v => ofNat n (v / 256) ++ [UInt8.ofNat v]

/-- How many numbers `n` octets can spell. -/
def capacity : Nat → Nat
  | 0 => 1
  | n + 1 => 256 * capacity n

/-- The number that the octets spell. -/
def toNat (bs : Octets) : Nat := bs.foldl (fun v b => 256 * v + b.toNat) 0

/-- Cuts after the first `n` octets, or fails if there are fewer. -/
def splitFirst : (n : Nat) → Octets → Option (Octets × Octets)
  | 0, bs => some ([], bs)
  | _ + 1, [] => none
  | n + 1, b :: bs => (splitFirst n bs).map fun (front, rest) => (b :: front, rest)

/-! ## Numbers -/

@[simp] theorem length_ofNat (n v : Nat) : (ofNat n v).length = n := by
  induction n generalizing v with
  | zero => rfl
  | succ n ih => rw [ofNat, List.length_append, ih, List.length_singleton]

theorem toNat_append_singleton (bs : Octets) (b : UInt8) :
    toNat (bs ++ [b]) = 256 * toNat bs + b.toNat := by
  rw [toNat, List.foldl_append, List.foldl_cons, List.foldl_nil, toNat]

theorem toNat_ofNat (n v : Nat) : toNat (ofNat n v) = v % capacity n := by
  induction n generalizing v with
  | zero => rw [capacity, Nat.mod_one, ofNat, toNat, List.foldl_nil]
  | succ n ih =>
    have h : (UInt8.ofNat v).toNat = v % 256 := UInt8.toNat_ofNat'
    rw [ofNat, toNat_append_singleton, ih, h, capacity, Nat.mod_mul, Nat.add_comm]

theorem toNat_lt (bs : Octets) : toNat bs < capacity bs.length := by
  induction h : bs.length generalizing bs with
  | zero =>
    rw [List.length_eq_zero_iff.mp h]
    decide
  | succ n ih =>
    rcases List.eq_nil_or_concat bs with rfl | ⟨front, b, rfl⟩
    · cases h
    · rw [List.length_concat] at h
      have := ih front (Nat.succ.inj h)
      have := b.toNat_lt
      rw [List.concat_eq_append, toNat_append_singleton, capacity]
      omega

theorem ofNat_toNat (bs : Octets) : ofNat bs.length (toNat bs) = bs := by
  induction h : bs.length generalizing bs with
  | zero =>
    rw [List.length_eq_zero_iff.mp h]
    rfl
  | succ n ih =>
    rcases List.eq_nil_or_concat bs with rfl | ⟨front, b, rfl⟩
    · cases h
    · rw [List.length_concat] at h
      have hb := b.toNat_lt
      have hdiv : (256 * toNat front + b.toNat) / 256 = toNat front := by omega
      have hmod : UInt8.ofNat (256 * toNat front + b.toNat) = b := by
        apply UInt8.toNat_inj.mp
        rw [UInt8.toNat_ofNat']
        omega
      rw [List.concat_eq_append, toNat_append_singleton, ofNat, hdiv, hmod, ih front (Nat.succ.inj h)]

/-! ## Cutting -/

theorem splitFirst_eq_some_iff {n : Nat} {bs front rest : Octets} :
    splitFirst n bs = some (front, rest) ↔ bs = front ++ rest ∧ front.length = n := by
  fun_induction splitFirst n bs generalizing front with
  | case1 bs =>
    constructor
    · intro h
      cases h
      exact ⟨rfl, rfl⟩
    · rintro ⟨rfl, h⟩
      rw [List.length_eq_zero_iff.mp h]
      rfl
  | case2 n =>
    constructor
    · nofun
    · rintro ⟨h, hn⟩
      rw [(List.append_eq_nil_iff.mp h.symm).1] at hn
      cases hn
  | case3 n b bs ih =>
    simp only [Option.map_eq_some_iff, Prod.exists, Prod.mk.injEq]
    constructor
    · rintro ⟨f, r, h, rfl, rfl⟩
      obtain ⟨rfl, hn⟩ := ih.mp h
      exact ⟨rfl, by simp [hn]⟩
    · rintro ⟨h, hn⟩
      cases front with
      | nil => cases hn
      | cons c front =>
        obtain ⟨rfl, rfl⟩ := List.cons.inj h
        exact ⟨front, rest, ih.mpr ⟨rfl, Nat.succ.inj hn⟩, rfl, rfl⟩

theorem splitFirst_eq_none_iff {n : Nat} {bs : Octets} :
    splitFirst n bs = none ↔ bs.length < n := by
  fun_induction splitFirst n bs with
  | case1 => simp
  | case2 => simp
  | case3 n b bs ih => simp [ih]

theorem length_of_splitFirst {n : Nat} {bs front rest : Octets}
    (h : splitFirst n bs = some (front, rest)) : rest.length + n = bs.length := by
  obtain ⟨rfl, rfl⟩ := splitFirst_eq_some_iff.mp h
  rw [List.length_append, Nat.add_comm]

theorem length_le_of_splitFirst {n : Nat} {bs front rest : Octets}
    (h : splitFirst n bs = some (front, rest)) : rest.length ≤ bs.length := by
  have := length_of_splitFirst h
  omega

theorem length_lt_of_splitFirst {n : Nat} {bs front rest : Octets} (hn : 0 < n)
    (h : splitFirst n bs = some (front, rest)) : rest.length < bs.length := by
  have := length_of_splitFirst h
  omega

end Octets

end Manet
