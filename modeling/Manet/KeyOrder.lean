/-!
# Ordered keys

Tables keep their tuples in the order of their keys, so that two tables with the same tuples are
the same value. `KeyOrder` is a strict linear order with a decision procedure; `KeyOrder.lift`
orders a type by an injective key of it, and pairs are ordered by their first part, then by their
second.
-/

namespace Manet

/-- A strict linear order that can be decided. -/
class KeyOrder (κ : Type) where
  before : κ → κ → Prop
  decideBefore (a b : κ) : Decidable (before a b)
  irrefl (a : κ) : ¬ before a a
  trans {a b c : κ} : before a b → before b c → before a c
  connected (a b : κ) : before a b ∨ a = b ∨ before b a

namespace KeyOrder

instance {κ : Type} [KeyOrder κ] (a b : κ) : Decidable (before a b) := decideBefore a b

variable {κ : Type} [KeyOrder κ]

theorem ne_of_before {a b : κ} (h : before a b) : a ≠ b := by
  rintro rfl
  exact irrefl a h

theorem asymm {a b : κ} (h : before a b) : ¬ before b a :=
  fun h' => irrefl a (trans h h')

/-! Ordered by a key, values are as the library's lemmas about sorted lists need them. -/

instance {α : Type} (f : α → κ) : Std.Irrefl fun a b => before (f a) (f b) := ⟨fun a => irrefl (f a)⟩

instance {α : Type} (f : α → κ) : Std.Antisymm fun a b => before (f a) (f b) :=
  ⟨fun _ _ h h' => absurd h' (asymm h)⟩

theorem before_of_not_before {a b : κ} (h : ¬ before a b) (hne : b ≠ a) : before b a := by
  rcases connected a b with h' | h' | h'
  · exact absurd h' h
  · exact absurd h'.symm hne
  · exact h'

/-- The order of `α` by the key `f`. -/
@[reducible] def lift {α : Type} (f : α → κ) (inj : ∀ {a b : α}, f a = f b → a = b) :
    KeyOrder α where
  before a b := before (f a) (f b)
  decideBefore a b := decideBefore (f a) (f b)
  irrefl a := irrefl (f a)
  trans := trans
  connected a b := by
    rcases connected (f a) (f b) with h | h | h
    · exact .inl h
    · exact .inr (.inl (inj h))
    · exact .inr (.inr h)

instance : KeyOrder Nat where
  before a b := a < b
  decideBefore := Nat.decLt
  irrefl := Nat.lt_irrefl
  trans := Nat.lt_trans
  connected := Nat.lt_trichotomy

instance : KeyOrder UInt16 := lift UInt16.toNat UInt16.toNat_inj.mp

instance {α β : Type} [DecidableEq α] [KeyOrder α] [KeyOrder β] : KeyOrder (α × β) where
  before a b := before a.1 b.1 ∨ a.1 = b.1 ∧ before a.2 b.2
  decideBefore _ _ := inferInstance
  irrefl a h := h.elim (irrefl a.1) fun h => irrefl a.2 h.2
  trans := by
    rintro ⟨a₁, a₂⟩ ⟨b₁, b₂⟩ ⟨c₁, c₂⟩ (h | ⟨h, h'⟩) (g | ⟨g, g'⟩) <;> simp only at *
    · exact .inl (trans h g)
    · exact .inl (g ▸ h)
    · exact .inl (h ▸ g)
    · exact .inr ⟨h.trans g, trans h' g'⟩
  connected := by
    rintro ⟨a₁, a₂⟩ ⟨b₁, b₂⟩
    rcases connected a₁ b₁ with h | rfl | h
    · exact .inl (.inl h)
    · rcases connected a₂ b₂ with h | rfl | h
      · exact .inl (.inr ⟨rfl, h⟩)
      · exact .inr (.inl rfl)
      · exact .inr (.inr (.inr ⟨rfl, h⟩))
    · exact .inr (.inr (.inl h))

end KeyOrder

end Manet
