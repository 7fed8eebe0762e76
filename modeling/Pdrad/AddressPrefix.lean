import Mathlib.Data.Set.Basic

/-!
# Prefixes of addresses

An address is a sequence of digits, and a prefix stands for all addresses that
start with the same digits. How an address stores its digits is left open.

1. `subset_iff`: a prefix covers no more than another one exactly when it is at
   least as long and agrees with it, provided that every digit of an address can
   be changed (`Changeable`).
-/

namespace Pdrad

/-- The first `length` digits of `address`. -/
structure AddressPrefix (α : Type) where
  address : α
  length : Nat
deriving DecidableEq

namespace AddressPrefix

variable {α β : Type} (digit : α → Nat → β)

/-- The addresses that start with the digits of the prefix. -/
def addresses (p : AddressPrefix α) : Set α :=
  {a | ∀ i < p.length, digit a i = digit p.address i}

/-- Any of the first `width` digits of an address can be changed without touching
the ones before it. -/
def Changeable (width : Nat) : Prop :=
  ∀ a, ∀ k < width, ∃ b, (∀ i < k, digit b i = digit a i) ∧ digit b k ≠ digit a k

variable {digit} {width : Nat} {p q : AddressPrefix α}

theorem address_mem (p : AddressPrefix α) : p.address ∈ p.addresses digit :=
  fun _ _ => rfl

/-- A prefix that covers no more than `q` is no shorter. -/
theorem length_le_of_subset (hchange : Changeable digit width) (hq : q.length ≤ width)
    (h : p.addresses digit ⊆ q.addresses digit) : q.length ≤ p.length := by
  refine Nat.le_of_not_lt fun hlt => ?_
  obtain ⟨b, hbefore, hdiffers⟩ := hchange p.address p.length (Nat.lt_of_lt_of_le hlt hq)
  have hb : b ∈ q.addresses digit := h hbefore
  have hp := h (address_mem p)
  exact hdiffers ((hb p.length hlt).trans (hp p.length hlt).symm)

theorem subset_iff (hchange : Changeable digit width) (hq : q.length ≤ width) :
    p.addresses digit ⊆ q.addresses digit ↔
      q.length ≤ p.length ∧ ∀ i < q.length, digit p.address i = digit q.address i := by
  constructor
  · exact fun h => ⟨length_le_of_subset hchange hq h, h (address_mem p)⟩
  · rintro ⟨hle, hsame⟩ a ha i hi
    exact (ha i (Nat.lt_of_lt_of_le hi hle)).trans (hsame i hi)

end AddressPrefix

end Pdrad
