import Mathlib.Data.Finset.Card
import Mathlib.Data.Finset.Dedup
import Preopt.Proofs.Once.Ledger

/-! The keys whose slots are filled. Storing a value under another key adds that key and no more. -/

namespace Preopt.Once.Ledger

variable {κ : Type} [Kinds κ] [DecidableEq κ]

def filled (l : Ledger κ) : Finset (Key κ) :=
  l.slots.keys.toFinset.filter fun k => (l.value? k).isSome

theorem mem_filled {l : Ledger κ} {k : Key κ} : k ∈ l.filled ↔ (l.value? k).isSome := by
  rw [filled, Finset.mem_filter, List.mem_toFinset, and_iff_right_iff_imp]
  intro h
  obtain ⟨v, hv⟩ := Option.isSome_iff_exists.mp h
  exact Slots.mem_keys_of_get? hv

theorem filled_of_same {l l' : Ledger κ} (h : ∀ k, l'.value? k = l.value? k) :
    l'.filled = l.filled := by
  ext k
  rw [mem_filled, mem_filled, h]

theorem filled_store (l : Ledger κ) (k : Key κ) (v : k.Value) :
    (l.store k v).filled = insert k l.filled := by
  ext k'
  rw [Finset.mem_insert, mem_filled, mem_filled]
  by_cases h : k' = k
  · subst h
    simp
  · rw [value?_store_of_ne l v h]
    simp [h]

theorem card_filled_store {l : Ledger κ} {k : Key κ} (v : k.Value) (h : l.value? k = none) :
    (l.store k v).filled.card = l.filled.card + 1 := by
  have hk : k ∉ l.filled := by simp [mem_filled, h]
  rw [filled_store, Finset.card_insert_of_notMem hk]

@[simp] theorem filled_touch (l : Ledger κ) (k : Key κ) : (l.touch k).filled = l.filled :=
  filled_of_same (value?_touch l k)

@[simp] theorem filled_hit (l : Ledger κ) (k : Key κ) : (l.hit k).filled = l.filled :=
  filled_of_same (value?_hit l k)

@[simp] theorem filled_attempt (l : Ledger κ) (k : Key κ) : (l.attempt k).filled = l.filled :=
  filled_of_same (value?_attempt l k)

end Preopt.Once.Ledger
