import Preopt.Once.Slots

/-! What a slot holds after each operation on the table, seen through look-ups. Asking for a slot
fills none, and storing a value changes its own slot alone. -/

namespace Preopt.Once.Slots

variable {κ : Type} [Kinds κ] [DecidableEq κ]

theorem contentFor_self (k : Key κ) (c : Option k.Value) :
    (Slot.mk k c).contentFor k = some c := by
  simp [Slot.contentFor]

theorem contentFor_of_ne {s : Slot κ} {k : Key κ} (h : s.key ≠ k) : s.contentFor k = none := by
  simp [Slot.contentFor, h]

theorem get?_cons_self (k : Key κ) (c : Option k.Value) (rest : Slots κ) :
    get? (Slot.mk k c :: rest) k = c := by
  simp [get?, contentFor_self]

theorem get?_cons_of_ne {s : Slot κ} {k : Key κ} (h : s.key ≠ k) (rest : Slots κ) :
    get? (s :: rest) k = get? rest k := by
  simp [get?, contentFor_of_ne h]

theorem get?_append_empty (slots : Slots κ) {k k' : Key κ} (hk : k ∉ slots.keys) :
    get? (slots ++ [Slot.mk k none]) k' = slots.get? k' := by
  induction slots with
  | nil =>
    by_cases h : k = k'
    · subst h
      exact get?_cons_self _ _ _
    · exact get?_cons_of_ne h _
  | cons s rest ih =>
    have hrest : k ∉ keys rest := fun h => hk (List.mem_cons_of_mem _ h)
    obtain ⟨key, content⟩ := s
    rw [List.cons_append]
    by_cases h : key = k'
    · subst h
      rw [get?_cons_self, get?_cons_self]
    · rw [get?_cons_of_ne h, get?_cons_of_ne h, ih hrest]

@[simp] theorem get?_touch (slots : Slots κ) (k k' : Key κ) :
    (slots.touch k).get? k' = slots.get? k' := by
  rw [touch]
  split
  · rfl
  · exact get?_append_empty slots ‹_›

@[simp] theorem get?_put_self (slots : Slots κ) (k : Key κ) (v : k.Value) :
    (slots.put k v).get? k = some v := by
  induction slots with
  | nil => exact get?_cons_self _ _ _
  | cons s rest ih =>
    rw [put]
    split
    · exact get?_cons_self _ _ _
    · rw [get?_cons_of_ne ‹_›, ih]

theorem get?_put_of_ne (slots : Slots κ) {k k' : Key κ} (v : k.Value) (h : k' ≠ k) :
    (slots.put k v).get? k' = slots.get? k' := by
  induction slots with
  | nil => exact get?_cons_of_ne (Ne.symm h) _
  | cons s rest ih =>
    rw [put]
    split
    · next hs =>
      rw [get?_cons_of_ne (Ne.symm h), get?_cons_of_ne (by rw [hs]; exact Ne.symm h)]
    · by_cases hk : s.key = k'
      · obtain ⟨key, content⟩ := s
        subst hk
        rw [get?_cons_self, get?_cons_self]
      · rw [get?_cons_of_ne hk, get?_cons_of_ne hk, ih]

theorem mem_keys_of_get? {slots : Slots κ} {k : Key κ} {v : k.Value}
    (h : slots.get? k = some v) : k ∈ slots.keys := by
  induction slots with
  | nil => cases h
  | cons s rest ih =>
    by_cases hs : s.key = k
    · exact List.mem_cons.mpr (Or.inl hs.symm)
    · rw [get?_cons_of_ne hs] at h
      exact List.mem_cons_of_mem _ (ih h)

theorem touch_of_get? {slots : Slots κ} {k : Key κ} {v : k.Value}
    (h : slots.get? k = some v) : slots.touch k = slots :=
  if_pos (mem_keys_of_get? h)

end Preopt.Once.Slots
