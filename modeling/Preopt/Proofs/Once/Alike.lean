import Preopt.Proofs.Once.Ledger

/-! Ledgers that differ in nothing that work can see. Work looks at stored values alone, so it gives
one result on ledgers that store the same values, and leaves ledgers that do so again. Attempts may
have been counted more often on one of them, and other things reported and kept. -/

namespace Preopt

def Counters.outcomes (c : Counters) : Counters := { c with computations := 0 }

namespace Once

variable {κ : Type} [Kinds κ] [DecidableEq κ]

structure Alike (l l' : Ledger κ) : Prop where
  value? (k : Key κ) : l.value? k = l'.value? k
  outcomes : l.counters.outcomes = l'.counters.outcomes

namespace Alike

theorem refl (l : Ledger κ) : Alike l l := ⟨fun _ => rfl, rfl⟩

theorem symm {l l' : Ledger κ} (h : Alike l l') : Alike l' l :=
  ⟨fun k => (h.value? k).symm, h.outcomes.symm⟩

theorem trans {l₁ l₂ l₃ : Ledger κ} (h : Alike l₁ l₂) (h' : Alike l₂ l₃) : Alike l₁ l₃ :=
  ⟨fun k => (h.value? k).trans (h'.value? k), h.outcomes.trans h'.outcomes⟩

variable {l l' : Ledger κ}

theorem contains (h : Alike l l') (k : Key κ) : l.slots.contains k = l'.slots.contains k := by
  rw [Ledger.contains_eq, Ledger.contains_eq, h.value?]

theorem report (h : Alike l l') (e : Event) : Alike (l.report e) (l'.report e) :=
  ⟨h.value?, h.outcomes⟩

theorem count (h : Alike l l') (add : Counters → Counters)
    (hadd : ∀ c, (add c).outcomes = (add c.outcomes).outcomes) :
    Alike (l.count add) (l'.count add) where
  value? := h.value?
  outcomes := by
    change (add l.counters).outcomes = (add l'.counters).outcomes
    rw [hadd, h.outcomes, ← hadd]

theorem depend (h : Alike l l') (p : Path) : Alike (l.depend p) (l'.depend p) where
  value? k := by rw [Ledger.value?_depend, Ledger.value?_depend, h.value?]
  outcomes := by
    rw [Ledger.depend, Ledger.depend]
    split <;> split <;> exact h.outcomes

theorem touch (h : Alike l l') (k : Key κ) : Alike (l.touch k) (l'.touch k) where
  value? k' := by rw [Ledger.value?_touch, Ledger.value?_touch, h.value?]
  outcomes := h.outcomes

theorem hit (h : Alike l l') (k : Key κ) : Alike (l.hit k) (l'.hit k) :=
  (h.touch k).count _ fun _ => rfl

theorem attempt (h : Alike l l') (k : Key κ) : Alike (l.attempt k) (l'.attempt k) :=
  ((h.touch k).count _ fun _ => rfl).report _

theorem store (h : Alike l l') (k : Key κ) (v : k.Value) : Alike (l.store k v) (l'.store k v) where
  value? k' := by
    by_cases hk : k' = k
    · subst hk
      rw [Ledger.value?_store_self, Ledger.value?_store_self]
    · rw [Ledger.value?_store_of_ne _ _ hk, Ledger.value?_store_of_ne _ _ hk, h.value?]
  outcomes := h.outcomes

end Alike

namespace Work

variable {ε α β : Type}

/-- Work cannot tell alike ledgers apart. -/
def Respects (m : Work κ ε α) : Prop :=
  ∀ l l' : Ledger κ, Alike l l' →
    ∃ result l₁ l₁', on m l = (result, l₁) ∧ on m l' = (result, l₁') ∧ Alike l₁ l₁'

namespace Respects

theorem pure (a : α) : Respects (pure a : Work κ ε α) := fun _ _ h => ⟨_, _, _, rfl, rfl, h⟩

theorem throw (e : ε) : Respects (throw e : Work κ ε α) := fun _ _ h => ⟨_, _, _, rfl, rfl, h⟩

theorem update {f : Ledger κ → Ledger κ} (hf : ∀ {l l'}, Alike l l' → Alike (f l) (f l')) :
    Respects (update f : Work κ ε Unit) :=
  fun _ _ h => ⟨_, _, _, rfl, rfl, hf h⟩

theorem bind {m : Work κ ε α} {f : α → Work κ ε β} (hm : Respects m)
    (hf : ∀ a, Respects (f a)) : Respects (m >>= f) := by
  intro l l' h
  obtain ⟨result, l₁, l₁', hon, hon', h₁⟩ := hm l l' h
  cases result with
  | error e => exact ⟨_, _, _, on_bind_error hon, on_bind_error hon', h₁⟩
  | ok a =>
    obtain ⟨result, l₂, l₂', hon₂, hon₂', h₂⟩ := hf a l₁ l₁' h₁
    exact ⟨_, _, _, (on_bind_ok hon).trans hon₂, (on_bind_ok hon').trans hon₂', h₂⟩

theorem get_bind {f : Ledger κ → Work κ ε α} (hf : ∀ l, Respects (f l))
    (same : ∀ l l', Alike l l' → f l = f l') : Respects (get >>= f) := by
  intro l l' h
  obtain ⟨result, l₁, l₁', hon, hon', h₁⟩ := hf l l l' h
  rw [same l l' h] at hon'
  refine ⟨result, l₁, l₁', (on_bind_ok (on_get l)).trans hon, ?_, h₁⟩
  exact (on_bind_ok (on_get l')).trans hon'

theorem once {k : Key κ} {make : Work κ ε k.Value} (hm : Respects make) :
    Respects (once k make) := by
  intro l l' h
  cases hs : l.value? k with
  | some v =>
    have hs' : l'.value? k = some v := (h.value? k).symm.trans hs
    exact ⟨_, _, _, once_of_filled hs, once_of_filled hs', h.hit k⟩
  | none =>
    have hs' : l'.value? k = none := (h.value? k).symm.trans hs
    obtain ⟨result, l₁, l₁', hon, hon', h₁⟩ := hm _ _ (h.attempt k)
    cases result with
    | error e => exact ⟨_, _, _, once_of_error hs hon, once_of_error hs' hon', h₁⟩
    | ok v => exact ⟨_, _, _, once_of_ok hs hon, once_of_ok hs' hon', h₁.store k v⟩

theorem insert (k : Key κ) (v : k.Value) : Respects (insert k v : Work κ ε Bool) := by
  intro l l' h
  cases hs : l.value? k with
  | some w =>
    have hs' : l'.value? k = some w := (h.value? k).symm.trans hs
    exact ⟨_, _, _, insert_of_filled hs, insert_of_filled hs', h⟩
  | none =>
    have hs' : l'.value? k = none := (h.value? k).symm.trans hs
    exact ⟨_, _, _, insert_of_empty hs, insert_of_empty hs', (h.touch k).store k v⟩

end Respects
end Work
end Once
end Preopt
