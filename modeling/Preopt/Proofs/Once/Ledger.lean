import Preopt.Once.Ledger
import Preopt.Proofs.Once.Slots

/-! Runs of work on a ledger. A look-up ends in one of two ways, told apart by the slot alone: a
filled slot counts a hit and answers, an empty one counts a computation, runs the work, and keeps
the value that the work returns. -/

namespace Preopt.Once

variable {κ : Type} [Kinds κ]

namespace Work

variable {ε α β : Type}

def on (m : Work κ ε α) (l : Ledger κ) : Except ε α × Ledger κ := m.run.run l

@[simp] theorem on_pure (a : α) (l : Ledger κ) : on (pure a : Work κ ε α) l = (.ok a, l) := rfl

@[simp] theorem on_update (f : Ledger κ → Ledger κ) (l : Ledger κ) :
    on (update f : Work κ ε Unit) l = (.ok (), f l) := rfl

@[simp] theorem on_get (l : Ledger κ) : on (get : Work κ ε (Ledger κ)) l = (.ok l, l) := rfl

theorem on_bind (m : Work κ ε α) (f : α → Work κ ε β) (l : Ledger κ) :
    on (m >>= f) l =
      match on m l with
      | (.ok a, l') => on (f a) l'
      | (.error e, l') => (.error e, l') := by
  change ((m.run >>= ExceptT.bindCont f : StateM (Ledger κ) (Except ε β)).run l) = _
  rw [StateT.run_bind]
  change (ExceptT.bindCont f (on m l).1).run (on m l).2 = _
  obtain ⟨result, l'⟩ := on m l
  cases result <;> rfl

theorem on_bind_ok {m : Work κ ε α} {f : α → Work κ ε β} {l l' : Ledger κ} {a : α}
    (h : on m l = (.ok a, l')) : on (m >>= f) l = on (f a) l' := by
  rw [on_bind, h]

theorem on_bind_error {m : Work κ ε α} {f : α → Work κ ε β} {l l' : Ledger κ} {e : ε}
    (h : on m l = (.error e, l')) : on (m >>= f) l = (.error e, l') := by
  rw [on_bind, h]

theorem of_on_bind_error {m : Work κ ε α} {f : α → Work κ ε β} {l l' : Ledger κ} {e : ε}
    (h : on (m >>= f) l = (.error e, l')) :
    on m l = (.error e, l') ∨ ∃ a l₁, on m l = (.ok a, l₁) ∧ on (f a) l₁ = (.error e, l') := by
  rw [on_bind] at h
  split at h
  · next a l₁ hm => exact Or.inr ⟨a, l₁, hm, h⟩
  · next e' l₁ hm =>
    cases h
    exact Or.inl hm

theorem of_on_bind_ok {m : Work κ ε α} {f : α → Work κ ε β} {l l' : Ledger κ} {b : β}
    (h : on (m >>= f) l = (.ok b, l')) :
    ∃ a l₁, on m l = (.ok a, l₁) ∧ on (f a) l₁ = (.ok b, l') := by
  rw [on_bind] at h
  split at h
  · next a l₁ hm => exact ⟨a, l₁, hm, h⟩
  · cases h

/-- Work relates the ledger before it to the one after it, and what it returns fits the latter. -/
def Ensures (R : Ledger κ → Ledger κ → Prop) (Q : α → Ledger κ → Prop) (m : Work κ ε α)
    (l : Ledger κ) : Prop :=
  R l (on m l).2 ∧ ∀ a, (on m l).1 = .ok a → Q a (on m l).2

section Ensures

variable {R : Ledger κ → Ledger κ → Prop} {l : Ledger κ}

theorem Ensures.of_on {Q : α → Ledger κ → Prop} {m : Work κ ε α} {result : Except ε α}
    {l' : Ledger κ} (h : on m l = (result, l')) (hR : R l l') (hQ : ∀ a, result = .ok a → Q a l') :
    Ensures R Q m l := by
  rw [Ensures, h]
  exact ⟨hR, hQ⟩

theorem Ensures.of_ok {Q : α → Ledger κ → Prop} {m : Work κ ε α} {a : α} {l' : Ledger κ}
    (h : Ensures R Q m l) (hm : on m l = (.ok a, l')) : R l l' ∧ Q a l' := by
  obtain ⟨hR, hQ⟩ := h
  rw [hm] at hR hQ
  exact ⟨hR, hQ a rfl⟩

theorem Ensures.bind {Q : α → Ledger κ → Prop} {S : β → Ledger κ → Prop} {m : Work κ ε α}
    {f : α → Work κ ε β} (trans : ∀ {l₁ l₂ l₃}, R l₁ l₂ → R l₂ l₃ → R l₁ l₃)
    (hm : Ensures R Q m l) (hf : ∀ a l', R l l' → Q a l' → Ensures R S (f a) l') :
    Ensures R S (m >>= f) l := by
  obtain ⟨hR, hQ⟩ := hm
  cases h : on m l with
  | mk result l' =>
    rw [h] at hR hQ
    cases result with
    | error e => exact .of_on (on_bind_error h) hR (fun a ha => by cases ha)
    | ok a =>
      have hr := hf a l' hR (hQ a rfl)
      exact .of_on (on_bind_ok h) (trans hR hr.1) hr.2

end Ensures

end Work

namespace Ledger

theorem listed_depend (l : Ledger κ) (p : Path) :
    (l.depend p).dependencies.any p.same = true := by
  rw [depend]
  split
  · assumption
  · simp [Path.same]

theorem depend_depend (l : Ledger κ) (p : Path) : (l.depend p).depend p = l.depend p :=
  if_pos (listed_depend l p)

variable [DecidableEq κ]

def value? (l : Ledger κ) (k : Key κ) : Option k.Value := l.slots.get? k

def hit (l : Ledger κ) (k : Key κ) : Ledger κ := (l.touch k).count .addHit

def attempt (l : Ledger κ) (k : Key κ) : Ledger κ :=
  ((l.touch k).count .addComputation).report (.computing k.name)

@[simp] theorem value?_empty (k : Key κ) : ({} : Ledger κ).value? k = none := rfl

@[simp] theorem value?_touch (l : Ledger κ) (k k' : Key κ) :
    (l.touch k).value? k' = l.value? k' :=
  Slots.get?_touch _ _ _

@[simp] theorem value?_count (l : Ledger κ) (add : Counters → Counters) (k : Key κ) :
    (l.count add).value? k = l.value? k := rfl

@[simp] theorem value?_report (l : Ledger κ) (e : Event) (k : Key κ) :
    (l.report e).value? k = l.value? k := rfl

@[simp] theorem value?_depend (l : Ledger κ) (p : Path) (k : Key κ) :
    (l.depend p).value? k = l.value? k := by
  rw [depend]
  split <;> rfl

@[simp] theorem value?_hit (l : Ledger κ) (k k' : Key κ) : (l.hit k).value? k' = l.value? k' := by
  rw [hit, value?_count, value?_touch]

@[simp] theorem value?_attempt (l : Ledger κ) (k k' : Key κ) :
    (l.attempt k).value? k' = l.value? k' := by
  rw [attempt, value?_report, value?_count, value?_touch]

@[simp] theorem value?_store_self (l : Ledger κ) (k : Key κ) (v : k.Value) :
    (l.store k v).value? k = some v :=
  Slots.get?_put_self _ _ _

theorem value?_store_of_ne (l : Ledger κ) {k k' : Key κ} (v : k.Value) (h : k' ≠ k) :
    (l.store k v).value? k' = l.value? k' :=
  Slots.get?_put_of_ne _ _ h

theorem ne_of_filled {l : Ledger κ} {k k' : Key κ} {v : k.Value} (h : l.value? k = some v)
    (h' : l.value? k' = none) : k ≠ k' := by
  rintro rfl
  rw [h] at h'
  cases h'

theorem contains_eq (l : Ledger κ) (k : Key κ) : l.slots.contains k = (l.value? k).isSome := rfl

theorem touch_of_filled {l : Ledger κ} {k : Key κ} {v : k.Value} (h : l.value? k = some v) :
    l.touch k = l := by
  rw [touch, Slots.touch_of_get? h]

end Ledger

namespace Work

variable {ε α : Type} [DecidableEq κ]

section OnceNoting

variable {k : Key κ} {make : Work κ ε (k.Value × α)} {l : Ledger κ}

theorem onceNoting_of_filled {v : k.Value} (h : l.value? k = some v) :
    on (onceNoting k make) l = (.ok (v, none), l.hit k) := by
  have ht : (l.touch k).slots.get? k = some v := (Ledger.value?_touch l k k).trans h
  simp only [onceNoting, on_bind, on_update, on_get, ht]
  rfl

/-- Work that makes a value leaves it in the slot, failing work leaves only what it wrote itself. -/
theorem onceNoting_of_empty (h : l.value? k = none) :
    on (onceNoting k make) l =
      match on make (l.attempt k) with
      | (.ok (v, note), l') => (.ok (v, some note), l'.store k v)
      | (.error e, l') => (.error e, l') := by
  have ht : (l.touch k).slots.get? k = none := (Ledger.value?_touch l k k).trans h
  simp only [onceNoting, on_bind, on_update, on_get, ht]
  generalize hm : on make (l.attempt k) = out
  rw [Ledger.attempt] at hm
  obtain ⟨result, l'⟩ := out
  cases result with
  | ok made =>
    simp only [hm]
    rw [on_pure]
  | error e => simp only [hm]

end OnceNoting

section Once

variable {k : Key κ} {make : Work κ ε k.Value} {l : Ledger κ}

theorem once_of_filled {v : k.Value} (h : l.value? k = some v) :
    on (once k make) l = (.ok v, l.hit k) := by
  rw [once, on_bind, onceNoting_of_filled h]
  rfl

theorem once_of_ok {l' : Ledger κ} {v : k.Value} (h : l.value? k = none)
    (hm : on make (l.attempt k) = (.ok v, l')) : on (once k make) l = (.ok v, l'.store k v) := by
  rw [once, on_bind, onceNoting_of_empty h, on_bind, hm]
  rfl

theorem once_of_error {l' : Ledger κ} {e : ε} (h : l.value? k = none)
    (hm : on make (l.attempt k) = (.error e, l')) : on (once k make) l = (.error e, l') := by
  rw [once, on_bind, onceNoting_of_empty h, on_bind, hm]

theorem of_once_error {l' : Ledger κ} {e : ε} (h : on (once k make) l = (.error e, l')) :
    l.value? k = none ∧ on make (l.attempt k) = (.error e, l') := by
  cases hs : l.value? k with
  | some v =>
    rw [once_of_filled hs] at h
    cases h
  | none =>
    cases hm : on make (l.attempt k) with
    | mk result l₁ =>
      cases result with
      | ok v =>
        rw [once_of_ok hs hm] at h
        cases h
      | error e' =>
        rw [once_of_error hs hm] at h
        exact ⟨rfl, h⟩

theorem of_once_ok {l' : Ledger κ} {v : k.Value} (h : on (once k make) l = (.ok v, l')) :
    l.value? k = some v ∧ l' = l.hit k ∨
      l.value? k = none ∧ ∃ l₁, on make (l.attempt k) = (.ok v, l₁) ∧ l' = l₁.store k v := by
  cases hs : l.value? k with
  | some w =>
    rw [once_of_filled hs] at h
    cases h
    exact Or.inl ⟨rfl, rfl⟩
  | none =>
    cases hm : on make (l.attempt k) with
    | mk result l₁ =>
      cases result with
      | ok w =>
        rw [once_of_ok hs hm] at h
        cases h
        exact Or.inr ⟨rfl, l₁, rfl, rfl⟩
      | error e =>
        rw [once_of_error hs hm] at h
        cases h

end Once

section Insert

variable {k : Key κ} {v : k.Value} {l : Ledger κ}

theorem insert_of_filled {w : k.Value} (h : l.value? k = some w) :
    on (insert k v : Work κ ε Bool) l = (.ok false, l) := by
  have ht : (l.touch k).slots.contains k = true := by
    rw [Ledger.contains_eq, Ledger.value?_touch, h]
    rfl
  simp only [insert, on_bind, on_update, on_get, ht]
  rw [Ledger.touch_of_filled h]
  rfl

theorem insert_of_empty (h : l.value? k = none) :
    on (insert k v : Work κ ε Bool) l = (.ok true, (l.touch k).store k v) := by
  have ht : (l.touch k).slots.contains k = false := by
    rw [Ledger.contains_eq, Ledger.value?_touch, h]
    rfl
  simp only [insert, on_bind, on_update, on_get, ht]
  rfl

end Insert

/-- The work behind a slot may keep to more than the look-up as a whole. -/
theorem Ensures.once {R R' : Ledger κ → Ledger κ → Prop} {l : Ledger κ} {k : Key κ}
    {make : Work κ ε k.Value} {S : k.Value → Ledger κ → Prop} (hit : R l (l.hit k))
    (hm : Ensures R' S make (l.attempt k)) (failed : ∀ l', R' (l.attempt k) l' → R l l')
    (store : ∀ v l', l.value? k = none → R' (l.attempt k) l' → S v l' → R l (l'.store k v)) :
    Ensures R (fun v l' => l'.value? k = some v) (once k make) l := by
  cases hs : l.value? k with
  | some v =>
    refine .of_on (once_of_filled hs) hit ?_
    rintro a ⟨⟩
    exact (Ledger.value?_hit l k k).trans hs
  | none =>
    obtain ⟨hR, hS⟩ := hm
    cases h : on make (l.attempt k) with
    | mk result l' =>
      rw [h] at hR hS
      cases result with
      | error e => exact .of_on (once_of_error hs h) (failed l' hR) (fun a ha => by cases ha)
      | ok v =>
        refine .of_on (once_of_ok hs h) (store v l' hs hR (hS v rfl)) ?_
        rintro a ⟨⟩
        exact Ledger.value?_store_self l' k v

end Work
end Preopt.Once
