import Preopt.Once.Script
import Preopt.Proofs.Once.Ledger

/-! Runs of scripts, one equation for each way a step can go. A look-up that finds its slot filled
runs nothing, one that finds it empty runs its nested script first. A script leaves every slot as it
was that none of its steps, at any depth, stores into. -/

namespace Preopt.Once

variable {κ : Type} [Kinds κ]

mutual

def Step.fills : Step κ → List (Key κ)
  | .once k _ before => k :: fillsOf before
  | .insert k _ => [k]
  | .contains _ | .keyText _ | .slotsText => []

def fillsOf : List (Step κ) → List (Key κ)
  | [] => []
  | step :: rest => step.fills ++ fillsOf rest

end

variable [DecidableEq κ]

def Step.answer (step : Step κ) (l : Ledger κ) : Answer κ := (step.run.run l).1

def Step.after (step : Step κ) (l : Ledger κ) : Ledger κ := (step.run.run l).2

def reportsOf (steps : List (Step κ)) (l : Ledger κ) : List (Report κ) := ((runAll steps).run l).1

def afterAll (steps : List (Step κ)) (l : Ledger κ) : Ledger κ := ((runAll steps).run l).2

theorem reportsOf_cons (step : Step κ) (rest : List (Step κ)) (l : Ledger κ) :
    reportsOf (step :: rest) l =
      .mk (step.answer l) (step.after l).counters :: reportsOf rest (step.after l) := by
  rw [reportsOf, runAll]
  rfl

theorem afterAll_cons (step : Step κ) (rest : List (Step κ)) (l : Ledger κ) :
    afterAll (step :: rest) l = afterAll rest (step.after l) := by
  rw [afterAll, runAll]
  rfl

def behind {α : Type} (outcome : Except String α) (before : List (Step κ)) :
    Work κ (String × List (Report κ)) (α × List (Report κ)) := do
  conclude outcome (← runAll before)

theorem behind_ok {α : Type} (v : α) (before : List (Step κ)) (l : Ledger κ) :
    Work.on (behind (.ok v) before) l = (.ok (v, reportsOf before l), afterAll before l) := by
  rw [behind, Work.on_bind]
  rfl

theorem behind_error {α : Type} (text : String) (before : List (Step κ)) (l : Ledger κ) :
    Work.on (behind (.error text : Except String α) before) l =
      (.error (text, reportsOf before l), afterAll before l) := by
  rw [behind, Work.on_bind]
  rfl

section Lookup

variable {k : Key κ} {l : Ledger κ}

theorem run_once (outcome : Except String k.Value) (before : List (Step κ)) :
    (Step.once k outcome before).run.run l =
      match Work.on (Work.onceNoting k (behind outcome before)) l with
      | (.ok (v, nested), l') => (.value k v nested, l')
      | (.error (text, nested), l') => (.failed text nested, l') := by
  rw [Step.run]
  rw [StateT.run_bind]
  rw [behind, Work.on]
  obtain ⟨result, l'⟩ := StateT.run (ExceptT.run (Work.onceNoting k _)) l
  cases result <;> rfl

theorem run_once_of_filled {v : k.Value} (h : l.value? k = some v)
    (outcome : Except String k.Value) (before : List (Step κ)) :
    (Step.once k outcome before).run.run l = (.value k v none, l.hit k) := by
  rw [run_once, Work.onceNoting_of_filled h]

theorem run_once_of_ok (h : l.value? k = none) (v : k.Value) (before : List (Step κ)) :
    (Step.once k (.ok v) before).run.run l =
      (.value k v (some (reportsOf before (l.attempt k))),
        (afterAll before (l.attempt k)).store k v) := by
  rw [run_once, Work.onceNoting_of_empty h, behind_ok]

theorem run_once_of_error (h : l.value? k = none) (text : String) (before : List (Step κ)) :
    (Step.once k (.error text) before).run.run l =
      (.failed text (reportsOf before (l.attempt k)), afterAll before (l.attempt k)) := by
  rw [run_once, Work.onceNoting_of_empty h, behind_error]

end Lookup

section Insert

variable {k : Key κ} {l : Ledger κ}

theorem run_insert (v : k.Value) :
    (Step.insert k v).run.run l =
      match Work.on (Work.insert k v : Work κ Empty Bool) l with
      | (.ok true, l') => (.stored k v, l')
      | (_, l') => (.refused k.name, l') := by
  rw [Step.run]
  rw [StateT.run_bind]
  rw [Work.on]
  obtain ⟨result, l'⟩ := StateT.run (ExceptT.run (Work.insert k v : Work κ Empty Bool)) l
  rcases result with (e | (_ | _)) <;> rfl

theorem run_insert_of_filled {w : k.Value} (h : l.value? k = some w) (v : k.Value) :
    (Step.insert k v).run.run l = (.refused k.name, l) := by
  rw [run_insert, Work.insert_of_filled h]

theorem run_insert_of_empty (h : l.value? k = none) (v : k.Value) :
    (Step.insert k v).run.run l = (.stored k v, (l.touch k).store k v) := by
  rw [run_insert, Work.insert_of_empty h]

end Insert

theorem run_contains (k : Key κ) (l : Ledger κ) :
    (Step.contains k).run.run l = (.present (l.value? k).isSome, l) := by
  rw [Step.run]
  rfl

theorem after_keyText (k : Key κ) (l : Ledger κ) : (Step.keyText k).after l = l := by
  rw [Step.after, Step.run]
  rfl

theorem after_slotsText (l : Ledger κ) : Step.slotsText.after l = l := by
  rw [Step.after, Step.run]
  rfl

mutual

/-- A filled slot keeps its value, even through a look-up that asks for its own key. -/
theorem Step.after_keeps {k : Key κ} {v : k.Value} (step : Step κ) {l : Ledger κ}
    (h : l.value? k = some v) : (step.after l).value? k = some v := by
  match step with
  | .once key outcome before =>
    cases hk : l.value? key with
    | some w => rw [Step.after, run_once_of_filled hk, Ledger.value?_hit, h]
    | none =>
      have hne : k ≠ key := Ledger.ne_of_filled h hk
      have hb : (afterAll before (l.attempt key)).value? k = some v :=
        afterAll_keeps before ((Ledger.value?_attempt _ _ _).trans h)
      cases outcome with
      | ok w => rw [Step.after, run_once_of_ok hk, Ledger.value?_store_of_ne _ _ hne, hb]
      | error text => rw [Step.after, run_once_of_error hk, hb]
  | .insert key w =>
    cases hk : l.value? key with
    | some _ => rw [Step.after, run_insert_of_filled hk, h]
    | none =>
      have hne : k ≠ key := Ledger.ne_of_filled h hk
      rw [Step.after, run_insert_of_empty hk, Ledger.value?_store_of_ne _ _ hne,
        Ledger.value?_touch, h]
  | .contains key => rw [Step.after, run_contains, h]
  | .keyText key => rw [after_keyText, h]
  | .slotsText => rw [after_slotsText, h]

theorem afterAll_keeps {k : Key κ} {v : k.Value} (steps : List (Step κ)) {l : Ledger κ}
    (h : l.value? k = some v) : (afterAll steps l).value? k = some v := by
  match steps with
  | [] => exact h
  | step :: rest =>
    rw [afterAll_cons]
    exact afterAll_keeps rest (step.after_keeps h)

end

structure Stable (P : Ledger κ → Prop) (S : Key κ → Prop) : Prop where
  touch {l : Ledger κ} (k : Key κ) : P l → P (l.touch k)
  hit {l : Ledger κ} (k : Key κ) : P l → P (l.hit k)
  attempt {l : Ledger κ} (k : Key κ) : P l → P (l.attempt k)
  store {l : Ledger κ} {k : Key κ} (v : k.Value) : S k → P l → P (l.store k v)

section Stable

variable {P : Ledger κ → Prop} {S : Key κ → Prop}

mutual

theorem Stable.after (hp : Stable P S) (step : Step κ) {l : Ledger κ}
    (hk : ∀ k ∈ step.fills, S k) (h : P l) : P (step.after l) := by
  match step with
  | .once key outcome before =>
    obtain ⟨hkey, hrest⟩ : S key ∧ ∀ k ∈ fillsOf before, S k := by
      simpa only [Step.fills, List.forall_mem_cons] using hk
    cases hs : l.value? key with
    | some w =>
      rw [Step.after, run_once_of_filled hs]
      exact hp.hit key h
    | none =>
      have hb := hp.afterAll before hrest (hp.attempt key h)
      cases outcome with
      | ok w =>
        rw [Step.after, run_once_of_ok hs]
        exact hp.store w hkey hb
      | error text =>
        rw [Step.after, run_once_of_error hs]
        exact hb
  | .insert key w =>
    cases hs : l.value? key with
    | some _ =>
      rw [Step.after, run_insert_of_filled hs]
      exact h
    | none =>
      rw [Step.after, run_insert_of_empty hs]
      exact hp.store w (hk key List.mem_cons_self) (hp.touch key h)
  | .contains key =>
    rw [Step.after, run_contains]
    exact h
  | .keyText key =>
    rw [after_keyText]
    exact h
  | .slotsText =>
    rw [after_slotsText]
    exact h

theorem Stable.afterAll (hp : Stable P S) (steps : List (Step κ)) {l : Ledger κ}
    (hk : ∀ k ∈ fillsOf steps, S k) (h : P l) : P (afterAll steps l) := by
  match steps with
  | [] => exact h
  | step :: rest =>
    obtain ⟨hstep, hrest⟩ : (∀ k ∈ step.fills, S k) ∧ ∀ k ∈ fillsOf rest, S k :=
      List.forall_mem_append.mp hk
    rw [afterAll_cons]
    exact hp.afterAll rest hrest (hp.after step hstep h)

end

end Stable

theorem stable_value? (k : Key κ) (content : Option k.Value) :
    Stable (fun l : Ledger κ => l.value? k = content) (k ≠ ·) where
  touch key h := (Ledger.value?_touch _ key k).trans h
  hit key h := (Ledger.value?_hit _ key k).trans h
  attempt key h := (Ledger.value?_attempt _ key k).trans h
  store v hne h := (Ledger.value?_store_of_ne _ v hne).trans h

theorem Step.value?_after {k : Key κ} (step : Step κ) (l : Ledger κ) (h : k ∉ step.fills) :
    (step.after l).value? k = l.value? k :=
  (stable_value? k _).after step (fun _ hkey heq => h (heq ▸ hkey)) rfl

theorem stable_count {e : Event} (he : ∀ name, e ≠ .computing name) (n : Nat) :
    Stable (fun l : Ledger κ => l.events.count e = n) fun _ => True where
  touch _ h := h
  hit _ h := h
  attempt key h := by
    simpa [Ledger.attempt, Ledger.report, Ledger.count, Ledger.touch, List.count_append,
      (he key.name).symm] using h
  store _ _ h := h

theorem Step.count_after {e : Event} (he : ∀ name, e ≠ .computing name) (step : Step κ)
    (l : Ledger κ) : (step.after l).events.count e = l.events.count e :=
  (stable_count he _).after step (fun _ _ => trivial) rfl

end Preopt.Once
