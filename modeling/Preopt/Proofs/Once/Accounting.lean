import Mathlib.Data.UInt
import Preopt.Proofs.Once.Filled
import Preopt.Proofs.Once.FirstStore

/-! What the counters of a run stand for. Everything that happens in a run is written down in order:
look-ups that are made, work that is started, and steps that are over, with their answers. At the
end of every step, also of one deep inside work that is still under way, the counters and the filled
slots are what that record says. -/

namespace Preopt.Once

variable {κ : Type} [Kinds κ]

inductive Happening (κ : Type) [Kinds κ]
  | called (k : Key κ)
  | started (k : Key κ)
  | ended (answer : Answer κ)

namespace Happening

def isCall : Happening κ → Bool
  | .called _ => true
  | _ => false

def isStart : Happening κ → Bool
  | .started _ => true
  | _ => false

def isHit : Happening κ → Bool
  | .ended (.value _ _ none) => true
  | _ => false

def isSuccess : Happening κ → Bool
  | .ended (.value _ _ (some _)) => true
  | _ => false

def isInsertion : Happening κ → Bool
  | .ended (.stored _ _) => true
  | _ => false

end Happening

variable [DecidableEq κ]

mutual

def Step.happenings : Step κ → Ledger κ → List (Happening κ)
  | .once k outcome before, l =>
    .called k ::
      (if (l.value? k).isSome then [] else .started k :: happeningsOf before (l.attempt k)) ++
        [.ended ((Step.once k outcome before).answer l)]
  | .insert k v, l => [.ended ((Step.insert k v).answer l)]
  | .contains k, l => [.ended ((Step.contains k).answer l)]
  | .keyText k, l => [.ended ((Step.keyText k).answer l)]
  | .slotsText, l => [.ended (Step.slotsText.answer l)]

def happeningsOf : List (Step κ) → Ledger κ → List (Happening κ)
  | [], _ => []
  | step :: rest, l => step.happenings l ++ happeningsOf rest (step.after l)

end

structure Accounted (past : List (Happening κ)) (l : Ledger κ) : Prop where
  computations : l.counters.computations = UInt64.ofNat (past.countP Happening.isStart)
  hits : l.counters.hits = UInt64.ofNat (past.countP Happening.isHit)
  lookups : l.counters.lookups = UInt64.ofNat (past.countP Happening.isCall)
  filled : l.filled.card = past.countP Happening.isSuccess + past.countP Happening.isInsertion

namespace Accounted

variable {past : List (Happening κ)} {l l' : Ledger κ}

theorem append (h : Accounted past l) (more : List (Happening κ))
    (hcomputations : l'.counters.computations =
      l.counters.computations + UInt64.ofNat (more.countP Happening.isStart))
    (hhits : l'.counters.hits = l.counters.hits + UInt64.ofNat (more.countP Happening.isHit))
    (hcalls : more.countP Happening.isCall =
      more.countP Happening.isHit + more.countP Happening.isStart)
    (hfilled : l'.filled.card = l.filled.card +
      (more.countP Happening.isSuccess + more.countP Happening.isInsertion)) :
    Accounted (past ++ more) l' where
  computations := by rw [hcomputations, h.computations, List.countP_append, UInt64.ofNat_add]
  hits := by rw [hhits, h.hits, List.countP_append, UInt64.ofNat_add]
  lookups := by
    rw [List.countP_append, hcalls, UInt64.ofNat_add, UInt64.ofNat_add, ← h.lookups,
      Counters.lookups, Counters.lookups, hhits, hcomputations]
    exact add_add_add_comm _ _ _ _
  filled := by
    rw [hfilled, h.filled, List.countP_append, List.countP_append]
    omega

theorem hit (h : Accounted past l) (k : Key κ) (v : k.Value) :
    Accounted (past ++ [.called k, .ended (.value k v none)]) (l.hit k) :=
  h.append _ (add_zero _).symm rfl rfl (congrArg _ (Ledger.filled_hit l k))

theorem attempt (h : Accounted past l) (k : Key κ) :
    Accounted (past ++ [.called k, .started k]) (l.attempt k) :=
  h.append _ rfl (add_zero _).symm rfl (congrArg _ (Ledger.filled_attempt l k))

theorem store (h : Accounted past l) {k : Key κ} (hn : l.value? k = none) (v : k.Value)
    (nested : List (Report κ)) :
    Accounted (past ++ [.ended (.value k v (some nested))]) (l.store k v) :=
  h.append _ (add_zero _).symm (add_zero _).symm rfl (Ledger.card_filled_store v hn)

theorem insert (h : Accounted past l) {k : Key κ} (hn : l.value? k = none) (v : k.Value) :
    Accounted (past ++ [.ended (.stored k v)]) ((l.touch k).store k v) := by
  have hn' : (l.touch k).value? k = none := (Ledger.value?_touch l k k).trans hn
  refine h.append _ (add_zero _).symm (add_zero _).symm rfl ?_
  rw [Ledger.card_filled_store v hn', Ledger.filled_touch]
  rfl

theorem step_ended (h : Accounted past l) {answer : Answer κ}
    (hhit : Happening.isHit (.ended answer) = false)
    (hsuccess : Happening.isSuccess (.ended answer) = false)
    (hinsertion : Happening.isInsertion (.ended answer) = false) :
    Accounted (past ++ [.ended answer]) l := by
  refine h.append _ ?_ ?_ ?_ ?_ <;>
    simp [hhit, hsuccess, hinsertion, Happening.isStart, Happening.isCall]

end Accounted

section Lookup

variable {k : Key κ} {l : Ledger κ}

theorem happenings_of_filled {v : k.Value} (h : l.value? k = some v)
    (outcome : Except String k.Value) (before : List (Step κ)) :
    (Step.once k outcome before).happenings l = [.called k, .ended (.value k v none)] := by
  rw [Step.happenings, h, Step.answer, run_once_of_filled h]
  rfl

theorem happenings_of_empty (h : l.value? k = none) (outcome : Except String k.Value)
    (before : List (Step κ)) :
    (Step.once k outcome before).happenings l =
      [.called k, .started k] ++ happeningsOf before (l.attempt k) ++
        [.ended ((Step.once k outcome before).answer l)] := by
  rw [Step.happenings, h]
  rfl

end Lookup

mutual

theorem Step.accounted_after {making : List (Key κ)} {past : List (Happening κ)} (step : Step κ)
    {l : Ledger κ} (hc : step.Clear making l) (h : Accounted past l) :
    Accounted (past ++ step.happenings l) (step.after l) := by
  match step with
  | .once key outcome before =>
    cases hs : l.value? key with
    | some w =>
      rw [happenings_of_filled hs, Step.after, run_once_of_filled hs]
      exact h.hit key w
    | none =>
      have hb := hc.2 hs
      -- The nested script starts on a look-up that is counted and not over yet.
      have hnested := accounted_afterAll before hb (h.attempt key)
      rw [happenings_of_empty hs, ← List.append_assoc, ← List.append_assoc]
      cases outcome with
      | ok w =>
        have hkey : (afterAll before (l.attempt key)).value? key = none := by
          rw [value?_of_making List.mem_cons_self before hb, Ledger.value?_attempt, hs]
        rw [Step.after, Step.answer, run_once_of_ok hs]
        exact hnested.store hkey w _
      | error text =>
        rw [Step.after, Step.answer, run_once_of_error hs]
        exact hnested.step_ended rfl rfl rfl
  | .insert key w =>
    cases hs : l.value? key with
    | some _ =>
      rw [Step.happenings, Step.after, Step.answer, run_insert_of_filled hs]
      exact h.step_ended rfl rfl rfl
    | none =>
      rw [Step.happenings, Step.after, Step.answer, run_insert_of_empty hs]
      exact h.insert hs w
  | .contains key =>
    rw [Step.happenings, Step.after, Step.answer, run_contains]
    exact h.step_ended rfl rfl rfl
  | .keyText key =>
    rw [Step.happenings, after_keyText, Step.answer, Step.run]
    exact h.step_ended rfl rfl rfl
  | .slotsText =>
    rw [Step.happenings, after_slotsText, Step.answer, Step.run]
    exact h.step_ended rfl rfl rfl

theorem accounted_afterAll {making : List (Key κ)} {past : List (Happening κ)}
    (steps : List (Step κ)) {l : Ledger κ} (hc : ClearAll making steps l) (h : Accounted past l) :
    Accounted (past ++ happeningsOf steps l) (afterAll steps l) := by
  match steps with
  | [] => exact (List.append_nil past).symm ▸ h
  | step :: rest =>
    rw [afterAll_cons, happeningsOf, ← List.append_assoc]
    exact accounted_afterAll rest hc.2 (step.accounted_after hc.1 h)

end

/-- A run has just come to the end of a step, with all that happened up to then. Steps inside the
work behind a look-up end before the look-up does. -/
inductive Arrives : List (Happening κ) → List (Step κ) → Ledger κ → List (Happening κ) →
    Ledger κ → Prop
  | here {past : List (Happening κ)} {step : Step κ} {rest : List (Step κ)} {l : Ledger κ} :
    Arrives past (step :: rest) l (past ++ step.happenings l) (step.after l)
  | later {past past' : List (Happening κ)} {step : Step κ} {rest : List (Step κ)}
      {l l' : Ledger κ} :
    Arrives (past ++ step.happenings l) rest (step.after l) past' l' →
      Arrives past (step :: rest) l past' l'
  | inside {past past' : List (Happening κ)} {k : Key κ} {outcome : Except String k.Value}
      {before rest : List (Step κ)} {l l' : Ledger κ} :
    l.value? k = none → Arrives (past ++ [.called k, .started k]) before (l.attempt k) past' l' →
      Arrives past (.once k outcome before :: rest) l past' l'

theorem Arrives.accounted {past past' : List (Happening κ)} {steps : List (Step κ)}
    {l l' : Ledger κ} (ha : Arrives past steps l past' l') {making : List (Key κ)}
    (hc : ClearAll making steps l) (h : Accounted past l) : Accounted past' l' := by
  induction ha generalizing making with
  | here => exact Step.accounted_after _ hc.1 h
  | later _ ih => exact ih hc.2 (Step.accounted_after _ hc.1 h)
  | inside hk _ ih => exact ih (hc.1.2 hk) (h.attempt _)

theorem counters_insert (k : Key κ) (v : k.Value) (l : Ledger κ) :
    ((Step.insert k v).after l).counters = l.counters := by
  cases hs : l.value? k with
  | some w => rw [Step.after, run_insert_of_filled hs]
  | none =>
    rw [Step.after, run_insert_of_empty hs]
    rfl

theorem counters_contains (k : Key κ) (l : Ledger κ) :
    ((Step.contains k).after l).counters = l.counters := by
  rw [Step.after, run_contains]

theorem accounted_nil : Accounted [] ({} : Ledger κ) := ⟨rfl, rfl, rfl, rfl⟩

/-- On fresh slots the counters and the filled slots are accounted for after every step, at any
depth of nesting and through any failures. Nothing but look-ups is counted. -/
theorem lookups_accounted (script : List (Step κ)) (hc : ClearAll [] script {}) :
    Accounted (happeningsOf script {}) (afterAll script {}) ∧
      (∀ past l, Arrives [] script {} past l → Accounted past l) ∧
      ∀ (k : Key κ) (l : Ledger κ), (∀ v, ((Step.insert k v).after l).counters = l.counters) ∧
        ((Step.contains k).after l).counters = l.counters :=
  ⟨accounted_afterAll script hc accounted_nil, fun _ _ ha => ha.accounted hc accounted_nil,
    fun k l => ⟨fun v => counters_insert k v l, counters_contains k l⟩⟩

theorem lookups_accounted_nested :
    let inner : Script.Step := .once ⟨.list, "b"⟩ (.ok ["y"]) []
    let failing : Script.Step := .once ⟨.number, "a"⟩ (.error "no") [inner, .contains ⟨.list, "b"⟩]
    let script : List Script.Step :=
      [.once ⟨.text, "a"⟩ (.ok "x") [failing, failing], .insert ⟨.text, "a"⟩ "z", inner]
    ClearAll [] script {} ∧ Accounted (happeningsOf script {}) (afterAll script {}) ∧
      ∀ past l, Arrives [] script {} past l → Accounted past l := by
  intro inner failing script
  have hc : ClearAll [] script {} := by simp [script, failing, inner, ClearAll, Step.Clear]
  obtain ⟨hend, hall, -⟩ := lookups_accounted script hc
  exact ⟨hc, hend, hall⟩

end Preopt.Once
