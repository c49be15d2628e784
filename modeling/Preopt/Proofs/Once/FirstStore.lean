import Preopt.Proofs.Once.Script
import Preopt.Slot

/-! The first value stored under a key stays. A run is followed step by step, nested ones included,
together with the values stored so far, in order, as the answers tell them. As long as no work comes
back to a key it is making the value of, the slots hold exactly those values, and so each step can
be foretold from them. -/

namespace Preopt.Once

variable {κ : Type} [Kinds κ]

abbrev Entry (κ : Type) [Kinds κ] := Σ k : Key κ, k.Value

mutual

def Answer.stores : Answer κ → List (Entry κ)
  | .value k v (some nested) => storesOf nested ++ [⟨k, v⟩]
  | .failed _ nested => storesOf nested
  | .stored k v => [⟨k, v⟩]
  | .value _ _ none | .refused _ | .present _ | .text _ => []

def storesOf : List (Report κ) → List (Entry κ)
  | [] => []
  | .mk answer _ :: rest => answer.stores ++ storesOf rest

end

variable [DecidableEq κ]

def Records (l : Ledger κ) (past : List (Entry κ)) : Prop :=
  ∀ k v, l.value? k = some v ↔ ⟨k, v⟩ ∈ past

mutual

/-- No step asks for a key whose value is still being made, so no work comes back to its own key. -/
def Step.Clear (making : List (Key κ)) : Step κ → Ledger κ → Prop
  | .once k _ before, l =>
    k ∉ making ∧ (l.value? k = none → ClearAll (k :: making) before (l.attempt k))
  | .insert k _, _ | .contains k, _ => k ∉ making
  | .keyText _, _ | .slotsText, _ => True

def ClearAll (making : List (Key κ)) : List (Step κ) → Ledger κ → Prop
  | [], _ => True
  | step :: rest, l => step.Clear making l ∧ ClearAll making rest (step.after l)

end

theorem records_of_same {l l' : Ledger κ} {past : List (Entry κ)} (h : Records l past)
    (hs : ∀ k, l'.value? k = l.value? k) : Records l' past := by
  intro k v
  rw [hs]
  exact h k v

theorem records_store {l : Ledger κ} {past : List (Entry κ)} {k : Key κ} (h : Records l past)
    (hk : l.value? k = none) (v : k.Value) : Records (l.store k v) (past ++ [⟨k, v⟩]) := by
  intro k' v'
  rw [List.mem_append, List.mem_singleton]
  by_cases hne : k' = k
  · subst hne
    have hnot : ⟨k', v'⟩ ∉ past := fun hp => by simp [(h k' v').mpr hp] at hk
    rw [Ledger.value?_store_self]
    constructor
    · rintro ⟨⟩
      exact Or.inr rfl
    · rintro (hp | hp)
      · exact absurd hp hnot
      · cases hp
        rfl
  · rw [Ledger.value?_store_of_ne _ _ hne, h k' v']
    constructor
    · exact Or.inl
    · rintro (hp | hp)
      · exact hp
      · exact absurd (congrArg Sigma.fst hp) hne

mutual

theorem Step.value?_of_making {making : List (Key κ)} {k : Key κ} (hk : k ∈ making) (step : Step κ)
    {l : Ledger κ} (hc : step.Clear making l) : (step.after l).value? k = l.value? k := by
  match step with
  | .once key outcome before =>
    obtain ⟨hkey, hb⟩ := hc
    have hne : k ≠ key := fun h => hkey (h ▸ hk)
    cases hs : l.value? key with
    | some w => rw [Step.after, run_once_of_filled hs, Ledger.value?_hit]
    | none =>
      have hn := (value?_of_making (List.mem_cons_of_mem key hk) before (hb hs)).trans
        (Ledger.value?_attempt l key k)
      cases outcome with
      | ok w => rw [Step.after, run_once_of_ok hs, Ledger.value?_store_of_ne _ _ hne, hn]
      | error text => rw [Step.after, run_once_of_error hs, hn]
  | .insert key w =>
    have hne : k ≠ key := fun h => hc (h ▸ hk)
    apply Step.value?_after
    simpa only [Step.fills, List.mem_singleton] using hne
  | .contains key => rw [Step.after, run_contains]
  | .keyText key => rw [after_keyText]
  | .slotsText => rw [after_slotsText]

theorem value?_of_making {making : List (Key κ)} {k : Key κ} (hk : k ∈ making)
    (steps : List (Step κ)) {l : Ledger κ} (hc : ClearAll making steps l) :
    (afterAll steps l).value? k = l.value? k := by
  match steps with
  | [] => rfl
  | step :: rest =>
    rw [afterAll_cons, value?_of_making hk rest hc.2, step.value?_of_making hk hc.1]

end

theorem storesOf_reportsOf_cons (step : Step κ) (rest : List (Step κ)) (l : Ledger κ) :
    storesOf (reportsOf (step :: rest) l) =
      (step.answer l).stores ++ storesOf (reportsOf rest (step.after l)) := by
  rw [reportsOf_cons, storesOf]

mutual

theorem Step.records_after {making : List (Key κ)} {past : List (Entry κ)} (step : Step κ)
    {l : Ledger κ} (hc : step.Clear making l) (h : Records l past) :
    Records (step.after l) (past ++ (step.answer l).stores) := by
  match step with
  | .once key outcome before =>
    cases hs : l.value? key with
    | some w =>
      rw [Step.after, Step.answer, run_once_of_filled hs, Answer.stores, List.append_nil]
      exact records_of_same h (Ledger.value?_hit l key)
    | none =>
      have hb := hc.2 hs
      have hn : Records (afterAll before (l.attempt key))
          (past ++ storesOf (reportsOf before (l.attempt key))) :=
        records_afterAll before hb (records_of_same h (Ledger.value?_attempt l key))
      cases outcome with
      | ok w =>
        have hkey : (afterAll before (l.attempt key)).value? key = none := by
          rw [value?_of_making List.mem_cons_self before hb, Ledger.value?_attempt, hs]
        rw [Step.after, Step.answer, run_once_of_ok hs, Answer.stores, ← List.append_assoc]
        exact records_store hn hkey w
      | error text =>
        rw [Step.after, Step.answer, run_once_of_error hs, Answer.stores]
        exact hn
  | .insert key w =>
    cases hs : l.value? key with
    | some _ =>
      rw [Step.after, Step.answer, run_insert_of_filled hs, Answer.stores, List.append_nil]
      exact h
    | none =>
      rw [Step.after, Step.answer, run_insert_of_empty hs, Answer.stores]
      exact records_store (records_of_same h (Ledger.value?_touch l key))
        ((Ledger.value?_touch l key key).trans hs) w
  | .contains key =>
    rw [Step.after, Step.answer, run_contains, Answer.stores, List.append_nil]
    exact h
  | .keyText key =>
    rw [after_keyText, Step.answer, Step.run]
    exact (List.append_nil past).symm ▸ h
  | .slotsText =>
    rw [after_slotsText, Step.answer, Step.run]
    exact (List.append_nil past).symm ▸ h

theorem records_afterAll {making : List (Key κ)} {past : List (Entry κ)} (steps : List (Step κ))
    {l : Ledger κ} (hc : ClearAll making steps l) (h : Records l past) :
    Records (afterAll steps l) (past ++ storesOf (reportsOf steps l)) := by
  match steps with
  | [] => exact (List.append_nil past).symm ▸ h
  | step :: rest =>
    rw [afterAll_cons, storesOf_reportsOf_cons, ← List.append_assoc]
    exact records_afterAll rest hc.2 (step.records_after hc.1 h)

end

structure Moment (κ : Type) [Kinds κ] where
  past : List (Entry κ)
  step : Step κ
  ledger : Ledger κ

namespace Moment

def answer (m : Moment κ) : Answer κ := m.step.answer m.ledger

def after (m : Moment κ) : Ledger κ := m.step.after m.ledger

end Moment

inductive Reaches : List (Entry κ) → List (Step κ) → Ledger κ → Moment κ → Prop
  | here {past : List (Entry κ)} {step : Step κ} {rest : List (Step κ)} {l : Ledger κ} :
    Reaches past (step :: rest) l ⟨past, step, l⟩
  | later {past : List (Entry κ)} {step : Step κ} {rest : List (Step κ)} {l : Ledger κ}
      {m : Moment κ} :
    Reaches (past ++ (step.answer l).stores) rest (step.after l) m →
      Reaches past (step :: rest) l m
  | inside {past : List (Entry κ)} {k : Key κ} {outcome : Except String k.Value}
      {before rest : List (Step κ)} {l : Ledger κ} {m : Moment κ} :
    l.value? k = none → Reaches past before (l.attempt k) m →
      Reaches past (.once k outcome before :: rest) l m

/-- At each moment the slots hold what was stored so far, and the step is one that may be taken. -/
theorem Reaches.records {past : List (Entry κ)} {steps : List (Step κ)} {l : Ledger κ}
    {m : Moment κ} (hm : Reaches past steps l m) {making : List (Key κ)}
    (hc : ClearAll making steps l) (h : Records l past) :
    Records m.ledger m.past ∧ ∃ making, m.step.Clear making m.ledger := by
  induction hm generalizing making with
  | here => exact ⟨h, making, hc.1⟩
  | later _ ih => exact ih hc.2 (Step.records_after _ hc.1 h)
  | inside hk _ ih => exact ih (hc.1.2 hk) (records_of_same h (Ledger.value?_attempt _ _))

structure Moment.FirstWins (m : Moment κ) : Prop where
  holds : Records m.ledger m.past
  holds_after : Records m.after (m.past ++ m.answer.stores)
  contains_iff (k : Key κ) : m.step = .contains k →
    m.after = m.ledger ∧
      ∃ yes, m.answer = .present yes ∧ (yes = true ↔ ∃ v, ⟨k, v⟩ ∈ m.past)
  keeps (k : Key κ) (v : k.Value) : ⟨k, v⟩ ∈ m.past →
    m.ledger.value? k = some v ∧ m.after.value? k = some v
  once_filled (k : Key κ) (v : k.Value) (outcome : Except String k.Value)
      (before : List (Step κ)) : ⟨k, v⟩ ∈ m.past → m.step = .once k outcome before →
    m.answer = .value k v none ∧ m.after = m.ledger.count .addHit
  insert_filled (k : Key κ) (v w : k.Value) : ⟨k, v⟩ ∈ m.past → m.step = .insert k w →
    m.answer = .refused k.name ∧ m.after = m.ledger
  once_ok (k : Key κ) (v : k.Value) (before : List (Step κ)) :
    (∀ w, ⟨k, w⟩ ∉ m.past) → m.step = .once k (.ok v) before →
    m.answer = .value k v (some (reportsOf before (m.ledger.attempt k))) ∧
      m.after.value? k = some v
  insert_empty (k : Key κ) (v : k.Value) : (∀ w, ⟨k, w⟩ ∉ m.past) → m.step = .insert k v →
    m.answer = .stored k v ∧ m.after.value? k = some v
  once_error (k : Key κ) (text : String) (before : List (Step κ)) :
    (∀ w, ⟨k, w⟩ ∉ m.past) → m.step = .once k (.error text) before →
    m.answer = .failed text (reportsOf before (m.ledger.attempt k)) ∧
      m.after.value? k = none ∧
      ∀ e ∈ storesOf (reportsOf before (m.ledger.attempt k)), m.after.value? e.1 = some e.2
  apart (k k' : Key κ) : k.name = k'.name → k.kind ≠ k'.kind →
    (∀ v, m.step = .insert k v → m.after.value? k' = m.ledger.value? k') ∧
    ∀ outcome before, m.step = .once k outcome before →
      ((∃ v, ⟨k, v⟩ ∈ m.past) → m.after.value? k' = m.ledger.value? k') ∧
      ((∀ v, ⟨k, v⟩ ∉ m.past) →
        m.after.value? k' = (afterAll before (m.ledger.attempt k)).value? k')

theorem Records.empty_of_notMem {l : Ledger κ} {past : List (Entry κ)} (h : Records l past)
    {k : Key κ} (hk : ∀ v, ⟨k, v⟩ ∉ past) : l.value? k = none :=
  Option.eq_none_iff_forall_ne_some.mpr fun v hv => hk v ((h k v).mp hv)

theorem contains_present (k : Key κ) {l : Ledger κ} {past : List (Entry κ)} (h : Records l past) :
    ∃ yes, (Step.contains k).answer l = .present yes ∧ (yes = true ↔ ∃ v, ⟨k, v⟩ ∈ past) := by
  refine ⟨(l.value? k).isSome, by rw [Step.answer, run_contains], ?_⟩
  rw [Option.isSome_iff_exists]
  exact exists_congr (h k)

theorem once_apart {k k' : Key κ} (hne : k' ≠ k) (l : Ledger κ) (h : l.value? k = none)
    (outcome : Except String k.Value) (before : List (Step κ)) :
    ((Step.once k outcome before).after l).value? k' =
      (afterAll before (l.attempt k)).value? k' := by
  cases outcome with
  | ok v => rw [Step.after, run_once_of_ok h, Ledger.value?_store_of_ne _ _ hne]
  | error text => rw [Step.after, run_once_of_error h]

theorem firstWins_of_records {m : Moment κ} {making : List (Key κ)}
    (hc : m.step.Clear making m.ledger) (h : Records m.ledger m.past) : m.FirstWins := by
  obtain ⟨past, step, l⟩ := m
  have hafter : Records (step.after l) (past ++ (step.answer l).stores) := step.records_after hc h
  constructor
  case holds => exact h
  case holds_after => exact hafter
  case contains_iff =>
    rintro k rfl
    exact ⟨by rw [Moment.after, Step.after, run_contains], contains_present k h⟩
  case keeps =>
    intro k v hp
    have hv := (h k v).mpr hp
    exact ⟨hv, step.after_keeps hv⟩
  case once_filled =>
    rintro k v outcome before hp rfl
    have hv := (h k v).mpr hp
    rw [Moment.answer, Moment.after, Step.answer, Step.after, run_once_of_filled hv, Ledger.hit,
      Ledger.touch_of_filled hv]
    exact ⟨rfl, rfl⟩
  case insert_filled =>
    rintro k v w hp rfl
    rw [Moment.answer, Moment.after, Step.answer, Step.after,
      run_insert_of_filled ((h k v).mpr hp)]
    exact ⟨rfl, rfl⟩
  case once_ok =>
    rintro k v before hk rfl
    rw [Moment.answer, Moment.after, Step.answer, Step.after,
      run_once_of_ok (h.empty_of_notMem hk)]
    exact ⟨rfl, Ledger.value?_store_self _ _ _⟩
  case insert_empty =>
    rintro k v hk rfl
    rw [Moment.answer, Moment.after, Step.answer, Step.after,
      run_insert_of_empty (h.empty_of_notMem hk)]
    exact ⟨rfl, Ledger.value?_store_self _ _ _⟩
  case once_error =>
    rintro k text before hk rfl
    have hs := h.empty_of_notMem hk
    have hempty : (afterAll before (l.attempt k)).value? k = none := by
      rw [value?_of_making List.mem_cons_self before (hc.2 hs), Ledger.value?_attempt, hs]
    rw [Step.after, Step.answer, run_once_of_error hs, Answer.stores] at hafter
    rw [Moment.answer, Moment.after, Step.answer, Step.after, run_once_of_error hs]
    exact ⟨rfl, hempty, fun e he => (hafter e.1 e.2).mpr (List.mem_append_right _ he)⟩
  case apart =>
    intro k k' _ hkind
    have hne : k' ≠ k := fun he => hkind (congrArg Key.kind he.symm)
    refine ⟨?_, ?_⟩
    · rintro v rfl
      exact Step.value?_after _ l (by simpa only [Step.fills, List.mem_singleton] using hne)
    · rintro outcome before rfl
      refine ⟨?_, fun hk => once_apart hne l (h.empty_of_notMem hk) outcome before⟩
      rintro ⟨v, hp⟩
      rw [Moment.after, Step.after, run_once_of_filled ((h k v).mpr hp), Ledger.value?_hit]

theorem records_nil : Records ({} : Ledger κ) [] := by
  intro k v
  rw [Ledger.value?_empty]
  exact iff_of_false (Option.some_ne_none v).symm List.not_mem_nil

/-- On fresh slots the first value stored under a key stays, through look-ups nested to any depth,
failures and repeated attempts, and at the end the slots hold just the values stored on the way. -/
theorem first_store_wins (script : List (Step κ)) (hc : ClearAll [] script {}) :
    Records (afterAll script {}) (storesOf (reportsOf script {})) ∧
      ∀ m, Reaches [] script {} m → m.FirstWins := by
  refine ⟨records_afterAll script hc records_nil, fun m hm => ?_⟩
  obtain ⟨hrecords, making, hclear⟩ := hm.records hc records_nil
  exact firstWins_of_records hclear hrecords

theorem first_store_wins_nested :
    let script : List Script.Step :=
      [.once ⟨.text, "a"⟩ (.ok "x")
        [.once ⟨.number, "a"⟩ (.error "no") [.insert ⟨.list, "b"⟩ ["y"]], .contains ⟨.list, "b"⟩],
      .insert ⟨.text, "a"⟩ "z"]
    ClearAll [] script {} ∧
      Records (afterAll script {}) (storesOf (reportsOf script {})) ∧
      ∀ m, Reaches [] script {} m → m.FirstWins := by
  intro script
  have hc : ClearAll [] script {} := by simp [script, ClearAll, Step.Clear]
  exact ⟨hc, first_store_wins script hc⟩

end Preopt.Once
