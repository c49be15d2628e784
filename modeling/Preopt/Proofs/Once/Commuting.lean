import Mathlib.Data.UInt
import Preopt.Proofs.Once.Script
import Preopt.Slot

/-! Steps on different slots can be taken in either order. What a step answers and stores follows
from the slots that it touches at any depth of nesting, and it adds to the counters what it adds to
them anywhere else. So a step that touches none of those slots may come before it or after it. Only
a step that shows the whole table looks further. -/

namespace Preopt

def Counters.plus (c : Counters) (computations hits : UInt64) : Counters :=
  { c with computations := c.computations + computations, hits := c.hits + hits }

namespace Counters

variable (c : Counters) (computations computations' hits hits' : UInt64)

theorem plus_zero : c.plus 0 0 = c := by
  rw [plus, add_zero, add_zero]

theorem plus_plus : (c.plus computations hits).plus computations' hits' =
    c.plus (computations + computations') (hits + hits') := by
  simp only [plus, add_assoc]

theorem plus_comm : (c.plus computations hits).plus computations' hits' =
    (c.plus computations' hits').plus computations hits := by
  rw [plus_plus, plus_plus, add_comm computations, add_comm hits]

theorem addHit_plus : (c.plus computations hits).addHit = c.addHit.plus computations hits := by
  simp only [plus, addHit, add_right_comm]

theorem addComputation_plus :
    (c.plus computations hits).addComputation = c.addComputation.plus computations hits := by
  simp only [plus, addComputation, add_right_comm]

end Counters

namespace Once

variable {κ : Type} [Kinds κ]

mutual

def Step.touches : Step κ → List (Key κ)
  | .once k _ before => k :: touchesOf before
  | .insert k _ | .contains k => [k]
  | .keyText _ | .slotsText => []

def touchesOf : List (Step κ) → List (Key κ)
  | [] => []
  | step :: rest => step.touches ++ touchesOf rest

end

mutual

def Step.IsLocal : Step κ → Prop
  | .once _ _ before => AllLocal before
  | .insert .. | .contains _ | .keyText _ => True
  | .slotsText => False

def AllLocal : List (Step κ) → Prop
  | [] => True
  | step :: rest => step.IsLocal ∧ AllLocal rest

end

mutual

def Answer.bare : Answer κ → Answer κ
  | .value k v (some nested) => .value k v (some (bareAll nested))
  | .failed text nested => .failed text (bareAll nested)
  | .value k v none => .value k v none
  | .stored k v => .stored k v
  | .refused name => .refused name
  | .present yes => .present yes
  | .text text => .text text

def bareAll : List (Report κ) → List (Report κ)
  | [] => []
  | .mk answer _ :: rest => .mk answer.bare {} :: bareAll rest

end

def Answer.ran : Answer κ → Bool
  | .value _ _ nested => nested.isSome
  | .failed .. => true
  | _ => false

theorem Answer.ran_bare (a : Answer κ) : a.bare.ran = a.ran := by
  cases a with
  | value k v nested => cases nested <;> simp [bare, ran]
  | _ => simp [bare, ran]

mutual

theorem Step.mem_touches_of_fills {k : Key κ} (step : Step κ) (h : k ∈ step.fills) :
    k ∈ step.touches := by
  match step with
  | .once key _ before =>
    rw [Step.fills] at h
    rw [Step.touches]
    rcases List.mem_cons.mp h with rfl | h
    · exact List.mem_cons_self
    · exact List.mem_cons_of_mem key (mem_touchesOf_of_fillsOf before h)
  | .insert key _ => exact h
  | .contains _ | .keyText _ | .slotsText =>
    rw [Step.fills] at h
    cases h

theorem mem_touchesOf_of_fillsOf {k : Key κ} (steps : List (Step κ)) (h : k ∈ fillsOf steps) :
    k ∈ touchesOf steps := by
  match steps with
  | [] => cases h
  | step :: rest =>
    rw [fillsOf] at h
    rw [touchesOf]
    rcases List.mem_append.mp h with h | h
    · exact List.mem_append_left _ (step.mem_touches_of_fills h)
    · exact List.mem_append_right _ (mem_touchesOf_of_fillsOf rest h)

end

variable [DecidableEq κ]

theorem Step.value?_after_of_notMem {k : Key κ} (step : Step κ) (l : Ledger κ)
    (h : k ∉ step.touches) : (step.after l).value? k = l.value? k :=
  step.value?_after l fun hk => h (step.mem_touches_of_fills hk)

/-- Whatever a step does, it adds to two of the counters and leaves the others. -/
theorem Step.exists_plus (step : Step κ) (l : Ledger κ) :
    ∃ computations hits, (step.after l).counters = l.counters.plus computations hits := by
  have hstable : Stable
      (fun l' : Ledger κ => ∃ computations hits, l'.counters = l.counters.plus computations hits)
      fun _ => True := by
    constructor
    case touch => exact fun _ h => h
    case store => exact fun _ _ h => h
    case hit =>
      rintro l' k ⟨computations, hits, h⟩
      refine ⟨computations, hits + 1, ?_⟩
      rw [Ledger.hit, Ledger.count, Ledger.touch, h]
      simp only [Counters.addHit, Counters.plus, add_assoc]
    case attempt =>
      rintro l' k ⟨computations, hits, h⟩
      refine ⟨computations + 1, hits, ?_⟩
      rw [Ledger.attempt, Ledger.report, Ledger.count, Ledger.touch, h]
      simp only [Counters.addComputation, Counters.plus, add_assoc]
  exact hstable.after step (fun _ _ => trivial) ⟨0, 0, (Counters.plus_zero _).symm⟩

structure Alongside (S : Key κ → Prop) (computations hits : UInt64) (l l' : Ledger κ) :
    Prop where
  value? {k : Key κ} : S k → l'.value? k = l.value? k
  counters : l'.counters = l.counters.plus computations hits

namespace Alongside

variable {S : Key κ → Prop} {computations hits : UInt64} {l l' : Ledger κ}
  (h : Alongside S computations hits l l')
include h

theorem touch (k : Key κ) : Alongside S computations hits (l.touch k) (l'.touch k) where
  value? hk := by rw [Ledger.value?_touch, Ledger.value?_touch, h.value? hk]
  counters := h.counters

theorem hit (k : Key κ) : Alongside S computations hits (l.hit k) (l'.hit k) where
  value? hk := by rw [Ledger.value?_hit, Ledger.value?_hit, h.value? hk]
  counters := by
    change l'.counters.addHit = l.counters.addHit.plus computations hits
    rw [h.counters, Counters.addHit_plus]

theorem attempt (k : Key κ) : Alongside S computations hits (l.attempt k) (l'.attempt k) where
  value? hk := by rw [Ledger.value?_attempt, Ledger.value?_attempt, h.value? hk]
  counters := by
    change l'.counters.addComputation = l.counters.addComputation.plus computations hits
    rw [h.counters, Counters.addComputation_plus]

theorem store (k : Key κ) (v : k.Value) :
    Alongside S computations hits (l.store k v) (l'.store k v) where
  value? {k'} hk := by
    by_cases hne : k' = k
    · subst hne
      rw [Ledger.value?_store_self, Ledger.value?_store_self]
    · rw [Ledger.value?_store_of_ne _ _ hne, Ledger.value?_store_of_ne _ _ hne, h.value? hk]
  counters := h.counters

end Alongside

section Local

variable {S : Key κ → Prop} {computations hits : UInt64}

mutual

/-- A step does the same on ledgers that store the same under the keys it touches. -/
theorem Step.alongside (step : Step κ) {l l' : Ledger κ} (hl : step.IsLocal)
    (hs : ∀ k ∈ step.touches, S k) (h : Alongside S computations hits l l') :
    (step.answer l').bare = (step.answer l).bare ∧
      Alongside S computations hits (step.after l) (step.after l') := by
  match step with
  | .once key outcome before =>
    obtain ⟨hkey, hbefore⟩ : S key ∧ ∀ k ∈ touchesOf before, S k := by
      simpa only [Step.touches, List.forall_mem_cons] using hs
    have hsame := h.value? hkey
    cases hk : l.value? key with
    | some w =>
      have hk' : l'.value? key = some w := hsame.trans hk
      rw [Step.answer, Step.answer, Step.after, Step.after, run_once_of_filled hk,
        run_once_of_filled hk']
      exact ⟨rfl, h.hit key⟩
    | none =>
      have hk' : l'.value? key = none := hsame.trans hk
      rw [Step.IsLocal] at hl
      obtain ⟨hreports, hafter⟩ := alongside_afterAll before hl hbefore (h.attempt key)
      cases outcome with
      | ok w =>
        rw [Step.answer, Step.answer, Step.after, Step.after, run_once_of_ok hk,
          run_once_of_ok hk']
        exact ⟨by rw [Answer.bare, Answer.bare, hreports], hafter.store key w⟩
      | error text =>
        rw [Step.answer, Step.answer, Step.after, Step.after, run_once_of_error hk,
          run_once_of_error hk']
        exact ⟨by rw [Answer.bare, Answer.bare, hreports], hafter⟩
  | .insert key w =>
    have hsame := h.value? (hs key List.mem_cons_self)
    cases hk : l.value? key with
    | some _ =>
      have hk' := hsame.trans hk
      rw [Step.answer, Step.answer, Step.after, Step.after, run_insert_of_filled hk,
        run_insert_of_filled hk']
      exact ⟨rfl, h⟩
    | none =>
      have hk' := hsame.trans hk
      rw [Step.answer, Step.answer, Step.after, Step.after, run_insert_of_empty hk,
        run_insert_of_empty hk']
      exact ⟨rfl, (h.touch key).store key w⟩
  | .contains key =>
    rw [Step.answer, Step.answer, Step.after, Step.after, run_contains, run_contains,
      h.value? (hs key List.mem_cons_self)]
    exact ⟨rfl, h⟩
  | .keyText key =>
    rw [after_keyText, after_keyText, Step.answer, Step.answer, Step.run]
    exact ⟨rfl, h⟩
  | .slotsText => exact hl.elim

theorem alongside_afterAll (steps : List (Step κ)) {l l' : Ledger κ} (hl : AllLocal steps)
    (hs : ∀ k ∈ touchesOf steps, S k) (h : Alongside S computations hits l l') :
    bareAll (reportsOf steps l') = bareAll (reportsOf steps l) ∧
      Alongside S computations hits (afterAll steps l) (afterAll steps l') := by
  match steps with
  | [] => exact ⟨rfl, h⟩
  | step :: rest =>
    obtain ⟨hstep, hrest⟩ : (∀ k ∈ step.touches, S k) ∧ ∀ k ∈ touchesOf rest, S k :=
      List.forall_mem_append.mp hs
    obtain ⟨hanswer, hafter⟩ := step.alongside hl.1 hstep h
    obtain ⟨hreports, hend⟩ := alongside_afterAll rest hl.2 hrest hafter
    rw [reportsOf_cons, reportsOf_cons, bareAll, bareAll, hanswer, hreports, afterAll_cons,
      afterAll_cons]
    exact ⟨rfl, hend⟩

end

end Local

/-- A step finds the keys it touches as they were before a step that touches none of them. -/
theorem Step.exists_alongside {a b : Step κ} (h : a.touches.Disjoint b.touches) (l : Ledger κ) :
    ∃ computations hits, (b.after l).counters = l.counters.plus computations hits ∧
      Alongside (· ∈ a.touches) computations hits l (b.after l) := by
  obtain ⟨computations, hits, hcounters⟩ := b.exists_plus l
  refine ⟨computations, hits, hcounters, ?_, hcounters⟩
  exact fun hk => b.value?_after_of_notMem l fun hk' => h hk hk'

structure Commute (a b : Step κ) (l : Ledger κ) : Prop where
  answer_left : (a.answer (b.after l)).bare = (a.answer l).bare
  answer_right : (b.answer (a.after l)).bare = (b.answer l).bare
  ran_left : (a.answer (b.after l)).ran = (a.answer l).ran
  ran_right : (b.answer (a.after l)).ran = (b.answer l).ran
  value? (k : Key κ) : (b.after (a.after l)).value? k = (a.after (b.after l)).value? k
  counters : (b.after (a.after l)).counters = (a.after (b.after l)).counters
  frame_left (k : Key κ) : k ∉ a.touches → (a.after l).value? k = l.value? k
  frame_right (k : Key κ) : k ∉ b.touches → (b.after l).value? k = l.value? k

/-- Steps commute that touch different slots, whatever the slots hold, and however the work behind
them nests and fails. -/
theorem different_slots_commute (a b : Step κ) (ha : a.IsLocal) (hb : b.IsLocal)
    (h : a.touches.Disjoint b.touches) (l : Ledger κ) : Commute a b l := by
  obtain ⟨computationsB, hitsB, hcountersB, hsameA⟩ := Step.exists_alongside h l
  obtain ⟨computationsA, hitsA, hcountersA, hsameB⟩ := Step.exists_alongside h.symm l
  obtain ⟨hanswerA, hafterA⟩ := a.alongside ha (fun _ hk => hk) hsameA
  obtain ⟨hanswerB, hafterB⟩ := b.alongside hb (fun _ hk => hk) hsameB
  constructor
  case answer_left => exact hanswerA
  case answer_right => exact hanswerB
  case ran_left => rw [← Answer.ran_bare, hanswerA, Answer.ran_bare]
  case ran_right => rw [← Answer.ran_bare, hanswerB, Answer.ran_bare]
  case value? =>
    intro k
    -- at most one of the two steps touches the key, and the other one leaves it alone
    by_cases hk : k ∈ a.touches
    · have hk' : k ∉ b.touches := fun hk' => h hk hk'
      rw [b.value?_after_of_notMem _ hk', hafterA.value? hk]
    · rw [a.value?_after_of_notMem _ hk]
      by_cases hk' : k ∈ b.touches
      · exact hafterB.value? hk'
      · rw [b.value?_after_of_notMem _ hk', b.value?_after_of_notMem _ hk',
          a.value?_after_of_notMem _ hk]
  case counters =>
    rw [hafterA.counters, hafterB.counters, hcountersA, hcountersB, Counters.plus_comm]
  case frame_left => exact fun k hk => a.value?_after_of_notMem l hk
  case frame_right => exact fun k hk => b.value?_after_of_notMem l hk

theorem different_slots_commute_same_name :
    let first : Script.Step := .insert ⟨.text, "b"⟩ "y"
    let number : Script.Step := .once ⟨.number, "b"⟩ (.ok (1 : Int)) [.contains ⟨.list, "c"⟩]
    let a : Script.Step := .once ⟨.text, "a"⟩ (.error "no") [number]
    let b : Script.Step := .once ⟨.number, "a"⟩ (.ok (2 : Int)) [first]
    a.IsLocal ∧ b.IsLocal ∧ a.touches.Disjoint b.touches ∧ Commute a b (afterAll [first] {}) := by
  intro first number a b
  have ha : a.IsLocal := by simp [a, number, Step.IsLocal, AllLocal]
  have hb : b.IsLocal := by simp [b, first, Step.IsLocal, AllLocal]
  have h : a.touches.Disjoint b.touches := by
    simp [a, b, number, first, Step.touches, touchesOf]
  exact ⟨ha, hb, h, different_slots_commute a b ha hb h _⟩

end Once
end Preopt
