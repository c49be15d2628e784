import Preopt.Proofs.Once.Script
import Preopt.Proofs.Session.Requests

/-! Runs of a session: requests and a caller's own scripts in any order, with the files changed in
between. A filled slot keeps its value to the end of the run, and a slot that no script stores into
was filled by one of the requests, from what the slots, the files and the request itself held. -/

namespace Preopt

open Once

inductive Action : Type 1
  | ask {α : Type} (r : Session.Request α)
  | script (step : Script.Step)
  | change (files : FileTree)

/-- An action stores into a slot through a request, or not at all. -/
def Action.Spares (k : Key) : Action → Prop
  | .script step => k ∉ step.fills
  | .ask _ | .change _ => True

def Key.builtIn : List Key :=
  [Key.globalConfig, Key.injectedConfig, Key.systemServerClasspath, Key.bootClasspath,
    Key.image .default, Key.image .apex, Key.image .art]

def Action.SparesBuiltIn (a : Action) : Prop := ∀ k ∈ Key.builtIn, a.Spares k

namespace Session

def act (σ : Session) : Action → Session
  | .ask r => (σ.ask r).2
  | .script step => (σ.runStep step).2
  | .change files => { σ with files := files }

def after (σ : Session) (run : List Action) : Session := run.foldl act σ

inductive Deed : Type 1
  | asked {α : Type} (r : Request α) (result : Except Error α)
  | scripted (step : Script.Step) (answer : Script.Answer)
  | changed (files : FileTree)

def deed (σ : Session) : Action → Deed
  | .ask r => .asked r (σ.ask r).1
  | .script step => .scripted step (σ.runStep step).1
  | .change files => .changed files

def history : Session → List Action → List Deed
  | _, [] => []
  | σ, a :: rest => σ.deed a :: history (σ.act a) rest

def value? (σ : Session) (k : Key) : Option k.Value := σ.ledger.value? k

@[simp] theorem after_nil (σ : Session) : σ.after [] = σ := rfl

@[simp] theorem value?_start (s : Settings) (files : FileTree) (k : Key) :
    (start s files).value? k = none := rfl

theorem settings_act (σ : Session) (a : Action) : (σ.act a).settings = σ.settings := by
  cases a <;> rfl

@[elab_as_elim]
theorem after_induction {motive : Session → Prop} {σ : Session} {run : List Action} (h : motive σ)
    (step : ∀ τ : Session, motive τ → ∀ a ∈ run, motive (τ.act a)) : motive (σ.after run) :=
  List.foldlRecOn run act h step

theorem settings_after (σ : Session) (run : List Action) :
    (σ.after run).settings = σ.settings := by
  refine after_induction rfl fun τ hτ a _ => ?_
  rw [settings_act, hτ]

theorem ask_grows (σ : Session) {α : Type} (r : Request α) :
    ∃ ks, Build.Grows σ.settings σ.files r.supply ks σ.ledger (σ.ask r).2.ledger := by
  obtain ⟨ks, h⟩ := r.work_ensures σ.settings σ.files σ.ledger
  exact ⟨ks, h.1⟩

theorem ask_shows {σ : Session} {α : Type} {r : Request α} {a : α} (h : (σ.ask r).1 = .ok a) :
    r.Shows σ.files (σ.ask r).2.ledger a := by
  obtain ⟨ks, hs⟩ := r.work_ensures σ.settings σ.files σ.ledger
  exact hs.2 a h

theorem act_keeps {σ : Session} {k : Key} {v : k.Value} (h : σ.value? k = some v) (a : Action) :
    (σ.act a).value? k = some v := by
  cases a with
  | ask r =>
    obtain ⟨ks, hg⟩ := σ.ask_grows r
    exact hg.keeps h
  | script step => exact step.after_keeps h
  | change files => exact h

theorem after_keeps {σ : Session} {k : Key} {v : k.Value} (h : σ.value? k = some v)
    (run : List Action) : (σ.after run).value? k = some v := by
  refine after_induction h fun τ hτ a _ => ?_
  exact act_keeps hτ a

/-- A request of a run at which an empty slot was filled, and the session it was made of. -/
def FilledBy (σ : Session) (run : List Action) (k : Key) (τ : Session) {α : Type}
    (r : Request α) : Prop :=
  ∃ before later, run = before ++ .ask r :: later ∧ τ = σ.after before ∧
    τ.value? k = none ∧ ((τ.ask r).2.value? k).isSome

theorem FilledBy.cons {σ τ : Session} {a : Action} {run : List Action} {k : Key} {α : Type}
    {r : Request α} (h : FilledBy (σ.act a) run k τ r) : FilledBy σ (a :: run) k τ r := by
  obtain ⟨before, later, rfl, hτ, hk⟩ := h
  exact ⟨a :: before, later, rfl, hτ, hk⟩

theorem derived_of_act {σ : Session} {a : Action} {k : Key} {v : k.Value} (ha : a.Spares k)
    (hn : σ.value? k = none) (hv : (σ.act a).value? k = some v) :
    ∃ (α : Type) (r : Request α), a = .ask r ∧
      Build.Derived σ.settings σ.files r.supply (σ.act a).ledger k v := by
  cases a with
  | ask r =>
    obtain ⟨ks, hg⟩ := σ.ask_grows r
    exact ⟨_, r, rfl, hg.gained hn hv⟩
  | script step =>
    have hsame := (step.value?_after σ.ledger ha).symm.trans hv
    rw [show σ.ledger.value? k = none from hn] at hsame
    cases hsame
  | change files =>
    rw [show (σ.act (.change files)).value? k = none from hn] at hv
    cases hv

theorem derived_of_filled {σ : Session} {run : List Action} {k : Key} {v : k.Value}
    (hs : ∀ a ∈ run, a.Spares k) (hn : σ.value? k = none) (hv : (σ.after run).value? k = some v) :
    ∃ (τ : Session) (α : Type) (r : Request α), FilledBy σ run k τ r ∧
      Build.Derived σ.settings τ.files r.supply (σ.after run).ledger k v := by
  induction run generalizing σ with
  | nil =>
    rw [after_nil, hn] at hv
    cases hv
  | cons a rest ih =>
    have hrest : ∀ b ∈ rest, b.Spares k := fun b hb => hs b (List.mem_cons_of_mem a hb)
    cases hk : (σ.act a).value? k with
    | none =>
      obtain ⟨τ, α, r, hf, hd⟩ := ih hrest hk hv
      rw [settings_act] at hd
      exact ⟨τ, α, r, hf.cons, hd⟩
    | some w =>
      obtain rfl : w = v := Option.some.inj ((after_keeps hk rest).symm.trans hv)
      obtain ⟨α, r, rfl, hd⟩ := derived_of_act (hs a List.mem_cons_self) hn hk
      refine ⟨σ, α, r, ⟨[], rest, rfl, rfl, hn, ?_⟩, hd.mono fun h => after_keeps h rest⟩
      exact Option.isSome_iff_exists.mpr ⟨w, hk⟩

/-- An answer stays true of the slots for the rest of the run. -/
theorem shows_of_history {σ : Session} {run : List Action} {α : Type} {r : Request α} {a : α}
    (h : .asked r (.ok a) ∈ σ.history run) : ∃ files, r.Shows files (σ.after run).ledger a := by
  induction run generalizing σ with
  | nil => cases h
  | cons b rest ih =>
    rcases List.mem_cons.mp h with h | h
    · cases b with
      | ask r' =>
        have hs {a'} := ask_shows (σ := σ) (r := r') (a := a')
        rw [deed] at h
        generalize (σ.ask r').1 = result at h hs
        cases h
        exact ⟨σ.files, (hs rfl).mono fun hv => after_keeps (σ := σ.act (.ask r)) hv rest⟩
      | script step => cases h
      | change files => cases h
    · exact ih h

theorem deed_mem_history (σ : Session) (before : List Action) (a : Action) (later : List Action) :
    (σ.after before).deed a ∈ σ.history (before ++ a :: later) := by
  induction before generalizing σ with
  | nil => exact List.mem_cons_self
  | cons b rest ih => exact List.mem_cons_of_mem _ (ih _)

theorem asked_of_history {σ : Session} {run : List Action} {α : Type} {r : Request α}
    {result : Except Error α} (h : .asked r result ∈ σ.history run) :
    ∃ before later, run = before ++ .ask r :: later ∧ ((σ.after before).ask r).1 = result := by
  induction run generalizing σ with
  | nil => cases h
  | cons b rest ih =>
    rcases List.mem_cons.mp h with h | h
    · cases b with
      | ask r' =>
        rw [deed] at h
        generalize hresult : (σ.ask r').1 = result' at h
        cases h
        exact ⟨[], rest, rfl, hresult⟩
      | script step => cases h
      | change files => cases h
    · obtain ⟨before, later, rfl, hresult⟩ := ih h
      exact ⟨b :: before, later, rfl, hresult⟩

end Session
end Preopt
