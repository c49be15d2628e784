import Preopt.Proofs.Build.Alike
import Preopt.Proofs.Build.Failure
import Preopt.Proofs.Session.Runs

/-! Failing requests and what comes after them. A request that fails fills no slot and counts
nothing but its attempts, and later requests cannot tell that it was made. A run goes as it would
have gone without its failing requests. -/

namespace Preopt

open Once

def Action.IsService : Action → Prop
  | .script _ => False
  | .ask _ | .change _ => True

theorem Action.IsService.sparesBuiltIn {a : Action} (h : a.IsService) : a.SparesBuiltIn := by
  cases a with
  | ask r => exact fun _ _ => trivial
  | script step => exact h.elim
  | change files => exact fun _ _ => trivial

namespace Session

def Deed.action : Deed → Action
  | .asked r _ => .ask r
  | .scripted step _ => .script step
  | .changed files => .change files

def Deed.Failed (d : Deed) : Prop :=
  ∃ (α : Type) (r : Request α) (e : Error), d = .asked r (.error e)

def Request.attempts {α : Type} : Request α → UInt64
  | .globalConfig => 1
  | _ => 2

theorem Request.work_respects {α : Type} (r : Request α) (s : Settings) (files : FileTree) :
    Work.Respects (r.work s files) := by
  cases r with
  | globalConfig => exact Build.globalConfig_respects s files
  | inject config => exact Build.inject_respects config
  | image v => exact Build.imageWith_respects s files _ _
  | customImage key p => exact Build.imageWith_respects s files key p
  | systemServerClasspath => exact Build.systemServerClasspath_respects s files
  | bootClasspath => exact Build.bootClasspath_respects s files
  | makeVars => exact Build.makeVars_respects s files
  | exportMakeVars strict receiver => exact Build.exportMakeVars_respects s files strict receiver
  | load path => exact Build.loadConfig_respects files path
  | depend path => exact .update fun h => h.depend path

section Request

variable {s : Settings} {files : FileTree} {α : Type} {l l' : Ledger} {e : Error}

theorem Request.work_inVain {r : Request α} (hr : r.IsDerivation) (hs : Build.Sound l)
    (h : Work.on (r.work s files) l = (.error e, l')) :
    Build.InVain s files e r.attempts l l' := by
  cases r with
  | globalConfig => exact Build.globalConfig_error h
  | image v => exact Build.imageWith_error h
  | customImage key p => exact Build.imageWith_error h
  | systemServerClasspath => exact Build.systemServerClasspath_error hs h
  | bootClasspath => exact Build.bootClasspath_error h
  | makeVars => exact Build.makeVars_error hs h
  | exportMakeVars strict receiver => exact Build.exportMakeVars_error hs h
  | inject config | load path | depend path => exact hr.elim

theorem Request.alike_of_error {r : Request α} (hs : Build.Sound l)
    (h : Work.on (r.work s files) l = (.error e, l')) : Alike l l' := by
  cases r with
  | inject config =>
    obtain ⟨result, l₁, hon, hi⟩ := Build.inject_on config l
    obtain ⟨rfl, rfl⟩ := Prod.mk.inj (hon.symm.trans h)
    cases hi
    exact .refl l
  | load path =>
    have hon := (Build.loadConfig_on files path l).symm.trans h
    obtain ⟨hread, rfl⟩ := Prod.mk.inj hon
    rw [hread]
    exact .refl l
  | depend path => cases h
  | _ => exact (Request.work_inVain (by exact trivial) hs h).alike

end Request

structure Alike (σ σ' : Session) : Prop where
  settings : σ.settings = σ'.settings
  files : σ.files = σ'.files
  ledger : Once.Alike σ.ledger σ'.ledger

theorem Alike.refl (σ : Session) : Alike σ σ := ⟨rfl, rfl, .refl σ.ledger⟩

theorem act_sound {σ : Session} {a : Action} (ha : a.SparesBuiltIn) (h : Build.Sound σ.ledger) :
    Build.Sound (σ.act a).ledger := by
  cases a with
  | ask r =>
    obtain ⟨ks, hg⟩ := σ.ask_grows r
    exact h.grows hg
  | script step =>
    have hsame {k : Key} {stored : Option k.Value} (hk : k ∈ Key.builtIn)
        (hv : (σ.act (.script step)).value? k = stored) : σ.value? k = stored :=
      (step.value?_after σ.ledger (ha k hk)).symm.trans hv
    refine ⟨fun hr => h.valid (hsame (by decide) hr),
      fun hr => h.injected_valid (hsame (by decide) hr), fun hv => ?_⟩
    obtain ⟨r, hr⟩ := h.resolved (hsame (by decide) hv)
    exact ⟨r, (step.value?_after σ.ledger (ha _ (by decide))).trans hr⟩
  | change files => exact h

theorem after_sound {σ : Session} {run : List Action} (hrun : ∀ a ∈ run, a.SparesBuiltIn)
    (h : Build.Sound σ.ledger) : Build.Sound (σ.after run).ledger := by
  refine after_induction h fun τ hτ a ha => ?_
  exact act_sound (hrun a ha) hτ

theorem sound_after {σ : Session} {run : List Action} (hrun : ∀ a ∈ run, a.IsService)
    (h : Build.Sound σ.ledger) : Build.Sound (σ.after run).ledger :=
  after_sound (fun a ha => (hrun a ha).sparesBuiltIn) h

theorem sound_start (s : Settings) (files : FileTree) : Build.Sound (start s files).ledger where
  valid h := by cases h
  injected_valid h := by cases h
  resolved h := by cases h

theorem alike_act {σ σ' : Session} (h : Alike σ σ') {a : Action} (ha : a.IsService) :
    σ'.deed a = σ.deed a ∧ Alike (σ.act a) (σ'.act a) := by
  cases a with
  | ask r =>
    obtain ⟨result, l₁, l₁', hon, hon', hl⟩ :=
      r.work_respects σ.settings σ.files _ _ h.ledger
    have hask : σ.ask r = (result, { σ with ledger := l₁ }) := perform_of_on hon
    have hask' : σ'.ask r = (result, { σ' with ledger := l₁' }) := by
      rw [h.settings, h.files] at hon'
      exact perform_of_on hon'
    rw [deed, deed, act, act, hask, hask']
    exact ⟨rfl, h.settings, h.files, hl⟩
  | script step => exact ha.elim
  | change files => exact ⟨rfl, h.settings, rfl, h.ledger⟩

theorem alike_of_failed {σ σ' : Session} (h : Alike σ σ') {a : Action}
    (hs : Build.Sound σ.ledger) (hf : (σ.deed a).Failed) : Alike (σ.act a) σ' := by
  obtain ⟨β, q, e, hd⟩ := hf
  cases a with
  | ask r =>
    cases hon : Work.on (r.work σ.settings σ.files) σ.ledger with
    | mk result l =>
      have hask : σ.ask r = (result, { σ with ledger := l }) := perform_of_on hon
      rw [deed, hask] at hd
      cases hd
      rw [act, hask]
      exact ⟨h.settings, h.files, (Request.alike_of_error hs hon).symm.trans h.ledger⟩
  | script step => cases hd
  | change files => cases hd

theorem action_deed (σ : Session) (a : Action) : (σ.deed a).action = a := by
  cases a <;> rfl

section Kept

variable {keep : Deed → Bool} (hkeep : ∀ d, keep d = false → d.Failed)
include hkeep

/-- What is left of a run without failing requests goes as it went. Both runs are followed at once,
and the shorter one waits at each request left out. -/
theorem history_of_kept {run : List Action} (hrun : ∀ a ∈ run, a.IsService) {σ σ' : Session}
    (hs : Build.Sound σ.ledger) (h : Alike σ σ') :
    let kept := (σ.history run).filter keep
    σ'.history (kept.map Deed.action) = kept ∧
      Alike (σ.after run) (σ'.after (kept.map Deed.action)) := by
  induction run generalizing σ σ' with
  | nil => exact ⟨rfl, h⟩
  | cons a rest ih =>
    have ha : a.IsService := hrun a List.mem_cons_self
    have hrest : ∀ b ∈ rest, b.IsService := fun b hb => hrun b (List.mem_cons_of_mem a hb)
    rw [history]
    cases hk : keep (σ.deed a) with
    | false =>
      rw [List.filter_cons_of_neg (by simp [hk])]
      exact ih hrest (act_sound ha.sparesBuiltIn hs) (alike_of_failed h hs (hkeep _ hk))
    | true =>
      obtain ⟨hdeed, hact⟩ := alike_act h ha
      obtain ⟨hhistory, hafter⟩ := ih hrest (act_sound ha.sparesBuiltIn hs) hact
      rw [List.filter_cons_of_pos hk]
      dsimp only
      rw [List.map_cons, action_deed, history, hdeed]
      exact ⟨congrArg _ hhistory, hafter⟩

end Kept

structure LeavesNoTrace (σ : Session) (run : List Action) : Prop where
  attempt {α : Type} (r : Request α) (e : Error) : r.IsDerivation →
    ((σ.after run).ask r).1 = .error e →
    ((σ.after run).ask r).2.settings = σ.settings ∧
    ((σ.after run).ask r).2.files = (σ.after run).files ∧
    ∃ path, σ.settings.globalConfig = some path ∧
      Build.Fruitless path r.attempts (σ.after run).ledger ((σ.after run).ask r).2.ledger ∧
      ((σ.after run).ask r).2.ledger.dependencies.any path.same = true
  left_out (keep : Deed → Bool) : (∀ d, keep d = false → d.Failed) →
    let kept := (σ.history run).filter keep
    σ.history (kept.map Deed.action) = kept ∧
      Alike (σ.after run) (σ.after (kept.map Deed.action))

theorem attempt_of_sound {σ : Session} (hs : Build.Sound σ.ledger) {α : Type} {r : Request α}
    {e : Error} (hr : r.IsDerivation) (h : (σ.ask r).1 = .error e) :
    ∃ path, σ.settings.globalConfig = some path ∧
      Build.Fruitless path r.attempts σ.ledger (σ.ask r).2.ledger ∧
      (σ.ask r).2.ledger.dependencies.any path.same = true := by
  cases hon : Work.on (r.work σ.settings σ.files) σ.ledger with
  | mk result l =>
    have hask : σ.ask r = (result, { σ with ledger := l }) := perform_of_on hon
    rw [hask] at h ⊢
    obtain rfl : result = .error e := h
    obtain ⟨-, path, hp, -, hf⟩ := Request.work_inVain hr hs hon
    refine ⟨path, hp, hf, ?_⟩
    rw [hf.dependencies]
    exact Ledger.listed_depend _ _

/-- On a build driven by requests alone a failing derivation stores nothing and can be made again,
and a run without its failing requests answers the others and ends as the run with them. -/
theorem failures_leave_no_trace (s : Settings) (files : FileTree) (run : List Action)
    (hrun : ∀ a ∈ run, a.IsService) : LeavesNoTrace (start s files) run where
  attempt r e hr h := by
    have hsettings : ((start s files).after run).settings = s := settings_after _ _
    have hs := sound_after hrun (sound_start s files)
    obtain ⟨path, hp, hf⟩ := attempt_of_sound hs hr h
    rw [hsettings] at hp
    exact ⟨hsettings, rfl, path, hp, hf⟩
  left_out _ hkeep := history_of_kept hkeep hrun (sound_start s files) (.refl _)

theorem failures_leave_no_trace_retried :
    let settings : Settings := { globalConfig := some ⟨"config.yaml"⟩ }
    let written : FileTree := { entries := [(["config.yaml"], some "DisablePreopt: true".toUTF8)] }
    let run : List Action :=
      [.ask .makeVars, .ask (.inject .disabled), .ask .globalConfig, .change written,
        .ask .makeVars]
    (∀ a ∈ run, a.IsService) ∧ LeavesNoTrace (start settings {}) run := by
  intro settings written run
  have hrun : ∀ a ∈ run, a.IsService := by simp [run, Action.IsService]
  exact ⟨hrun, failures_leave_no_trace settings {} run hrun⟩

end Session
end Preopt
