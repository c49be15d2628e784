import Preopt.Proofs.Build.Prospect
import Preopt.Proofs.Session.Retries

/-! Success that lasts. Only valid configs are stored, whether they are read or injected, so that
deriving from one cannot fail. Derivations fail for want of a config alone: without a config file
none fails, and after one was answered no other fails any more. -/

namespace Preopt

open Once

def Action.SparesImages (a : Action) : Prop := ∀ name, a.Spares ⟨.image, name⟩

theorem Build.Derived.resolved {s : Settings} {files : FileTree} {given : Supply} {l : Ledger}
    {k : Key} {v : k.Value} (h : Derived s files given l k v)
    (hk : k = Key.systemServerClasspath ∨ k = Key.bootClasspath ∨ k.kind = .image) :
    ∃ r : Resolved, l.value? Key.globalConfig = some r := by
  obtain ⟨kind, name⟩ := k
  rcases hk with hk | hk | hk
  · cases hk
    obtain ⟨r, hr, -⟩ := h.1 rfl
    exact ⟨r, hr⟩
  · cases hk
    obtain ⟨r, -, hr, -⟩ := h.2 rfl
    exact ⟨r, hr⟩
  · cases hk
    obtain ⟨-, r, -, hr, -⟩ := h
    exact ⟨r, hr⟩

namespace Session

def prospect (σ : Session) : Except Error Resolved :=
  Build.prospect σ.settings σ.files σ.ledger

section Failing

variable {σ : Session} (hs : Build.Sound σ.ledger)
include hs

theorem prospect_of_error {α : Type} {r : Request α} {e : Error} (hr : r.IsDerivation)
    (h : (σ.ask r).1 = .error e) : σ.prospect = .error e := by
  have hon := on_ask σ r
  rw [h] at hon
  exact (Request.work_inVain hr hs hon).prospect_eq

theorem ask_ne_unusable {α : Type} (r : Request α) {fault : GlobalConfig.Fault} :
    (σ.ask r).1 ≠ .error (.unusableConfig fault) := by
  have hderivation (hr : r.IsDerivation) : (σ.ask r).1 ≠ .error (.unusableConfig fault) := by
    intro h
    obtain ⟨path, -, hread⟩ := Build.readConfig_of_prospect_error (prospect_of_error hs hr h)
    exact Build.readConfig_ne_unusable hread
  cases r with
  | inject config =>
    have hresult : (σ.ask (.inject config)).1 = _ := Build.inject_result config σ.ledger
    rw [hresult]
    split
    · simp
    · split
      · simp
      · split <;> simp
  | load path =>
    have hon : σ.ask (.load path) = _ := perform_of_on (Build.loadConfig_on σ.files path σ.ledger)
    rw [hon]
    exact Build.contents_ne_unusable
  | depend path => exact fun h => by cases h
  | _ => exact hderivation trivial

end Failing

section Run

variable {σ : Session} {run : List Action} (empty : ∀ k, σ.value? k = none)
include empty

theorem resolved_of_filled {k : Key} {v : k.Value} (hs : ∀ a ∈ run, a.Spares k)
    (hk : k = Key.systemServerClasspath ∨ k = Key.bootClasspath ∨ k.kind = .image)
    (h : (σ.after run).value? k = some v) :
    ∃ config : Resolved, (σ.after run).value? Key.globalConfig = some config := by
  obtain ⟨τ, α, r, -, hd⟩ := derived_of_filled hs (empty k) h
  exact hd.resolved hk

theorem resolved_of_answered (hs : ∀ a ∈ run, a.SparesBuiltIn) (hi : ∀ a ∈ run, a.SparesImages)
    {α : Type} {r : Request α} {a : α} (hr : r.IsDerivation)
    (h : .asked r (.ok a) ∈ σ.history run) :
    ∃ config : Resolved, (σ.after run).value? Key.globalConfig = some config := by
  have himage {name : String} {i : Image} (hv : (σ.after run).value? ⟨.image, name⟩ = some i) :=
    resolved_of_filled empty (fun b hb => hi b hb name) (Or.inr (Or.inr rfl)) hv
  have hserver {v : List String}
      (hv : (σ.after run).value? Key.systemServerClasspath = some v) :=
    resolved_of_filled empty (fun b hb => hs b hb _ (by decide)) (Or.inl rfl) hv
  obtain ⟨files, hshows⟩ := shows_of_history h
  cases r with
  | globalConfig => exact ⟨a, hshows⟩
  | image v => exact himage hshows
  | customImage key p => exact himage hshows
  | systemServerClasspath => exact hserver hshows
  | bootClasspath =>
    exact resolved_of_filled empty (fun b hb => hs b hb _ (by decide)) (Or.inr (Or.inl rfl)) hshows
  | makeVars =>
    obtain ⟨boot, image, systemServer, -, -, hv, -⟩ := hshows
    exact hserver hv
  | exportMakeVars strict receiver =>
    obtain ⟨vars, ⟨boot, image, systemServer, -, -, hv, -⟩, -⟩ := hshows
    exact hserver hv
  | inject config | load path | depend path => exact hr.elim

end Run

structure Reliable (σ : Session) (run : List Action) : Prop where
  globalConfig (r : Resolved) : (σ.after run).value? Key.globalConfig = some r →
    r.config.validate = .ok ()
  injectedConfig (r : Resolved) : (σ.after run).value? Key.injectedConfig = some r →
    r.config.validate = .ok ()
  usable {α : Type} (r : Request α) (fault : GlobalConfig.Fault) :
    .asked r (.error (.unusableConfig fault)) ∉ σ.history run
  lasting (earlier later : List Action) {α : Type} (r : Request α) (a : α) :
    run = earlier ++ later → (∀ b ∈ earlier, b.SparesImages) → r.IsDerivation →
    .asked r (.ok a) ∈ σ.history earlier → ∀ {β : Type} (q : Request β) (e : Error),
      q.IsDerivation → .asked q (.error e) ∉ (σ.after earlier).history later
  unconfigured : σ.settings.globalConfig = none → ∀ {α : Type} (r : Request α) (e : Error),
    r.IsDerivation → .asked r (.error e) ∉ σ.history run

theorem no_failure_of_resolved {σ : Session} {run : List Action} {config : Resolved}
    (hs : ∀ a ∈ run, a.SparesBuiltIn) (hsound : Build.Sound σ.ledger)
    (hconfig : σ.value? Key.globalConfig = some config) {α : Type} {r : Request α} {e : Error}
    (hr : r.IsDerivation) : .asked r (.error e) ∉ σ.history run := by
  intro h
  obtain ⟨before, later, rfl, hfailed⟩ := asked_of_history h
  have hbefore := after_sound (fun a ha => hs a (List.mem_append_left _ ha)) hsound
  have herror := prospect_of_error hbefore hr hfailed
  have hkept : (σ.after before).value? Key.globalConfig = some config := after_keeps hconfig before
  rw [prospect, Build.prospect_of_resolved hkept] at herror
  cases herror

/-- On a build whose slots are its own, what is resolved is valid, and success lasts. -/
theorem valid_configs_are_reliable (s : Settings) (files : FileTree) (run : List Action)
    (hs : ∀ a ∈ run, a.SparesBuiltIn) : Reliable (start s files) run := by
  have hsound {run' : List Action} (h : ∀ a ∈ run', a.SparesBuiltIn) :
      Build.Sound ((start s files).after run').ledger := after_sound h (sound_start s files)
  constructor
  case globalConfig => exact fun r => (hsound hs).valid
  case injectedConfig => exact fun r => (hsound hs).injected_valid
  case usable =>
    intro α r fault h
    obtain ⟨before, later, rfl, hfailed⟩ := asked_of_history h
    exact ask_ne_unusable (hsound fun a ha => hs a (List.mem_append_left _ ha)) r hfailed
  case lasting =>
    rintro earlier later α r a rfl hi hr hanswered β q e hq
    have hearlier : ∀ b ∈ earlier, b.SparesBuiltIn := fun b hb => hs b (List.mem_append_left _ hb)
    obtain ⟨config, hconfig⟩ :=
      resolved_of_answered (value?_start s files) hearlier hi hr hanswered
    exact no_failure_of_resolved (fun b hb => hs b (List.mem_append_right _ hb))
      (hsound hearlier) hconfig hq
  case unconfigured =>
    intro hp α r e hr h
    obtain ⟨before, later, rfl, hfailed⟩ := asked_of_history h
    have hbefore := hsound fun a ha => hs a (List.mem_append_left _ ha)
    obtain ⟨path, hpath, -⟩ :=
      Build.readConfig_of_prospect_error (prospect_of_error hbefore hr hfailed)
    rw [settings_after, hp] at hpath
    cases hpath

theorem valid_configs_are_reliable_mended :
    let settings : Settings := { globalConfig := some ⟨"config.yaml"⟩ }
    let holding (text : String) : FileTree := { entries := [(["config.yaml"], some text.toUTF8)] }
    let mended := holding "UpdatableSystemServerJars: [a:b]"
    let run : List Action :=
      [.ask .systemServerClasspath, .change mended,
        .ask (.customImage "own" Variant.apex.profile), .script (.insert ⟨.text, "own"⟩ "x"),
        .change (mended.remove ⟨"config.yaml"⟩), .ask .makeVars]
    (∀ a ∈ run, a.SparesBuiltIn) ∧
      Reliable (start settings (holding "UpdatableSystemServerJars: [a]")) run := by
  intro settings holding mended run
  have hs : ∀ a ∈ run, a.SparesBuiltIn := by
    simp [run, Action.SparesBuiltIn, Action.Spares, Step.fills, Key.builtIn, Key.image,
      Key.globalConfig, Key.injectedConfig, Key.systemServerClasspath, Key.bootClasspath]
  exact ⟨hs, valid_configs_are_reliable settings _ run hs⟩

end Session
end Preopt
