import Preopt.Proofs.Session.Provenance
import Preopt.Proofs.Session.Success

/-! When a config can be injected. A resolved config is in the way of every injection, then an
invalid config is in its own way, and then an earlier injection. Failing derivations leave all of
this as it is, and one that is answered leaves a resolved config behind. -/

namespace Preopt.Session

open Once

theorem ask_inject (σ : Session) (config : GlobalConfig) :
    (σ.ask (.inject config)).1 =
      if (σ.value? Key.globalConfig).isSome then .error .lateInjection
      else
        match config.validate with
        | .error fault => .error (.invalidConfig fault)
        | .ok _ =>
          if (σ.value? Key.injectedConfig).isSome then .error .lateInjection else .ok () :=
  Build.inject_result config σ.ledger

theorem ask_inject_of_same {σ σ' : Session} (h : ∀ k : Key, σ'.value? k = σ.value? k)
    (config : GlobalConfig) : (σ'.ask (.inject config)).1 = (σ.ask (.inject config)).1 := by
  rw [ask_inject, ask_inject, h, h]

theorem session_of_refused {σ : Session} {config : GlobalConfig} {e : Error}
    (h : (σ.ask (.inject config)).1 = .error e) : (σ.ask (.inject config)).2 = σ := by
  obtain ⟨result, l, hon, hi⟩ := Build.inject_on config σ.ledger
  have hask : σ.ask (.inject config) = _ := perform_of_on hon
  rw [hask] at h ⊢
  cases hi with
  | refused e' => rfl
  | stored hg hempty hv => cases h

structure InjectionRules (σ : Session) (run : List Action) : Prop where
  resolved (config : GlobalConfig) : ((σ.after run).value? Key.globalConfig).isSome →
    ((σ.after run).ask (.inject config)).1 = .error .lateInjection
  invalid (config : GlobalConfig) (fault : GlobalConfig.Fault) :
    (σ.after run).value? Key.globalConfig = none → config.validate = .error fault →
    ((σ.after run).ask (.inject config)).1 = .error (.invalidConfig fault)
  second (config earlier : GlobalConfig) :
    (σ.after run).value? Key.globalConfig = none → config.validate = .ok () →
    Injected σ run earlier → ((σ.after run).ask (.inject config)).1 = .error .lateInjection
  first (config : GlobalConfig) :
    (σ.after run).value? Key.globalConfig = none → config.validate = .ok () →
    (∀ earlier, ¬ Injected σ run earlier) → ((σ.after run).ask (.inject config)).1 = .ok ()
  refused (config : GlobalConfig) (e : Error) :
    ((σ.after run).ask (.inject config)).1 = .error e →
    ((σ.after run).ask (.inject config)).2 = σ.after run
  left_open {α : Type} (r : Request α) (e : Error) : r.IsDerivation →
    ((σ.after run).ask r).1 = .error e → ∀ config : GlobalConfig,
      (((σ.after run).ask r).2.ask (.inject config)).1 =
        ((σ.after run).ask (.inject config)).1
  closed {α : Type} (r : Request α) (a : α) : (∀ b ∈ run, b.SparesImages) → r.IsDerivation →
    .asked r (.ok a) ∈ σ.history run → ∀ (later : List Action) (config : GlobalConfig),
      (((σ.after run).after later).ask (.inject config)).1 = .error .lateInjection

theorem lateInjection_of_resolved {σ : Session} {r : Resolved}
    (h : σ.value? Key.globalConfig = some r) (config : GlobalConfig) :
    (σ.ask (.inject config)).1 = .error .lateInjection := by
  rw [ask_inject, h]
  rfl

/-- Before a resolution the slot of injected configs holds none but what was injected. -/
theorem injectedConfig_isSome_iff {σ : Session} {run : List Action}
    (empty : ∀ k, σ.value? k = none) (hs : ∀ a ∈ run, a.SparesBuiltIn)
    (hn : (σ.after run).value? Key.globalConfig = none) :
    ((σ.after run).value? Key.injectedConfig).isSome ↔ ∃ config, Injected σ run config := by
  constructor
  · intro h
    obtain ⟨r, hr⟩ := Option.isSome_iff_exists.mp h
    rcases origin_of_injectedConfig empty hs hr with ⟨-, -, hg⟩ | ⟨config, hc, -⟩
    · rw [hn] at hg
      cases hg
    · exact ⟨config, hc⟩
  · rintro ⟨config, hc⟩
    rw [value?_of_injected hc]
    rfl

/-- On a build whose slots are its own, a valid config is injected as long as none is resolved and
none was injected before. -/
theorem injection_rules_hold (s : Settings) (files : FileTree) (run : List Action)
    (hs : ∀ a ∈ run, a.SparesBuiltIn) : InjectionRules (start s files) run := by
  have empty := value?_start s files
  constructor
  case resolved =>
    intro config h
    obtain ⟨r, hr⟩ := Option.isSome_iff_exists.mp h
    exact lateInjection_of_resolved hr config
  case invalid =>
    intro config fault hn hv
    rw [ask_inject, hn, hv]
    rfl
  case second =>
    intro config earlier hn hv hc
    have hsome := (injectedConfig_isSome_iff empty hs hn).mpr ⟨earlier, hc⟩
    rw [ask_inject, hn, hv, hsome]
    rfl
  case first =>
    intro config hn hv hnone
    have hempty := mt (injectedConfig_isSome_iff empty hs hn).mp (not_exists.mpr hnone)
    rw [ask_inject, hn, hv]
    simp [hempty]
  case refused => exact fun config e => session_of_refused
  case left_open =>
    intro α r e hr he config
    obtain ⟨path, -, hf, -⟩ := attempt_of_sound (after_sound hs (sound_start s files)) hr he
    exact ask_inject_of_same hf.value? config
  case closed =>
    intro α r a hi hr ha later config
    obtain ⟨resolved, hresolved⟩ := resolved_of_answered empty hs hi hr ha
    exact lateInjection_of_resolved (after_keeps hresolved later) config

theorem injection_rules_hold_retried :
    let settings : Settings := { globalConfig := some ⟨"config.yaml"⟩ }
    let twice : GlobalConfig := { bootJars := ["core-oj", "core-oj"] }
    let run : List Action :=
      [.ask .makeVars, .ask (.inject .disabled), .script (.insert ⟨.config, "own"⟩ Build.fallback),
        .ask (.inject twice), .ask (.customImage "own" Variant.art.profile), .ask (.inject {})]
    (∀ a ∈ run, a.SparesBuiltIn) ∧ InjectionRules (start settings {}) run := by
  intro settings twice run
  have hs : ∀ a ∈ run, a.SparesBuiltIn := by
    simp [run, Action.SparesBuiltIn, Action.Spares, Step.fills, Key.builtIn, Key.image,
      Key.globalConfig, Key.injectedConfig, Key.systemServerClasspath, Key.bootClasspath]
  exact ⟨hs, injection_rules_hold settings {} run hs⟩

end Preopt.Session
