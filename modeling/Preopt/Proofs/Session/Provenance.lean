import Preopt.Proofs.Session.Runs

/-! Where a resolved config came from. A configured file is the source of the config, without one
the injection is, and without either the fallback, which is reported once. The slot of injected
configs tells the latter two apart, and holds in either case what the global config's slot holds. -/

namespace Preopt.Session

open Once

def Injected (σ : Session) (run : List Action) (config : GlobalConfig) : Prop :=
  .asked (.inject config) (.ok ()) ∈ σ.history run

structure ComesFrom (σ : Session) (run : List Action) (r : Resolved) : Prop where
  file (path : Path) : σ.settings.globalConfig = some path →
    r.source = .file path ∧ ∃ (τ : Session) (α : Type) (q : Request α) (bytes : ByteArray),
      FilledBy σ run Key.globalConfig τ q ∧ τ.files.read path = .ok bytes ∧
        r.raw = some bytes ∧ GlobalConfig.ofBytes bytes = .ok r.config
  injected (config : GlobalConfig) : σ.settings.globalConfig = none → Injected σ run config →
    r = ⟨config, none, .injected⟩
  fallback : σ.settings.globalConfig = none → (∀ config, ¬ Injected σ run config) →
    r = ⟨.disabled, none, .fallback⟩
  stays (later : List Action) : ((σ.after run).after later).value? Key.globalConfig = some r

def FellBack (σ : Session) (run : List Action) : Prop :=
  ((σ.after run).value? Key.globalConfig).isSome ∧ σ.settings.globalConfig = none ∧
    ∀ config, ¬ Injected σ run config

theorem inject_ok_of_filled {τ : Session} {config : GlobalConfig}
    (hn : τ.value? Key.injectedConfig = none)
    (hf : ((τ.ask (.inject config)).2.value? Key.injectedConfig).isSome) :
    (τ.ask (.inject config)).1 = .ok () := by
  obtain ⟨result, l', hon, hr⟩ := Build.inject_on config τ.ledger
  have hask : τ.ask (.inject config) = _ := perform_of_on hon
  rw [hask] at hf ⊢
  cases hr with
  | refused e =>
    rw [show ({ τ with ledger := τ.ledger } : Session) = τ from rfl, hn] at hf
    cases hf
  | stored hg hi hv => rfl

theorem injected_of_filledBy {σ τ : Session} {run : List Action} {α : Type} {q : Request α}
    {config : GlobalConfig} (hf : FilledBy σ run Key.injectedConfig τ q)
    (hc : q.supply.config config) : Injected σ run config := by
  cases q with
  | inject c =>
    obtain rfl : config = c := hc
    obtain ⟨before, later, rfl, rfl, hn, hsome⟩ := hf
    have hmem := deed_mem_history σ before (.ask (.inject config)) later
    rw [deed, inject_ok_of_filled hn hsome] at hmem
    exact hmem
  | _ => exact hc.elim

theorem value?_of_injected {σ : Session} {run : List Action} {config : GlobalConfig}
    (h : Injected σ run config) :
    (σ.after run).value? Key.injectedConfig = some (⟨config, none, .injected⟩ : Resolved) := by
  obtain ⟨files, hs⟩ := shows_of_history h
  exact hs

section Run

variable {σ : Session} {run : List Action} (empty : ∀ k, σ.value? k = none)
  (hs : ∀ a ∈ run, a.SparesBuiltIn)
include empty hs

theorem derived_of_globalConfig {r : Resolved}
    (h : (σ.after run).value? Key.globalConfig = some r) :
    ∃ (τ : Session) (α : Type) (q : Request α), FilledBy σ run Key.globalConfig τ q ∧
      (∀ path, σ.settings.globalConfig = some path → Build.readConfig τ.files path = .ok r) ∧
      (σ.settings.globalConfig = none → (σ.after run).value? Key.injectedConfig = some r) := by
  obtain ⟨τ, α, q, hf, hd⟩ :=
    derived_of_filled (fun a ha => hs a ha _ (by decide)) (empty _) h
  exact ⟨τ, α, q, hf, hd.1 rfl⟩

/-- The slot of injected configs holds the fallback, for a resolved build without a config file, or
a config that was injected. -/
theorem origin_of_injectedConfig {r : Resolved}
    (h : (σ.after run).value? Key.injectedConfig = some r) :
    (σ.settings.globalConfig = none ∧ r = Build.fallback ∧
      ((σ.after run).value? Key.globalConfig).isSome) ∨
    ∃ config, Injected σ run config ∧ r = ⟨config, none, .injected⟩ := by
  obtain ⟨τ, α, q, hf, hd⟩ :=
    derived_of_filled (fun a ha => hs a ha _ (by decide)) (empty _) h
  rcases hd.2 rfl with hfallback | ⟨config, hc, -, hr⟩
  · exact Or.inl hfallback
  · exact Or.inr ⟨config, injected_of_filledBy hf hc, hr⟩

theorem comesFrom_of_globalConfig {r : Resolved}
    (h : (σ.after run).value? Key.globalConfig = some r) : ComesFrom σ run r := by
  obtain ⟨τ, α, q, hf, hfile, hinjected⟩ := derived_of_globalConfig empty hs h
  constructor
  case file =>
    intro path hp
    obtain ⟨bytes, hread, hparse, -, hraw, hsource⟩ := Build.of_readConfig τ.files (hfile path hp)
    exact ⟨hsource, τ, α, q, bytes, hf, hread, hraw, hparse⟩
  case injected =>
    intro config hp hc
    exact Option.some.inj ((hinjected hp).symm.trans (value?_of_injected hc))
  case fallback =>
    intro hp hnone
    rcases origin_of_injectedConfig empty hs (hinjected hp) with ⟨-, hr, -⟩ | ⟨config, hc, -⟩
    · exact hr
    · exact absurd hc (hnone config)
  case stays => exact after_keeps h

theorem any_fallback_iff :
    ((σ.after run).value? Key.injectedConfig).any
      (fun r : Resolved => r.source = .fallback) = true ↔ FellBack σ run := by
  constructor
  · intro h
    cases hv : (σ.after run).value? Key.injectedConfig with
    | none =>
      rw [hv] at h
      cases h
    | some r =>
      rw [hv] at h
      have hsource : r.source = .fallback := of_decide_eq_true h
      have hnone : ∀ config, ¬ Injected σ run config := by
        intro config hc
        obtain rfl := Option.some.inj (hv.symm.trans (value?_of_injected hc))
        cases hsource
      rcases origin_of_injectedConfig empty hs hv with ⟨hp, -, hg⟩ | ⟨config, hc, -⟩
      · exact ⟨hg, hp, hnone⟩
      · exact absurd hc (hnone config)
  · rintro ⟨hg, hp, hnone⟩
    obtain ⟨r, hr⟩ := Option.isSome_iff_exists.mp hg
    obtain ⟨-, -, -, -, -, hinjected⟩ := derived_of_globalConfig empty hs hr
    have hfallback := (comesFrom_of_globalConfig empty hs hr).fallback hp hnone
    rw [hinjected hp, hfallback]
    rfl

end Run

theorem act_warned {σ : Session} {a : Action} (ha : a.SparesBuiltIn)
    (h : Build.Warned σ.ledger) : Build.Warned (σ.act a).ledger := by
  cases a with
  | ask r =>
    obtain ⟨ks, hg⟩ := σ.ask_grows r
    exact hg.warned h
  | script step =>
    have hspares : Key.injectedConfig ∉ step.fills := ha _ (by decide)
    exact Build.warned_of_same (step.value?_after _ hspares)
      (step.count_after (by simp) σ.ledger) h
  | change files => exact h

theorem after_warned {σ : Session} {run : List Action} (hs : ∀ a ∈ run, a.SparesBuiltIn)
    (h : Build.Warned σ.ledger) : Build.Warned (σ.after run).ledger := by
  refine after_induction h fun τ hτ a ha => ?_
  exact act_warned (hs a ha) hτ

theorem noConfig_reported {σ : Session} {run : List Action} (empty : ∀ k, σ.value? k = none)
    (hs : ∀ a ∈ run, a.SparesBuiltIn) (hw : Build.Warned σ.ledger) :
    (σ.after run).ledger.events.count .noConfig ≤ 1 ∧
      (.noConfig ∈ (σ.after run).ledger.events ↔ FellBack σ run) := by
  have hwarned := after_warned hs hw
  rw [Build.Warned] at hwarned
  rw [← any_fallback_iff empty hs, ← List.count_pos_iff, hwarned]
  constructor
  · split <;> decide
  · split
    · next h => exact iff_of_true Nat.one_pos h
    · next h => exact iff_of_false (Nat.lt_irrefl 0) h

/-- A resolved config comes from the configured file, else from the injection, else it is the
fallback. The warning is given once by a build that falls back, and by no other. -/
theorem resolved_config_comesFrom (s : Settings) (files : FileTree) (run : List Action)
    (hs : ∀ a ∈ run, a.SparesBuiltIn) :
    (∀ r, ((start s files).after run).value? Key.globalConfig = some r →
      ComesFrom (start s files) run r) ∧
    ((start s files).after run).ledger.events.count .noConfig ≤ 1 ∧
    (.noConfig ∈ ((start s files).after run).ledger.events ↔ FellBack (start s files) run) :=
  ⟨fun _ => comesFrom_of_globalConfig (value?_start s files) hs,
    noConfig_reported (value?_start s files) hs rfl⟩

theorem resolved_config_comesFrom_injection :
    let run : List Action :=
      [.script (.insert ⟨.config, "own"⟩ ⟨.disabled, none, .fallback⟩), .ask (.inject .disabled),
        .ask (.image .art), .ask (.inject {})]
    (∀ a ∈ run, a.SparesBuiltIn) ∧
    (∀ r, ((start {} {}).after run).value? Key.globalConfig = some r →
      ComesFrom (start {} {}) run r) ∧
    ((start {} {}).after run).ledger.events.count .noConfig ≤ 1 ∧
    (.noConfig ∈ ((start {} {}).after run).ledger.events ↔ FellBack (start {} {}) run) := by
  intro run
  have hs : ∀ a ∈ run, a.SparesBuiltIn := by
    simp [run, Action.SparesBuiltIn, Action.Spares, Step.fills, Key.builtIn, Key.image,
      Key.globalConfig, Key.injectedConfig, Key.systemServerClasspath, Key.bootClasspath]
  exact ⟨hs, resolved_config_comesFrom {} {} run hs⟩

end Preopt.Session
