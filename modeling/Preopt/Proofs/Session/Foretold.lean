import Preopt.Proofs.Session.Coherence
import Preopt.Proofs.Session.Success

/-! Answers foretold. On a build that is driven in an orderly way the prospect before a derivation
says how it is answered: with the prospect's own error, or with what the config in prospect
yields. -/

namespace Preopt

open Once

theorem Action.Orderly.sparesBuiltIn {a : Action} (h : a.Orderly) : a.SparesBuiltIn :=
  fun _ hk => h.spares (Or.inl hk)

namespace Session

def Driven (σ : Session) : Prop :=
  ∃ (s : Settings) (files : FileTree) (run : List Action),
    (∀ a ∈ run, a.Orderly) ∧ σ = (start s files).after run

theorem driven_start (s : Settings) (files : FileTree) : Driven (start s files) :=
  ⟨s, files, [], by simp, rfl⟩

theorem after_append (σ : Session) (run run' : List Action) :
    σ.after (run ++ run') = (σ.after run).after run' :=
  List.foldl_append

theorem Request.supply_config {α : Type} {r : Request α} (hr : r.IsDerivation)
    (config : GlobalConfig) : ¬ r.supply.config config := by
  cases r with
  | inject c | load path | depend path => exact hr.elim
  | _ => exact id

theorem ask_prospect (σ : Session) {α : Type} {r : Request α} (hr : r.IsDerivation) :
    (σ.ask r).2.prospect = σ.prospect := by
  obtain ⟨ks, hg⟩ := σ.ask_grows r
  exact hg.prospect_eq (Request.supply_config hr)

/-- The config that a derivation leaves in its slot is the one that was in prospect. -/
theorem config_of_prospect {σ : Session} {α : Type} {r : Request α} {config config' : Resolved}
    (hr : r.IsDerivation) (hp : σ.prospect = .ok config)
    (hconfig : (σ.ask r).2.value? Key.globalConfig = some config') : config' = config := by
  have hsame := ask_prospect σ hr
  rw [hp, prospect, Build.prospect_of_resolved hconfig] at hsame
  exact Except.ok.inj hsame

namespace Driven

variable {σ : Session} (h : Driven σ)
include h

theorem after {run : List Action} (hrun : ∀ a ∈ run, a.Orderly) : Driven (σ.after run) := by
  obtain ⟨s, files, first, hfirst, rfl⟩ := h
  refine ⟨s, files, first ++ run, fun a ha => ?_, (after_append _ _ _).symm⟩
  rcases List.mem_append.mp ha with ha | ha
  · exact hfirst a ha
  · exact hrun a ha

theorem ask {α : Type} {r : Request α} (ho : (Action.ask r).Orderly) : Driven (σ.ask r).2 := by
  have hone : ∀ a ∈ [Action.ask r], a.Orderly := by simpa using ho
  exact h.after hone

theorem sound : Build.Sound σ.ledger := by
  obtain ⟨s, files, first, hfirst, rfl⟩ := h
  exact after_sound (fun a ha => (hfirst a ha).sparesBuiltIn) (sound_start s files)

theorem derived {k : Key} {v : k.Value} (hk : k ∈ Key.builtIn) (hv : σ.value? k = some v) :
    ∃ (files : FileTree) (given : Build.Supply),
      Build.Derived σ.settings files given σ.ledger k v := by
  obtain ⟨s, files, first, hfirst, rfl⟩ := h
  obtain ⟨τ, α, r, -, hd⟩ :=
    derived_of_filled (fun a ha => (hfirst a ha).sparesBuiltIn k hk) (value?_start s files k) hv
  rw [settings_after]
  exact ⟨τ.files, r.supply, hd⟩

theorem variant {v : Variant} {i : Image} (hi : σ.value? ⟨.image, (Key.image v).name⟩ = some i) :
    ∃ config : Resolved, σ.value? Key.globalConfig = some config ∧
      i = Image.derive σ.settings config.config v.profile := by
  obtain ⟨s, files, first, hfirst, rfl⟩ := h
  rw [settings_after]
  exact variant_of_filled (value?_start s files) hfirst hi

theorem boot {v : List String} (hv : σ.value? Key.bootClasspath = some v) :
    ∃ config : Resolved, σ.value? Key.globalConfig = some config ∧
      v = Classpath.boot config.config
        (Image.derive σ.settings config.config Variant.default.profile) := by
  obtain ⟨s, files, first, hfirst, rfl⟩ := h
  rw [settings_after]
  exact boot_of_filled (value?_start s files) hfirst hv

theorem answer {α : Type} {r : Request α} {a : α} (hr : r.IsDerivation)
    (ho : (Action.ask r).Orderly) (ha : (σ.ask r).1 = .ok a) :
    ∃ (config : Resolved) (made : String → Profile → Prop),
      (σ.ask r).2.value? Key.globalConfig = some config ∧ r.Yields σ.settings made config a := by
  obtain ⟨s, files, first, hfirst, rfl⟩ := h
  have hall : ∀ b ∈ first ++ [.ask r], b.Orderly := by
    simpa [or_imp, forall_and] using ⟨hfirst, ho⟩
  have hmem := deed_mem_history (start s files) first (.ask r) []
  rw [deed, ha] at hmem
  obtain ⟨config, hconfig, hyields⟩ :=
    answer_of_history (value?_start s files) hall hr hmem
  rw [after_append] at hconfig
  rw [settings_after]
  exact ⟨config, _, hconfig, hyields⟩

theorem yields {α : Type} {r : Request α} {a : α} (hr : r.IsDerivation)
    (ho : (Action.ask r).Orderly) (ha : (σ.ask r).1 = .ok a) :
    ∃ (config : Resolved) (made : String → Profile → Prop),
      σ.prospect = .ok config ∧ r.Yields σ.settings made config a := by
  obtain ⟨config, made, hconfig, hyields⟩ := h.answer hr ho ha
  refine ⟨config, made, ?_, hyields⟩
  rw [← ask_prospect σ hr]
  exact Build.prospect_of_resolved hconfig

theorem exists_answer {α : Type} {r : Request α} {config : Resolved} (hr : r.IsDerivation)
    (hp : σ.prospect = .ok config) : ∃ a, (σ.ask r).1 = .ok a := by
  cases hresult : (σ.ask r).1 with
  | ok a => exact ⟨a, rfl⟩
  | error e =>
    rw [prospect_of_error h.sound hr hresult] at hp
    cases hp

theorem ask_eq {α : Type} {r : Request α} {config : Resolved} (hr : r.IsDerivation)
    (ho : (Action.ask r).Orderly) (hp : σ.prospect = .ok config) :
    ∃ (a : α) (made : String → Profile → Prop),
      (σ.ask r).1 = .ok a ∧ r.Yields σ.settings made config a := by
  obtain ⟨a, ha⟩ := h.exists_answer hr hp
  obtain ⟨config', made, hp', hyields⟩ := h.yields hr ho ha
  obtain rfl : config' = config := Except.ok.inj (hp'.symm.trans hp)
  exact ⟨a, made, ha, hyields⟩

end Driven

theorem exists_driven (s : Settings) (files : FileTree) (config : GlobalConfig)
    (hp : s.globalConfig = none) (hv : config.validate = .ok ()) :
    Driven ((start s files).after [.ask (.inject config)]) ∧
      ((start s files).after [.ask (.inject config)]).prospect =
        .ok ⟨config, none, .injected⟩ := by
  refine ⟨⟨s, files, [.ask (.inject config)], by simp [Action.Orderly], rfl⟩, ?_⟩
  have hresult : (Work.on (Build.inject config) ({} : Ledger)).1 = .ok () := by
    simp [Build.inject_result, hv]
  obtain ⟨result, l', hon, hi⟩ := Build.inject_on config {}
  rw [hon] at hresult
  have hask : (start s files).ask (.inject config) = _ := perform_of_on hon
  cases hi with
  | refused e => cases hresult
  | stored hg hempty hvalid =>
    change ((start s files).ask (.inject config)).2.prospect = _
    rw [hask]
    exact Build.prospect_of_injection (Ledger.value?_store_of_ne _ _ (by decide)) hp
      (Ledger.value?_store_self _ _ _)

end Session
end Preopt
