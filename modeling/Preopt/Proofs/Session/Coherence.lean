import Preopt.Proofs.Session.Runs

/-! One config behind every derived value. In whatever order requests come, and however the files
change between them, the images and classpaths of a build are derived from the one config that its
global config's slot holds, and so is every answer. -/

namespace Preopt

open Once

/-- An action takes none of the built-in images' names, and scripts leave derived values alone. -/
def Action.Orderly : Action → Prop
  | .ask (.customImage key _) => ∀ v : Variant, key ≠ (Key.image v).name
  | .script step => ∀ k ∈ step.fills, k ∉ Key.builtIn ∧ k.kind ≠ .image
  | .ask _ | .change _ => True

theorem Action.Orderly.spares {a : Action} (h : a.Orderly) {k : Key}
    (hk : k ∈ Key.builtIn ∨ k.kind = .image) : a.Spares k := by
  cases a with
  | ask r => trivial
  | change files => trivial
  | script step =>
    intro hfills
    obtain ⟨hbuiltIn, himage⟩ := h k hfills
    exact hk.elim hbuiltIn himage

namespace Session

def MadeWith (σ : Session) (run : List Action) (name : String) (p : Profile) : Prop :=
  ∃ (τ : Session) (α : Type) (r : Request α), FilledBy σ run ⟨.image, name⟩ τ r ∧
    r.supply.profile name p

def Request.Yields (s : Settings) (made : String → Profile → Prop) (config : Resolved)
    {α : Type} : Request α → α → Prop
  | .globalConfig, r => r = config
  | .image v, i => i = Image.derive s config.config v.profile
  | .customImage key _, i => ∃ p, made key p ∧ i = Image.derive s config.config p
  | .systemServerClasspath, v => Classpath.systemServer config.config = .ok v
  | .bootClasspath, v =>
    v = Classpath.boot config.config (Image.derive s config.config Variant.default.profile)
  | .makeVars, vars =>
    let image := Image.derive s config.config Variant.default.profile
    ∃ systemServer, Classpath.systemServer config.config = .ok systemServer ∧
      vars = MakeVars.all (Classpath.boot config.config image) image systemServer
  | .exportMakeVars strict receiver, sent =>
    let image := Image.derive s config.config Variant.default.profile
    ∃ systemServer, Classpath.systemServer config.config = .ok systemServer ∧
      sent = MakeVars.send strict receiver
        (MakeVars.all (Classpath.boot config.config image) image systemServer)
  | .inject _, _ | .load _, _ | .depend _, _ => True

structure Coherent (σ : Session) (run : List Action) : Prop where
  image (name : String) (i : Image) : (σ.after run).value? ⟨.image, name⟩ = some i →
    ∃ (config : Resolved) (p : Profile), (σ.after run).value? Key.globalConfig = some config ∧
      MadeWith σ run name p ∧ i = Image.derive σ.settings config.config p
  variant (v : Variant) (i : Image) :
    (σ.after run).value? ⟨.image, (Key.image v).name⟩ = some i →
    ∃ config : Resolved, (σ.after run).value? Key.globalConfig = some config ∧
      i = Image.derive σ.settings config.config v.profile
  systemServer (v : List String) : (σ.after run).value? Key.systemServerClasspath = some v →
    ∃ config : Resolved, (σ.after run).value? Key.globalConfig = some config ∧
      Classpath.systemServer config.config = .ok v
  boot (v : List String) : (σ.after run).value? Key.bootClasspath = some v →
    ∃ config : Resolved, (σ.after run).value? Key.globalConfig = some config ∧
      v = Classpath.boot config.config
        (Image.derive σ.settings config.config Variant.default.profile)
  answer {α : Type} (r : Request α) (a : α) : r.IsDerivation →
    .asked r (.ok a) ∈ σ.history run →
    ∃ config : Resolved, (σ.after run).value? Key.globalConfig = some config ∧
      r.Yields σ.settings (MadeWith σ run) config a

theorem FilledBy.mem {σ τ : Session} {run : List Action} {k : Key} {α : Type} {r : Request α}
    (h : FilledBy σ run k τ r) : .ask r ∈ run := by
  obtain ⟨before, later, rfl, -⟩ := h
  exact List.mem_append_right before List.mem_cons_self

theorem image_name_inj {v w : Variant} (h : (Key.image v).name = (Key.image w).name) : v = w := by
  revert h
  cases v <;> cases w <;> decide

theorem profile_of_variant {α : Type} {r : Request α} (ho : (Action.ask r).Orderly) {v : Variant}
    {p : Profile} (hp : r.supply.profile (Key.image v).name p) : p = v.profile := by
  cases r with
  | image w =>
    obtain ⟨hname, rfl⟩ := hp
    rw [image_name_inj hname]
  | customImage key q => exact absurd hp.1.symm (ho v)
  | bootClasspath | makeVars | exportMakeVars strict receiver =>
    obtain ⟨hname, rfl⟩ := hp
    rw [image_name_inj hname]
  | _ => exact hp.elim

section Coherent

variable {σ : Session} {run : List Action} (empty : ∀ k, σ.value? k = none)
  (ho : ∀ a ∈ run, a.Orderly)
include empty ho

theorem image_of_filled {name : String} {i : Image}
    (h : (σ.after run).value? ⟨.image, name⟩ = some i) :
    ∃ (config : Resolved) (p : Profile), (σ.after run).value? Key.globalConfig = some config ∧
      MadeWith σ run name p ∧ i = Image.derive σ.settings config.config p := by
  obtain ⟨τ, α, r, hfilled, p, config, hp, hconfig, hi⟩ :=
    derived_of_filled (fun a ha => (ho a ha).spares (Or.inr rfl)) (empty _) h
  exact ⟨config, p, hconfig, ⟨τ, α, r, hfilled, hp⟩, hi⟩

theorem variant_of_filled {v : Variant} {i : Image}
    (h : (σ.after run).value? ⟨.image, (Key.image v).name⟩ = some i) :
    ∃ config : Resolved, (σ.after run).value? Key.globalConfig = some config ∧
      i = Image.derive σ.settings config.config v.profile := by
  obtain ⟨config, p, hconfig, ⟨τ, α, r, hfilled, hp⟩, hi⟩ := image_of_filled empty ho h
  obtain rfl := profile_of_variant (ho _ hfilled.mem) hp
  exact ⟨config, hconfig, hi⟩

theorem systemServer_of_filled {v : List String}
    (h : (σ.after run).value? Key.systemServerClasspath = some v) :
    ∃ config : Resolved, (σ.after run).value? Key.globalConfig = some config ∧
      Classpath.systemServer config.config = .ok v := by
  obtain ⟨τ, α, r, -, hd⟩ := derived_of_filled
    (fun a ha => (ho a ha).spares (Or.inl (by decide))) (empty _) h
  exact hd.1 rfl

theorem boot_of_filled {v : List String}
    (h : (σ.after run).value? Key.bootClasspath = some v) :
    ∃ config : Resolved, (σ.after run).value? Key.globalConfig = some config ∧
      v = Classpath.boot config.config
        (Image.derive σ.settings config.config Variant.default.profile) := by
  obtain ⟨τ, α, r, -, hd⟩ := derived_of_filled
    (fun a ha => (ho a ha).spares (Or.inl (by decide))) (empty _) h
  obtain ⟨config, i, hconfig, hi, hv⟩ := hd.2 rfl
  obtain ⟨config', hconfig', hi'⟩ := variant_of_filled empty ho (v := .default) hi
  obtain rfl : config = config' := Option.some.inj (hconfig.symm.trans hconfig')
  exact ⟨config, hconfig, hi' ▸ hv⟩

theorem vars_of_shown {vars : List (String × String)}
    (h : Build.ShowsVars (σ.after run).ledger vars) :
    ∃ config : Resolved, (σ.after run).value? Key.globalConfig = some config ∧
      (Request.makeVars).Yields σ.settings (MadeWith σ run) config vars := by
  obtain ⟨boot, i, systemServer, hboot, hi, hserver, hvars⟩ := h
  obtain ⟨config, hconfig, hb⟩ := boot_of_filled empty ho hboot
  obtain ⟨config₁, hconfig₁, hi'⟩ := variant_of_filled empty ho (v := .default) hi
  obtain ⟨config₂, hconfig₂, hs⟩ := systemServer_of_filled empty ho hserver
  obtain rfl : config = config₁ := Option.some.inj (hconfig.symm.trans hconfig₁)
  obtain rfl : config = config₂ := Option.some.inj (hconfig.symm.trans hconfig₂)
  subst hb hi'
  exact ⟨config, hconfig, systemServer, hs, hvars⟩

theorem answer_of_history {α : Type} {r : Request α} {a : α} (hr : r.IsDerivation)
    (h : .asked r (.ok a) ∈ σ.history run) :
    ∃ config : Resolved, (σ.after run).value? Key.globalConfig = some config ∧
      r.Yields σ.settings (MadeWith σ run) config a := by
  obtain ⟨files, hs⟩ := shows_of_history h
  cases r with
  | globalConfig => exact ⟨a, hs, rfl⟩
  | image v => exact variant_of_filled empty ho hs
  | customImage key p =>
    obtain ⟨config, q, hconfig, hq, hi⟩ := image_of_filled empty ho hs
    exact ⟨config, hconfig, q, hq, hi⟩
  | systemServerClasspath => exact systemServer_of_filled empty ho hs
  | bootClasspath => exact boot_of_filled empty ho hs
  | makeVars => exact vars_of_shown empty ho hs
  | exportMakeVars strict receiver =>
    obtain ⟨vars, hvars, rfl⟩ := hs
    obtain ⟨config, hconfig, systemServer, hserver, rfl⟩ := vars_of_shown empty ho hvars
    exact ⟨config, hconfig, systemServer, hserver, rfl⟩
  | inject config | load path | depend path => exact hr.elim

end Coherent

/-- On a fresh build every image, every classpath and every answer derives from the one config in
the global config's slot, whatever was asked, failed, injected or changed before. -/
theorem one_config_behind_all (s : Settings) (files : FileTree) (run : List Action)
    (ho : ∀ a ∈ run, a.Orderly) : Coherent (start s files) run where
  image _ _ := image_of_filled (value?_start s files) ho
  variant _ _ := variant_of_filled (value?_start s files) ho
  systemServer _ := systemServer_of_filled (value?_start s files) ho
  boot _ := boot_of_filled (value?_start s files) ho
  answer _ _ := answer_of_history (value?_start s files) ho

theorem one_config_behind_all_retried :
    let settings : Settings := { globalConfig := some ⟨"config.yaml"⟩ }
    let written : FileTree := { entries := [(["config.yaml"], some "DisablePreopt: true".toUTF8)] }
    let run : List Action :=
      [.ask (.image .apex), .change written, .ask .makeVars, .script (.insert ⟨.text, "own"⟩ "x"),
        .change (written.remove ⟨"config.yaml"⟩), .ask (.customImage "own" Variant.art.profile)]
    (∀ a ∈ run, a.Orderly) ∧ Coherent (start settings {}) run := by
  intro settings written run
  have ho : ∀ a ∈ run, a.Orderly := by
    simp [run, Action.Orderly, Step.fills, Key.builtIn, Key.image, Key.globalConfig,
      Key.injectedConfig, Key.systemServerClasspath, Key.bootClasspath]
    intro v
    cases v <;> decide
  exact ⟨ho, one_config_behind_all settings {} run ho⟩

end Session
end Preopt
