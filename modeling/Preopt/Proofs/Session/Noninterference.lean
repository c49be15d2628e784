import Mathlib.Control.Monad.Basic
import Preopt.Proofs.Session.Foretold

/-! What a device sees of a build depends on the lists of its global config alone. The settings say
where a build puts its files, and neither they nor the flags of the config, nor where it came from,
reach the classpaths, the make variables, or the modules and jars of an image. -/

namespace Preopt

open Once

namespace GlobalConfig

structure SameLists (c c' : GlobalConfig) : Prop where
  artApexJars : c.artApexJars = c'.artApexJars
  bootJars : c.bootJars = c'.bootJars
  productUpdatableBootModules : c.productUpdatableBootModules = c'.productUpdatableBootModules
  productUpdatableBootLocations :
    c.productUpdatableBootLocations = c'.productUpdatableBootLocations
  systemServerJars : c.systemServerJars = c'.systemServerJars
  updatableSystemServerJars : c.updatableSystemServerJars = c'.updatableSystemServerJars

namespace SameLists

variable {c c' : GlobalConfig} (h : c.SameLists c')
include h

theorem modulesOf_eq (p : Profile) : Image.modulesOf c p = Image.modulesOf c' p := by
  rw [Image.modulesOf, Image.modulesOf, Image.frameworkModules, Image.frameworkModules,
    h.artApexJars, h.bootJars, h.productUpdatableBootModules]

theorem locationsOf_eq (p : Profile) : Image.locationsOf c p = Image.locationsOf c' p := by
  rw [Image.locationsOf, Image.locationsOf, Image.frameworkModules, Image.frameworkModules,
    h.artApexJars, h.bootJars, h.productUpdatableBootModules]

theorem derive_eq (s : Settings) (p : Profile) : Image.derive s c p = Image.derive s c' p := by
  rw [Image.derive, Image.derive, h.modulesOf_eq p, h.locationsOf_eq p]

theorem systemServer_eq : Classpath.systemServer c = Classpath.systemServer c' := by
  rw [Classpath.systemServer, Classpath.systemServer, h.systemServerJars,
    h.updatableSystemServerJars]

theorem boot_eq (s s' : Settings) (p : Profile) :
    Classpath.boot c (Image.derive s c p) = Classpath.boot c' (Image.derive s' c' p) := by
  change Image.locationsOf c p ++ c.productUpdatableBootLocations =
    Image.locationsOf c' p ++ c'.productUpdatableBootLocations
  rw [h.locationsOf_eq p, h.productUpdatableBootLocations]

theorem makeVars_eq (s s' : Settings) (p : Profile) (systemServer : List String) :
    MakeVars.all (Classpath.boot c (Image.derive s c p)) (Image.derive s c p) systemServer =
      MakeVars.all (Classpath.boot c' (Image.derive s' c' p)) (Image.derive s' c' p)
        systemServer := by
  have hlocations : (Image.derive s c p).dexLocations = (Image.derive s' c' p).dexLocations :=
    h.locationsOf_eq p
  have hmodules : (Image.derive s c p).modules = (Image.derive s' c' p).modules :=
    h.modulesOf_eq p
  rw [MakeVars.all, MakeVars.all, h.boot_eq s s' p, hlocations, hmodules]

end SameLists
end GlobalConfig

namespace Session

def Agree (σ τ : Session) {α : Type} (r : Request α) : Prop :=
  ∃ a, (σ.ask r).1 = .ok a ∧ (τ.ask r).1 = .ok a

structure AgreeOnDevice (σ τ : Session) : Prop where
  systemServer : Agree σ τ .systemServerClasspath
  boot : Agree σ τ .bootClasspath
  vars : Agree σ τ .makeVars
  sent {ρ : Type} (strict : ρ → String → String → ρ) (receiver : ρ) :
    Agree σ τ (.exportMakeVars strict receiver)
  image (v : Variant) : ∃ i j, (σ.ask (.image v)).1 = .ok i ∧ (τ.ask (.image v)).1 = .ok j ∧
    i.modules = j.modules ∧ i.dexLocations = j.dexLocations

structure AgreeOnImages (σ τ : Session) : Prop where
  variant (v : Variant) : Agree σ τ (.image v)
  custom (key : String) (p : Profile) : σ.value? ⟨.image, key⟩ = none →
    τ.value? ⟨.image, key⟩ = none → Agree σ τ (.customImage key p)

namespace Driven

variable {σ : Session} (h : Driven σ) {config : Resolved}
include h

theorem prospect_of_answer (hconfig : (σ.ask .globalConfig).1 = .ok config) :
    σ.prospect = .ok config := by
  obtain ⟨config', made, hp, rfl⟩ := h.yields (r := .globalConfig) trivial trivial hconfig
  exact hp

variable (hp : σ.prospect = .ok config)
include hp

theorem ask_globalConfig : (σ.ask .globalConfig).1 = .ok config := by
  obtain ⟨config', made, hconfig, rfl⟩ := h.ask_eq (r := .globalConfig) trivial trivial hp
  exact hconfig

theorem ask_image (v : Variant) :
    (σ.ask (.image v)).1 = .ok (Image.derive σ.settings config.config v.profile) := by
  obtain ⟨i, made, hi, rfl⟩ := h.ask_eq (r := .image v) trivial trivial hp
  exact hi

theorem ask_customImage {key : String} (hn : σ.value? ⟨.image, key⟩ = none) (p : Profile) :
    (σ.ask (.customImage key p)).1 = .ok (Image.derive σ.settings config.config p) := by
  obtain ⟨i, hi⟩ := h.exists_answer (r := .customImage key p) trivial hp
  have hstored : (σ.ask (.customImage key p)).2.value? ⟨.image, key⟩ = some i := ask_shows hi
  obtain ⟨ks, hg⟩ := σ.ask_grows (.customImage key p)
  obtain ⟨p', config', ⟨-, rfl⟩, hconfig', rfl⟩ := hg.gained hn hstored
  obtain rfl := config_of_prospect (r := .customImage key p') trivial hp hconfig'
  exact hi

end Driven

section Agreement

variable {σ τ : Session} (hσ : Driven σ) (hτ : Driven τ) {config config' : Resolved}
  (hp : σ.prospect = .ok config) (hp' : τ.prospect = .ok config')
  (h : config.config.SameLists config'.config)
include hσ hτ hp hp' h

theorem agree_systemServer : Agree σ τ .systemServerClasspath := by
  obtain ⟨jars, made, hjars, hyields⟩ := hσ.ask_eq (r := .systemServerClasspath) trivial trivial hp
  obtain ⟨jars', made', hjars', hyields'⟩ :=
    hτ.ask_eq (r := .systemServerClasspath) trivial trivial hp'
  have hsame : Classpath.systemServer config'.config = .ok jars :=
    h.systemServer_eq.symm.trans hyields
  obtain rfl : jars = jars' := Except.ok.inj (hsame.symm.trans hyields')
  exact ⟨jars, hjars, hjars'⟩

theorem agree_boot : Agree σ τ .bootClasspath := by
  obtain ⟨jars, -, hjars, rfl⟩ := hσ.ask_eq (r := .bootClasspath) trivial trivial hp
  obtain ⟨jars', -, hjars', rfl⟩ := hτ.ask_eq (r := .bootClasspath) trivial trivial hp'
  rw [← h.boot_eq σ.settings τ.settings] at hjars'
  exact ⟨_, hjars, hjars'⟩

theorem agree_vars : Agree σ τ .makeVars := by
  obtain ⟨vars, -, hvars, jars, hjars, rfl⟩ := hσ.ask_eq (r := .makeVars) trivial trivial hp
  obtain ⟨vars', -, hvars', jars', hjars', rfl⟩ :=
    hτ.ask_eq (r := .makeVars) trivial trivial hp'
  rw [← h.systemServer_eq] at hjars'
  obtain rfl : jars = jars' := Except.ok.inj (hjars.symm.trans hjars')
  rw [← h.makeVars_eq σ.settings τ.settings] at hvars'
  exact ⟨_, hvars, hvars'⟩

theorem agree_sent {ρ : Type} (strict : ρ → String → String → ρ) (receiver : ρ) :
    Agree σ τ (.exportMakeVars strict receiver) := by
  obtain ⟨sent, -, hsent, jars, hjars, rfl⟩ :=
    hσ.ask_eq (r := .exportMakeVars strict receiver) trivial trivial hp
  obtain ⟨sent', -, hsent', jars', hjars', rfl⟩ :=
    hτ.ask_eq (r := .exportMakeVars strict receiver) trivial trivial hp'
  rw [← h.systemServer_eq] at hjars'
  obtain rfl : jars = jars' := Except.ok.inj (hjars.symm.trans hjars')
  rw [← h.makeVars_eq σ.settings τ.settings] at hsent'
  exact ⟨_, hsent, hsent'⟩

theorem agreeOnDevice : AgreeOnDevice σ τ where
  systemServer := agree_systemServer hσ hτ hp hp' h
  boot := agree_boot hσ hτ hp hp' h
  vars := agree_vars hσ hτ hp hp' h
  sent := agree_sent hσ hτ hp hp' h
  image v := ⟨_, _, hσ.ask_image hp v, hτ.ask_image hp' v, h.modulesOf_eq v.profile,
    h.locationsOf_eq v.profile⟩

theorem agreeOnImages (hs : σ.settings = τ.settings) : AgreeOnImages σ τ where
  variant v := by
    have himage := hτ.ask_image hp' v
    rw [← hs, ← h.derive_eq] at himage
    exact ⟨_, hσ.ask_image hp v, himage⟩
  custom key p hn hn' := by
    have himage := hτ.ask_customImage hp' hn' p
    rw [← hs, ← h.derive_eq] at himage
    exact ⟨_, hσ.ask_customImage hp hn p, himage⟩

end Agreement

/-- Builds whose configs have the same lists agree on what a device sees, and if their settings are
the same, on whole images too. The flags of a config influence nothing. -/
theorem lists_alone_decide {σ τ : Session} (hσ : Driven σ) (hτ : Driven τ)
    {config config' : Resolved} (hconfig : (σ.ask .globalConfig).1 = .ok config)
    (hconfig' : (τ.ask .globalConfig).1 = .ok config')
    (h : config.config.SameLists config'.config) :
    AgreeOnDevice σ τ ∧ (σ.settings = τ.settings → AgreeOnImages σ τ) := by
  have hp := hσ.prospect_of_answer hconfig
  have hp' := hτ.prospect_of_answer hconfig'
  exact ⟨agreeOnDevice hσ hτ hp hp' h, agreeOnImages hσ hτ hp hp' h⟩

theorem lists_alone_decide_read_and_injected :
    let text := "BootJars: [core-oj, framework]\nDisablePreopt: true"
    let files : FileTree := { entries := [(["dexpreopt.config"], some text.toUTF8)] }
    let read : Settings :=
      { deviceName := "walleye", outDir := ⟨"/out"⟩, globalConfig := some ⟨"dexpreopt.config"⟩ }
    let given : GlobalConfig := { bootJars := ["core-oj", "framework"] }
    let σ := start read files
    let τ := (start { targets := [⟨.android, .arm64, .disabled⟩] } {}).after [.ask (.inject given)]
    ∃ config config', Driven σ ∧ Driven τ ∧ (σ.ask .globalConfig).1 = .ok config ∧
      (τ.ask .globalConfig).1 = .ok config' ∧ config.source ≠ config'.source ∧
      config.config.disablePreopt ≠ config'.config.disablePreopt ∧
      config.config.SameLists config'.config ∧ AgreeOnDevice σ τ := by
  intro text files read given σ τ
  let config : GlobalConfig := { given with disablePreopt := true }
  have hparsed : GlobalConfig.ofBytes text.toUTF8 = .ok config := by decide +kernel
  have hcontents : Build.contents files ⟨"dexpreopt.config"⟩ = .ok (config, text.toUTF8) :=
    (Build.contents_eq_ok_iff files).mpr ⟨rfl, hparsed⟩
  have hread : Build.readConfig files ⟨"dexpreopt.config"⟩ =
      .ok ⟨config, some text.toUTF8, .file ⟨"dexpreopt.config"⟩⟩ := by
    rw [Build.readConfig, hcontents]
    rfl
  have hσ : Driven σ := driven_start read files
  have hp : σ.prospect = .ok _ := (Build.prospect_of_file rfl rfl).trans hread
  obtain ⟨hτ, hp'⟩ := exists_driven { targets := [⟨.android, .arm64, .disabled⟩] } {} given rfl rfl
  have hsame : config.SameLists given := by constructor <;> rfl
  have hagree := lists_alone_decide hσ hτ (hσ.ask_globalConfig hp) (hτ.ask_globalConfig hp') hsame
  exact ⟨_, _, hσ, hτ, hσ.ask_globalConfig hp, hτ.ask_globalConfig hp', by decide, by decide, hsame,
    hagree.1⟩

end Session
end Preopt
