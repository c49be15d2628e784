import Preopt.Proofs.Classpath.ReadBack
import Preopt.Proofs.Session.Images
import Preopt.Proofs.Session.Order

/-! The boot classpath in layers: the jars of the ART modules, those of the other modules of the
default image, and the locations that the product updates. What ends after the first layer is the art
image's list and what ends after the second is the default image's, so that the variable of the
latter is how the variable of the whole begins. -/

namespace Preopt

namespace MakeVars

theorem joined_append (list list' : List String) :
    joined (list ++ list') =
      joined list ++ if list' = [] then "" else if list = [] then joined list'
        else ":" ++ joined list' := by
  by_cases h' : list' = []
  · subst h'
    simp
  · by_cases h : list = []
    · subst h
      simp [h', joined]
    · rw [if_neg h', if_neg h, joined, String.intercalate_append_of_ne_nil h h', ← joined, ← joined,
        String.append_assoc]

end MakeVars

open MakeVars

namespace Classpath

structure Layered (config : GlobalConfig) (boot : List String) (image art : Image)
    (vars : List (String × String)) : Prop where
  boot_eq : boot = config.artApexJars.map (Image.jarLocation Image.artJarDir) ++
    (config.bootJars.filter fun m =>
      m ∉ config.artApexJars ∧ m ∉ config.productUpdatableBootModules).map
        (Image.jarLocation Image.frameworkDir) ++
    config.productUpdatableBootLocations
  boot_image : boot = image.dexLocations ++ config.productUpdatableBootLocations
  art_eq : art.dexLocations = config.artApexJars.map (Image.jarLocation Image.artJarDir)
  art_before : art.dexLocations <+: boot
  goes_on : ∃ long short rest, Assoc.get? vars "PRODUCT_BOOTCLASSPATH" = some long ∧
    Assoc.get? vars "PRODUCT_DEX2OAT_BOOTCLASSPATH" = some short ∧
    long = joined boot ∧ short = joined image.dexLocations ∧ long = short ++ rest ∧
    (config.productUpdatableBootLocations = [] → rest = "") ∧
    (config.productUpdatableBootLocations ≠ [] → image.dexLocations ≠ [] →
      rest = ":" ++ joined config.productUpdatableBootLocations) ∧
    (image.dexLocations = [] → rest = joined config.productUpdatableBootLocations)
  modules_joined :
    Assoc.get? vars "DEXPREOPT_BOOT_JARS_MODULES" = some (joined image.modules)
  length_eq : image.dexLocations.length = image.modules.length
  location {n : Nat} {m : String} : image.modules[n]? = some m →
    image.dexLocations[n]? = some (Image.jarLocation ⟨Image.jarDirAt config n⟩ m)

theorem boot_layered (s : Settings) (config : GlobalConfig) (servers : List String) :
    let image := Image.derive s config Variant.default.profile
    Layered config (boot config image) image (Image.derive s config Variant.art.profile)
      (MakeVars.all (boot config image) image servers) := by
  intro image
  have himage : image.dexLocations = Image.locationsOf config Variant.default.profile := rfl
  have hart : (Image.derive s config Variant.art.profile).dexLocations =
      config.artApexJars.map (Image.jarLocation Image.artJarDir) :=
    Image.locationsOf_of_artOnly rfl
  have hboot : boot config image = _ ++ config.productUpdatableBootLocations :=
    congrArg (· ++ config.productUpdatableBootLocations) (Image.locationsOf_of_whole rfl)
  constructor
  case boot_eq => exact hboot
  case boot_image => rfl
  case art_eq => exact hart
  case art_before =>
    rw [hart, hboot, List.append_assoc]
    exact List.prefix_append _ _
  case goes_on =>
    refine ⟨_, _, _, rfl, rfl, rfl, rfl, joined_append _ _, ?_, ?_, ?_⟩
    · exact fun hnone => if_pos hnone
    · intro hsome himage
      rw [if_neg hsome, if_neg himage]
    · intro himage
      by_cases hnone : config.productUpdatableBootLocations = []
      · rw [if_pos hnone, hnone]
        rfl
      · rw [if_neg hnone, if_pos himage]
  case modules_joined => rfl
  case length_eq => exact Image.length_locationsOf
  case location => exact Image.getElem?_locationsOf

end Classpath

namespace Session

/-- Once one derivation succeeds, they all do. Builds with the same settings and the same config
answer with the same layers, whatever slots they have filled, and in whatever order. -/
theorem boot_variables_layered {σ : Session} (hσ : Driven σ) {α : Type} {r : Request α}
    (hr : r.IsBuiltIn) {a : α} (ha : (σ.ask r).1 = .ok a) :
    ∃ (config : Resolved) (boot servers : List String) (image art : Image)
      (vars : List (String × String)),
      (σ.ask .globalConfig).1 = .ok config ∧
      Classpath.Layered config.config boot image art vars ∧
      ∀ τ : Session, Driven τ → τ.settings = σ.settings →
        (τ.ask .globalConfig).1 = .ok config →
        Exports τ boot servers image vars ∧ (τ.ask (.image .art)).1 = .ok art := by
  obtain ⟨config, made, hp, -⟩ := hσ.yields hr.isDerivation hr.orderly ha
  obtain ⟨servers, made, -, hservers⟩ :=
    hσ.ask_eq (r := .systemServerClasspath) trivial trivial hp
  refine ⟨config, _, servers, _, _, _, hσ.ask_globalConfig hp,
    Classpath.boot_layered σ.settings config.config servers, ?_⟩
  intro τ hτ hsettings hconfig
  have hp' := hτ.prospect_of_answer hconfig
  rw [← hsettings]
  exact ⟨hτ.exports hp' hservers, hτ.ask_image hp' .art⟩

theorem boot_variables_layered_late :
    let config : GlobalConfig :=
      { artApexJars := ["core-oj"], bootJars := ["framework-minus-apex", "core-oj", "media"],
        productUpdatableBootModules := ["media"],
        productUpdatableBootLocations := ["/apex/m/javalib/media.jar"] }
    let σ := ((start {} {}).after [.ask (.inject config)]).after
      [.ask (.image .default), .ask .systemServerClasspath]
    ∃ (resolved : Resolved) (boot servers : List String) (image art : Image)
      (vars : List (String × String)), Driven σ ∧ (σ.ask .globalConfig).1 = .ok resolved ∧
      Exports σ boot servers image vars ∧
      boot = ["/apex/com.android.art/javalib/core-oj.jar", "/system/framework/framework.jar",
        "/apex/m/javalib/media.jar"] ∧
      Classpath.Layered config boot image art vars := by
  intro config σ
  obtain ⟨hdriven, hprospect⟩ := exists_driven {} {} config rfl (by decide)
  have hrun : ∀ a ∈ [Action.ask (.image .default), .ask .systemServerClasspath], a.Derives := by
    simp [Action.Derives, Request.IsBuiltIn]
  have hσ : Driven σ := hdriven.after fun a ha => (hrun a ha).orderly
  have hp : σ.prospect = .ok _ := (prospect_after hrun).trans hprospect
  obtain ⟨vars, hvars⟩ := hσ.exists_answer (r := .makeVars) trivial hp
  obtain ⟨resolved, boot, servers, image, art, vars, hconfig, hlayered, hanswers⟩ :=
    boot_variables_layered hσ (r := .makeVars) trivial hvars
  obtain rfl := Except.ok.inj ((hσ.ask_globalConfig hp).symm.trans hconfig)
  exact ⟨_, boot, servers, image, art, vars, hσ, hconfig, (hanswers σ hσ rfl hconfig).1,
    hlayered.boot_eq.trans (by decide), hlayered⟩

end Session
end Preopt
