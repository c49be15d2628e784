import Preopt.Proofs.Image.Architectures
import Preopt.Proofs.Image.Partition
import Preopt.Proofs.Session.Noninterference

/-! The images that a build answers with. Whatever was asked before, they are derived from the
build's settings and its one config, so that what holds of derived images holds of every answer. -/

namespace Preopt.Session

structure AnswersImages (σ : Session) (image : Profile → Image) : Prop where
  variant (v : Variant) : (σ.ask (.image v)).1 = .ok (image v.profile)
  custom {key : String} (p : Profile) : σ.value? ⟨.image, key⟩ = none →
    (σ.ask (.customImage key p)).1 = .ok (image p)

theorem Driven.answersImages {σ : Session} (hσ : Driven σ) {config : Resolved}
    (hp : σ.prospect = .ok config) :
    AnswersImages σ (Image.derive σ.settings config.config) where
  variant v := hσ.ask_image hp v
  custom p hn := hσ.ask_customImage hp hn p

/-- Images of a valid config hold the ART modules and the boot jars that no one else takes care of,
each of them once. -/
theorem modules_partitioned (s : Settings) (config : GlobalConfig)
    (hv : config.validate = .ok ()) :
    (∀ p : Profile, Image.Partitioned config p (Image.derive s config p).modules) ∧
      ∀ (σ : Session) (raw : Option ByteArray) (source : Source), Driven σ → σ.settings = s →
        σ.prospect = .ok ⟨config, raw, source⟩ → AnswersImages σ (Image.derive s config) := by
  refine ⟨Image.modulesOf_partitioned hv, ?_⟩
  rintro σ raw source hσ rfl hp
  exact hσ.answersImages hp

theorem modules_partitioned_overlapping :
    let config : GlobalConfig :=
      { artApexJars := ["core-oj", "okhttp"], bootJars := ["framework", "okhttp", "media", "ext"],
        productUpdatableBootModules := ["media", "okhttp", "media"] }
    let σ := (start {} {}).after [.ask (.inject config)]
    config.validate = .ok () ∧ Driven σ ∧
      ∃ image : Profile → Image, AnswersImages σ image ∧
        (image Variant.apex.profile).modules = ["core-oj", "okhttp", "framework", "ext"] ∧
        ∀ p, Image.Partitioned config p (image p).modules := by
  intro config σ
  have hvalid : config.validate = .ok () := by decide
  obtain ⟨hdriven, hprospect⟩ := exists_driven {} {} config rfl hvalid
  obtain ⟨hpartitioned, hanswers⟩ := modules_partitioned {} config hvalid
  have hanswers := hanswers σ none .injected hdriven (settings_after _ _) hprospect
  exact ⟨hvalid, hdriven, _, hanswers, by decide, hpartitioned⟩

/-- An image lists its modules, their locations on the device and their paths in the build tree in
one order, whatever the config, the settings and the profile are. -/
theorem jars_aligned (s : Settings) (config : GlobalConfig) :
    (∀ p : Profile, Image.Aligned s config p (Image.derive s config p)) ∧
      ∀ (σ : Session) (raw : Option ByteArray) (source : Source), Driven σ → σ.settings = s →
        σ.prospect = .ok ⟨config, raw, source⟩ → AnswersImages σ (Image.derive s config) := by
  refine ⟨Image.derive_aligned s config, ?_⟩
  rintro σ raw source hσ rfl hp
  exact hσ.answersImages hp

theorem jars_aligned_renamed :
    let settings : Settings := { deviceName := "", outDir := ⟨"out/"⟩ }
    let config : GlobalConfig :=
      { artApexJars := ["framework-minus-apex"], bootJars := ["framework", "/x"] }
    let σ := (start settings {}).after [.ask (.inject config)]
    Driven σ ∧ ∃ image : Profile → Image, AnswersImages σ image ∧
      (image Variant.default.profile).dexLocations =
        ["/apex/com.android.art/javalib/framework.jar", "/system/framework/framework.jar",
          "/x.jar"] ∧
      (image Variant.default.profile).dexPaths =
        [⟨"out/dex_bootjars_input/framework-minus-apex.jar"⟩,
          ⟨"out/dex_bootjars_input/framework.jar"⟩, ⟨"/x.jar"⟩] ∧
      ∀ p, Image.Aligned settings config p (image p) := by
  intro settings config σ
  obtain ⟨hdriven, hprospect⟩ := exists_driven settings {} config rfl (by decide)
  obtain ⟨haligned, hanswers⟩ := jars_aligned settings config
  have hanswers := hanswers σ none .injected hdriven (settings_after _ _) hprospect
  exact ⟨hdriven, _, hanswers, by decide, by decide, haligned⟩

/-- An image has its files by the architectures of the plain targets, each of them once and in the
order in which they first come, whatever the config and the profile are. -/
theorem architectures_mapped (s : Settings) (config : GlobalConfig) :
    (∀ p : Profile, Image.ByArch s p (Image.derive s config p)) ∧
      ∀ (σ : Session) (raw : Option ByteArray) (source : Source), Driven σ → σ.settings = s →
        σ.prospect = .ok ⟨config, raw, source⟩ → AnswersImages σ (Image.derive s config) := by
  refine ⟨Image.derive_byArch s config, ?_⟩
  rintro σ raw source hσ rfl hp
  exact hσ.answersImages hp

theorem architectures_mapped_repeated :
    let settings : Settings :=
      { targets := [⟨.android, .arm, .enabled⟩, ⟨.android, .x86_64, .disabled⟩,
          ⟨.host, .arm64, .disabled⟩, ⟨.android, .arm64, .disabled⟩,
          ⟨.android, .x86_64, .disabled⟩, ⟨.android, .arm64, .enabled⟩] }
    let config : GlobalConfig := { artApexJars := ["core-oj"], bootJars := ["framework"] }
    let σ := (start settings {}).after [.ask (.inject config)]
    Driven σ ∧ ∃ image : Profile → Image, AnswersImages σ image ∧
      (image Variant.art.profile).images =
        [(.x86_64, ⟨"out/generic/dex_artjars/system/framework/x86_64/boot.art"⟩),
          (.arm64, ⟨"out/generic/dex_artjars/system/framework/arm64/boot.art"⟩)] ∧
      ∀ p, Image.ByArch settings p (image p) := by
  intro settings config σ
  obtain ⟨hdriven, hprospect⟩ := exists_driven settings {} config rfl (by decide)
  obtain ⟨hmapped, hanswers⟩ := architectures_mapped settings config
  have hanswers := hanswers σ none .injected hdriven (settings_after _ _) hprospect
  exact ⟨hdriven, _, hanswers, by decide, hmapped⟩

end Preopt.Session
