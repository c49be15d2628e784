import Preopt.Proofs.Image.Architectures
import Preopt.Proofs.Image.Partition
import Preopt.Proofs.Session.Coherence

/-! Images of one build side by side. They differ only where their profiles do, and the image of an
art-only profile is how the image of another one begins. -/

namespace Preopt

namespace Image

structure VariesBy (n : Nat) (p q : Profile) (i j : Image) : Prop where
  targets : i.targets = j.targets
  keys_images : Assoc.keys i.images = Assoc.keys j.images
  keys_imageDeps : Assoc.keys i.imageDeps = Assoc.keys j.imageDeps
  zip : i.zip.isSome ↔ p.needsZip = true
  modules : p.artOnly = q.artOnly → i.modules = j.modules
  locations : p.artOnly = q.artOnly → i.dexLocations = j.dexLocations
  modules_before : p.artOnly = true → q.artOnly = false →
    i.modules <+: j.modules ∧ i.modules.length = n
  locations_before : p.artOnly = true → q.artOnly = false →
    i.dexLocations <+: j.dexLocations ∧ i.dexLocations.length = n
  images : p.name = q.name → p.stem = q.stem → i.images = j.images
  imageDeps_before : p.name = q.name → p.stem = q.stem → p.artOnly = true →
    ∀ arch ∈ Assoc.keys i.imageDeps, ∃ files files', Assoc.get? i.imageDeps arch = some files ∧
      Assoc.get? j.imageDeps arch = some files' ∧ files <+: files'

section

variable (s : Settings) (config : GlobalConfig) {p q : Profile}

theorem isPrefix_modulesOf (hp : p.artOnly = true) : modulesOf config p <+: modulesOf config q := by
  rw [modulesOf_of_artOnly hp]
  exact List.prefix_append _ _

theorem isPrefix_locationsOf (hp : p.artOnly = true) :
    locationsOf config p <+: locationsOf config q := by
  rw [locationsOf_of_artOnly hp]
  exact List.prefix_append _ _

theorem derive_variesBy (p q : Profile) : VariesBy config.artApexJars.length p q
    (derive s config p) (derive s config q) := by
  have hi := derive_byArch s config p
  have hj := derive_byArch s config q
  have hkeys : Assoc.keys (derive s config p).images = Assoc.keys (derive s config q).images :=
    hi.keys_images.trans hj.keys_images.symm
  constructor
  case targets => rfl
  case keys_images => exact hkeys
  case keys_imageDeps => rw [hi.keys_imageDeps, hj.keys_imageDeps, hkeys]
  case zip => by_cases h : p.needsZip <;> simp [derive, h]
  case modules =>
    intro h
    simp [derive, modulesOf, h]
  case locations =>
    intro h
    simp [derive, locationsOf, h]
  case modules_before =>
    intro hp _
    refine ⟨isPrefix_modulesOf config hp, ?_⟩
    simp [derive, modulesOf_of_artOnly hp]
  case locations_before =>
    intro hp _
    refine ⟨isPrefix_locationsOf config hp, ?_⟩
    simp [derive, locationsOf_of_artOnly hp]
  case images =>
    intro hname hstem
    simp [derive, hname, hstem]
  case imageDeps_before =>
    intro hname hstem hp arch harch
    rw [hi.keys_imageDeps] at harch
    -- Files stand module by module, so those of the ART modules come first.
    obtain ⟨files, hfiles, -, hnames, -⟩ := hi.files harch
    obtain ⟨files', hfiles', -, hnames', -⟩ := hj.files (hkeys ▸ harch)
    have hdir : (derive s config p).dir = (derive s config q).dir := by simp [derive, hname]
    refine ⟨files, files', hfiles, hfiles', ?_⟩
    rw [hnames, hnames', hstem, hdir, ← filesOf_eq, ← filesOf_eq]
    exact isPrefix_filesOf q.stem _ _ (isPrefix_modulesOf config hp)

end

end Image

namespace Session

theorem Request.profile_unique {α : Type} {r : Request α} {name : String} {p q : Profile}
    (hp : r.supply.profile name p) (hq : r.supply.profile name q) : p = q := by
  cases r with
  | image v | customImage key p' => exact hp.2.trans hq.2.symm
  | bootClasspath | makeVars | exportMakeVars strict receiver => exact hp.2.trans hq.2.symm
  | _ => exact hp.elim

structure ImageAt (σ : Session) (run : List Action) (name : String) (i : Image) : Prop where
  stored : (σ.after run).value? ⟨.image, name⟩ = some i
  custom {p : Profile} {a : Image} : .asked (.customImage name p) (.ok a) ∈ σ.history run → a = i
  variant {v : Variant} {a : Image} : (Key.image v).name = name →
    .asked (.image v) (.ok a) ∈ σ.history run → a = i

theorem imageAt_of_stored {σ : Session} {run : List Action} {name : String} {i : Image}
    (h : (σ.after run).value? ⟨.image, name⟩ = some i) : ImageAt σ run name i where
  stored := h
  custom ha := by
    obtain ⟨files, hstored⟩ := shows_of_history ha
    exact Option.some.inj (hstored.symm.trans h)
  variant hname ha := by
    subst hname
    obtain ⟨files, hstored⟩ := shows_of_history ha
    exact Option.some.inj (hstored.symm.trans h)

theorem MadeWith.image_eq {σ : Session} {run : List Action} {name : String} {p : Profile}
    (h : MadeWith σ run name p) :
    ∃ config : Resolved, (σ.after run).value? Key.globalConfig = some config ∧
      (σ.after run).value? ⟨.image, name⟩ = some (Image.derive σ.settings config.config p) := by
  obtain ⟨τ, α, r, ⟨before, later, rfl, rfl, hempty, hfilled⟩, hp⟩ := h
  obtain ⟨i, hi⟩ := Option.isSome_iff_exists.mp hfilled
  obtain ⟨ks, hg⟩ := (σ.after before).ask_grows r
  obtain ⟨p', config, hp', hconfig, hderived⟩ := hg.gained hempty hi
  obtain rfl := Request.profile_unique hp hp'
  rw [settings_after] at hderived
  have hafter : σ.after (before ++ .ask r :: later) = ((σ.after before).ask r).2.after later :=
    List.foldl_append
  rw [hafter]
  exact ⟨config, after_keeps hconfig later, hderived ▸ after_keeps hi later⟩

/-- Whatever went before, images that requests of one run derive differ as their profiles say. -/
theorem images_vary_by_profile {σ : Session} {run : List Action} {name name' : String}
    {p q : Profile} (hp : MadeWith σ run name p) (hq : MadeWith σ run name' q) :
    ∃ (config : Resolved) (i j : Image), (σ.after run).value? Key.globalConfig = some config ∧
      ImageAt σ run name i ∧ ImageAt σ run name' j ∧
      Image.VariesBy config.config.artApexJars.length p q i j ∧
      Image.VariesBy config.config.artApexJars.length q p j i := by
  obtain ⟨config, hconfig, hi⟩ := hp.image_eq
  obtain ⟨config', hconfig', hj⟩ := hq.image_eq
  obtain rfl := Option.some.inj (hconfig.symm.trans hconfig')
  exact ⟨config, _, _, hconfig, imageAt_of_stored hi, imageAt_of_stored hj,
    Image.derive_variesBy σ.settings config.config p q,
    Image.derive_variesBy σ.settings config.config q p⟩

theorem images_vary_by_profile_art_only :
    let settings : Settings := { targets := [⟨.android, .arm64, .disabled⟩] }
    let config : GlobalConfig := { artApexJars := ["core-oj"], bootJars := ["framework"] }
    let own : Profile := ⟨"boot", "boot", false, true⟩
    let run : List Action :=
      [.ask (.inject config), .ask .makeVars, .ask (.customImage "own" own)]
    let σ := start settings {}
    MadeWith σ run "own" own ∧
      MadeWith σ run (Key.image .default).name Variant.default.profile ∧
      ∃ i j, ImageAt σ run "own" i ∧ ImageAt σ run (Key.image .default).name j ∧
        i.modules <+: j.modules ∧ i.dexLocations <+: j.dexLocations ∧ i.images = j.images := by
  intro settings config own run σ
  have hown : MadeWith σ run "own" own := by
    refine ⟨_, _, .customImage "own" own, ⟨[.ask (.inject config), .ask .makeVars], [], rfl, rfl,
      ?_, ?_⟩, rfl, rfl⟩
    · decide +kernel
    · decide +kernel
  have hdefault : MadeWith σ run (Key.image .default).name Variant.default.profile := by
    refine ⟨_, _, .makeVars, ⟨[.ask (.inject config)], [.ask (.customImage "own" own)], rfl, rfl,
      ?_, ?_⟩, rfl, rfl⟩
    · decide +kernel
    · decide +kernel
  obtain ⟨config', i, j, -, hi, hj, hvaries, -⟩ := images_vary_by_profile hown hdefault
  exact ⟨hown, hdefault, i, j, hi, hj, (hvaries.modules_before rfl rfl).1,
    (hvaries.locations_before rfl rfl).1, hvaries.images rfl rfl⟩

end Session
end Preopt
