import Preopt.Proofs.Image.Collisions
import Preopt.Proofs.Image.Layout

/-! The files of an image by architecture. Every architecture of a plain target has one entry in each
of the two maps, at the place where it comes first, and what the entry holds depends on the image and
the architecture alone. So targets of the same architecture write the same entry. -/

namespace Preopt.Image

structure ByArch (s : Settings) (p : Profile) (i : Image) : Prop where
  targets : i.targets = s.targets.filter fun t => t.os = .android ∧ t.nativeBridge = .disabled
  keys_images : Assoc.keys i.images = (i.targets.map (·.arch)).eraseDups
  keys_imageDeps : Assoc.keys i.imageDeps = Assoc.keys i.images
  nodup : (Assoc.keys i.images).Nodup
  mem_keys {arch : Arch} : arch ∈ Assoc.keys i.images ↔
    ∃ t ∈ s.targets, t.os = .android ∧ t.nativeBridge = .disabled ∧ t.arch = arch
  image {arch : Arch} : arch ∈ Assoc.keys i.images →
    Assoc.get? i.images arch =
      some (((i.dir.join "system/framework").join arch.name).join (p.stem ++ ".art"))
  files {arch : Arch} : arch ∈ Assoc.keys i.images → ∃ files,
    Assoc.get? i.imageDeps arch = some files ∧ files.length = 3 * i.modules.length ∧
      files = (fileNames p.stem i.modules).map
        ((i.dir.join "system/framework").join arch.name).join ∧
      (i.modules ≠ [] → files.head? = Assoc.get? i.images arch)

section Map

variable {β : Type} (f : Arch → β) {ts : List Target}

theorem keys_foldl_arch :
    Assoc.keys (ts.foldl (fun done t => Assoc.put done t.arch (f t.arch)) []) =
      (ts.map (·.arch)).eraseDups := by
  rw [Assoc.keys_foldl_put]
  simp [Assoc.keys]

theorem get?_foldl_arch {arch : Arch} (h : arch ∈ (ts.map (·.arch)).eraseDups) :
    Assoc.get? (ts.foldl (fun done t => Assoc.put done t.arch (f t.arch)) []) arch =
      some (f arch) := by
  obtain ⟨t, ht, rfl⟩ := List.mem_map.mp (List.mem_eraseDups.mp h)
  exact Assoc.get?_foldl_put (fun t _ t' _ harch => congrArg f harch) ht

end Map

theorem mem_plainTargets {s : Settings} {t : Target} :
    t ∈ s.plainTargets ↔ t ∈ s.targets ∧ t.os = .android ∧ t.nativeBridge = .disabled := by
  simp [Settings.plainTargets, Target.plain, Target.isPlain]

theorem length_fileNames (stem : String) (modules : List String) :
    (fileNames stem modules).length = 3 * modules.length := by
  have hfiles := length_filesOf stem modules ⟨""⟩ fileExtensions
  rw [filesOf_eq, List.length_map] at hfiles
  exact hfiles.trans (Nat.mul_comm _ _)

theorem head?_fileNames (stem : String) {modules : List String} (h : modules ≠ []) :
    (fileNames stem modules).head? = some (stem ++ ".art") := by
  cases modules with
  | nil => exact absurd rfl h
  | cons first later => rfl

theorem derive_byArch (s : Settings) (config : GlobalConfig) (p : Profile) :
    ByArch s p (derive s config p) := by
  let i := derive s config p
  let image (arch : Arch) : Path := (archDir i.dir arch).join (p.stem ++ ".art")
  let files (arch : Arch) : List Path :=
    filesOf p.stem i.modules (archDir i.dir arch) fileExtensions
  have hkeys : Assoc.keys i.images = (s.plainTargets.map (·.arch)).eraseDups :=
    keys_foldl_arch image
  have himage {arch : Arch} (harch : arch ∈ Assoc.keys i.images) :
      Assoc.get? i.images arch = some (image arch) := by
    rw [hkeys] at harch
    exact get?_foldl_arch image harch
  have hfiles {arch : Arch} (harch : arch ∈ Assoc.keys i.images) :
      Assoc.get? i.imageDeps arch =
        some ((fileNames p.stem i.modules).map (archDir i.dir arch).join) := by
    rw [hkeys] at harch
    rw [← filesOf_eq]
    exact get?_foldl_arch files harch
  constructor
  case targets =>
    refine List.filter_congr fun t _ => ?_
    simp [Target.isPlain]
  case keys_images => exact hkeys
  case keys_imageDeps => exact (keys_foldl_arch files).trans hkeys.symm
  case nodup => exact Assoc.nodup_keys_foldl_put List.nodup_nil
  case mem_keys =>
    intro arch
    change arch ∈ Assoc.keys i.images ↔ _
    rw [hkeys, List.mem_eraseDups, List.mem_map]
    simp [mem_plainTargets, and_assoc]
  case image => exact himage
  case files =>
    intro arch harch
    refine ⟨_, hfiles harch, ?_, rfl, fun hmodules => ?_⟩
    · rw [List.length_map, length_fileNames]
    · rw [List.head?_map, head?_fileNames p.stem hmodules]
      exact (himage harch).symm

end Preopt.Image
