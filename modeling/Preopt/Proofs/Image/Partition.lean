import Preopt.Proofs.Image.Containment

/-! Which modules an image has, and where the jar of each one is. The ART modules come first, then
the boot jars that are left once those and the product's updatable modules are taken out. The
locations and paths of the jars are listed in the order of the modules, and only the locations take
a module's stem for its name. -/

namespace Preopt.Image

variable {config : GlobalConfig} {p : Profile}

structure Partitioned (config : GlobalConfig) (p : Profile) (modules : List String) : Prop where
  artOnly : p.artOnly = true → modules = config.artApexJars
  whole : p.artOnly = false → modules = config.artApexJars ++ config.bootJars.filter fun m =>
    m ∉ config.artApexJars ∧ m ∉ config.productUpdatableBootModules
  nodup : modules.Nodup
  mem_iff : p.artOnly = false → ∀ m, m ∈ modules ↔
    m ∈ config.artApexJars ∨ m ∈ config.bootJars ∧ m ∉ config.productUpdatableBootModules
  count_eq_one_or : p.artOnly = false → ∀ m ∈ config.bootJars,
    modules.count m = 1 ∨ m ∈ config.productUpdatableBootModules

theorem mem_frameworkModules {m : String} : m ∈ frameworkModules config ↔
    m ∈ config.bootJars ∧ m ∉ config.artApexJars ∧ m ∉ config.productUpdatableBootModules := by
  rw [frameworkModules, without, List.mem_filter, decide_eq_true_eq, List.mem_append, not_or]

theorem frameworkModules_eq : frameworkModules config = config.bootJars.filter fun m =>
    m ∉ config.artApexJars ∧ m ∉ config.productUpdatableBootModules := by
  rw [frameworkModules, without]
  refine List.filter_congr fun m _ => decide_eq_decide.mpr ?_
  rw [List.mem_append, not_or]

theorem modulesOf_of_artOnly (h : p.artOnly = true) : modulesOf config p = config.artApexJars := by
  rw [modulesOf, if_pos h, List.append_nil]

theorem modulesOf_of_whole (h : p.artOnly = false) :
    modulesOf config p = config.artApexJars ++ frameworkModules config := by
  rw [modulesOf, if_neg (by simp [h])]

theorem locationsOf_of_artOnly (h : p.artOnly = true) :
    locationsOf config p = config.artApexJars.map (jarLocation artJarDir) := by
  rw [locationsOf, if_pos h, List.append_nil]

theorem locationsOf_of_whole (h : p.artOnly = false) :
    locationsOf config p = config.artApexJars.map (jarLocation artJarDir) ++
      (config.bootJars.filter fun m =>
        m ∉ config.artApexJars ∧ m ∉ config.productUpdatableBootModules).map
          (jarLocation frameworkDir) := by
  rw [locationsOf, if_neg (by simp [h]), frameworkModules_eq]

theorem mem_modulesOf (h : p.artOnly = false) {m : String} : m ∈ modulesOf config p ↔
    m ∈ config.artApexJars ∨ m ∈ config.bootJars ∧ m ∉ config.productUpdatableBootModules := by
  rw [modulesOf_of_whole h, List.mem_append, mem_frameworkModules]
  by_cases hart : m ∈ config.artApexJars <;> simp [hart]

theorem modulesOf_partitioned (hv : config.validate = .ok ()) (p : Profile) :
    Partitioned config p (modulesOf config p) := by
  have hn : (modulesOf config p).Nodup := nodup_modulesOf hv
  constructor
  case artOnly => exact modulesOf_of_artOnly
  case whole =>
    intro h
    rw [modulesOf_of_whole h, frameworkModules_eq]
  case nodup => exact hn
  case mem_iff => exact fun h m => mem_modulesOf h
  case count_eq_one_or =>
    intro h m hm
    by_cases hupdatable : m ∈ config.productUpdatableBootModules
    · exact .inr hupdatable
    · have hmem : m ∈ modulesOf config p := (mem_modulesOf h).mpr (.inr ⟨hm, hupdatable⟩)
      exact .inl (List.count_eq_one_of_mem hn hmem)

def jarDirAt (config : GlobalConfig) (n : Nat) : String :=
  if n < config.artApexJars.length then "/apex/com.android.art/javalib" else "/system/framework"

def inputDir (s : Settings) (p : Profile) : Path :=
  (s.outDir.join s.deviceName).join ("dex_" ++ p.name ++ "jars_input")

structure Aligned (s : Settings) (config : GlobalConfig) (p : Profile) (i : Image) : Prop where
  length_locations : i.dexLocations.length = i.modules.length
  length_paths : i.dexPaths.length = i.modules.length
  location {n : Nat} {m : String} : i.modules[n]? = some m →
    i.dexLocations[n]? = some ((⟨jarDirAt config n⟩ : Path).join (stemOf m ++ ".jar")).text
  path {n : Nat} {m : String} : i.modules[n]? = some m →
    i.dexPaths[n]? = some ((inputDir s p).join (m ++ ".jar"))
  absolute {n : Nat} {m : String} : i.modules[n]? = some m → Absolute m →
    i.dexLocations[n]? = some (m ++ ".jar") ∧ i.dexPaths[n]? = some ⟨m ++ ".jar"⟩
  relative {n : Nat} {m : String} : i.modules[n]? = some m → ¬ Absolute m →
    i.dexLocations[n]? = some (jarDirAt config n ++ "/" ++ stemOf m ++ ".jar") ∧
      ∃ path, i.dexPaths[n]? = some path ∧
        path.text.toList = (inputDir s p).lead ++ (m ++ ".jar").toList
  renamed {n : Nat} : i.modules[n]? = some "framework-minus-apex" →
    i.dexLocations[n]? = some (jarDirAt config n ++ "/framework.jar") ∧
      i.dexPaths[n]? = some ((inputDir s p).join "framework-minus-apex.jar")

theorem length_locationsOf : (locationsOf config p).length = (modulesOf config p).length := by
  rw [locationsOf_eq, modulesOf_eq, List.length_append, List.length_append, List.length_map,
    List.length_map]

/-- Both groups of modules are mapped each by a function of its own, so that the index tells which.
-/
theorem getElem?_locationsOf {n : Nat} {m : String} (h : (modulesOf config p)[n]? = some m) :
    (locationsOf config p)[n]? = some (jarLocation ⟨jarDirAt config n⟩ m) := by
  rw [modulesOf_eq, List.getElem?_append] at h
  rw [locationsOf_eq, List.getElem?_append, List.length_map, jarDirAt]
  split at h
  · next hn =>
    rw [if_pos hn, if_pos hn, List.getElem?_map, h]
    rfl
  · next hn =>
    rw [if_neg hn, if_neg hn, List.getElem?_map, h]
    rfl

theorem lead_jarDirAt (n : Nat) :
    (⟨jarDirAt config n⟩ : Path).lead = (jarDirAt config n).toList ++ ['/'] := by
  rw [jarDirAt]
  split <;> decide

theorem jarLocation_jarDirAt {n : Nat} {m : String} (h : ¬ Absolute m) :
    jarLocation ⟨jarDirAt config n⟩ m = jarDirAt config n ++ "/" ++ stemOf m ++ ".jar" := by
  apply String.toList_inj.mp
  rw [jarLocation_of_relative (mt stemOf_absolute_iff.mp h), lead_jarDirAt]
  simp only [String.toList_append]
  rfl

theorem derive_aligned (s : Settings) (config : GlobalConfig) (p : Profile) :
    Aligned s config p (derive s config p) := by
  have hlocation {n : Nat} {m : String} (h : (modulesOf config p)[n]? = some m) :
      (derive s config p).dexLocations[n]? = some (jarLocation ⟨jarDirAt config n⟩ m) :=
    getElem?_locationsOf h
  have hpath {n : Nat} {m : String} (h : (modulesOf config p)[n]? = some m) :
      (derive s config p).dexPaths[n]? = some ((inputDir s p).join (m ++ ".jar")) := by
    rw [derive, List.getElem?_map, h]
    rfl
  constructor
  case length_locations => exact length_locationsOf
  case length_paths => exact List.length_map _
  case location => exact hlocation
  case path => exact hpath
  case absolute =>
    intro n m h hm
    rw [hlocation h, hpath h, jarLocation_of_absolute (stemOf_absolute_iff.mpr hm),
      Path.join_of_absolute _ ((head?_jarName m).mpr hm)]
    exact ⟨rfl, rfl⟩
  case relative =>
    intro n m h hm
    rw [hlocation h, jarLocation_jarDirAt hm]
    exact ⟨rfl, _, hpath h, Path.join_of_relative _ (mt (head?_jarName m).mp hm)⟩
  case renamed =>
    intro n h
    rw [hlocation h, jarLocation_jarDirAt (by decide), String.append_assoc, String.append_assoc]
    exact ⟨rfl, hpath h⟩

end Preopt.Image
