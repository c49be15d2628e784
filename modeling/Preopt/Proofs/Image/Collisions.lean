import Mathlib.Data.List.Nodup
import Preopt.Proofs.Assoc
import Preopt.Proofs.Config.Validity
import Preopt.Proofs.Image.Joins

/-! Which modules of an image share a jar or a compiled file. Modules of a valid config have
different names. Jars and files are named after stems, and one pair of modules has the same stem.
Beyond that a name can reach into the directories of jars, or be spelled like another one. -/

namespace Preopt

theorem stemOf_eq (m : String) :
    stemOf m = if m = "framework-minus-apex" then "framework" else m := by
  by_cases h : m = "framework-minus-apex"
  · subst h
    decide
  · have hne : "framework-minus-apex" ≠ m := fun h' => h h'.symm
    simp [stemOf, stemOverrides, Assoc.get?, h, hne]

theorem stemOf_of_absolute {m : String} (h : (stemOf m).toList.head? = some '/') :
    stemOf m = m := by
  by_cases hm : m = "framework-minus-apex"
  · subst hm
    exact absurd h (by decide)
  · rw [stemOf_eq, if_neg hm]

namespace Image

/-- The two modules whose jar is named framework are both listed. -/
def Clash (modules : List String) : Prop :=
  "framework" ∈ modules ∧ "framework-minus-apex" ∈ modules

instance (modules : List String) : Decidable (Clash modules) := inferInstanceAs (Decidable (_ ∧ _))

theorem nodup_stems_iff {modules : List String} (h : modules.Nodup) :
    (modules.map stemOf).Nodup ↔ ¬ Clash modules := by
  rw [List.nodup_map_iff_inj_on h]
  constructor
  · rintro hinj ⟨hframework, hminus⟩
    have heq := hinj _ hframework _ hminus (by decide)
    revert heq
    decide
  · intro hclash m hm m' hm' heq
    rw [stemOf_eq, stemOf_eq] at heq
    split at heq <;> split at heq
    · next h h' => rw [h, h']
    · next h h' => exact absurd ⟨heq ▸ hm', h ▸ hm⟩ hclash
    · next h h' => exact absurd ⟨heq ▸ hm, h' ▸ hm'⟩ hclash
    · exact heq

section Locations

def jarDirs : List Path := [artJarDir, frameworkDir]

/-- A name that is itself a path into a directory of jars. -/
def Intrudes (m : String) : Prop := ∃ dir ∈ jarDirs, dir.lead <+: m.toList

instance (m : String) : Decidable (Intrudes m) :=
  inferInstanceAs (Decidable (∃ dir ∈ jarDirs, _))

theorem lead_injective {dir dir' : Path} (hd : dir ∈ jarDirs) (hd' : dir' ∈ jarDirs)
    {rest rest' : List Char} (h : dir.lead ++ rest = dir'.lead ++ rest') : dir = dir' := by
  have hart : artJarDir.lead = '/' :: 'a' :: "pex/com.android.art/javalib/".toList := by decide
  have hframework : frameworkDir.lead = '/' :: 's' :: "ystem/framework/".toList := by decide
  simp only [jarDirs, List.mem_cons, List.not_mem_nil, or_false] at hd hd'
  rcases hd with rfl | rfl <;> rcases hd' with rfl | rfl
  · rfl
  · simp [hart, hframework] at h
  · simp [hart, hframework] at h
  · rfl

theorem head?_jarName (name : String) :
    (name ++ ".jar").toList.head? = some '/' ↔ name.toList.head? = some '/' := by
  rw [String.toList_append]
  cases name.toList with
  | nil => decide
  | cons c rest => simp

theorem jarLocation_of_absolute {dir : Path} {m : String}
    (h : (stemOf m).toList.head? = some '/') : jarLocation dir m = m ++ ".jar" := by
  rw [jarLocation, Path.join_of_absolute dir ((head?_jarName _).mpr h), stemOf_of_absolute h]

theorem jarLocation_of_relative {dir : Path} {m : String}
    (h : (stemOf m).toList.head? ≠ some '/') :
    (jarLocation dir m).toList = dir.lead ++ (stemOf m).toList ++ ".jar".toList := by
  rw [jarLocation, Path.join_of_relative dir (mt (head?_jarName _).mp h), String.toList_append,
    List.append_assoc]

theorem intrudes_of_location {dir dir' : Path} (hd' : dir' ∈ jarDirs) {m m' : String}
    (h : (stemOf m).toList.head? = some '/') (h' : (stemOf m').toList.head? ≠ some '/')
    (heq : jarLocation dir m = jarLocation dir' m') : Intrudes m := by
  have htext := congrArg String.toList heq
  rw [jarLocation_of_absolute h, jarLocation_of_relative h', String.toList_append] at htext
  exact ⟨dir', hd', _, (List.append_cancel_right htext).symm⟩

/-- Where no name intrudes, modules share a location only below one directory, with one stem. -/
theorem of_jarLocation_eq {dir dir' : Path} (hd : dir ∈ jarDirs) (hd' : dir' ∈ jarDirs)
    {m m' : String} (hm : ¬ Intrudes m) (hm' : ¬ Intrudes m')
    (heq : jarLocation dir m = jarLocation dir' m') :
    m = m' ∨ dir = dir' ∧ stemOf m = stemOf m' := by
  by_cases h : (stemOf m).toList.head? = some '/' <;>
    by_cases h' : (stemOf m').toList.head? = some '/'
  · rw [jarLocation_of_absolute h, jarLocation_of_absolute h'] at heq
    exact .inl ((String.append_left_inj _).mp heq)
  · exact absurd (intrudes_of_location hd' h h' heq) hm
  · exact absurd (intrudes_of_location hd h' h heq.symm) hm'
  · have htext := congrArg String.toList heq
    rw [jarLocation_of_relative h, jarLocation_of_relative h'] at htext
    have hcut := List.append_cancel_right htext
    obtain rfl := lead_injective hd hd' hcut
    exact .inr ⟨rfl, String.toList_inj.mp (List.append_cancel_left hcut)⟩

theorem nodup_locations_iff {dir : Path} (hd : dir ∈ jarDirs) {modules : List String}
    (hn : modules.Nodup) (h : ∀ m ∈ modules, ¬ Intrudes m) :
    (modules.map (jarLocation dir)).Nodup ↔ ¬ Clash modules := by
  rw [← nodup_stems_iff hn, List.nodup_map_iff_inj_on hn, List.nodup_map_iff_inj_on hn]
  constructor
  · intro hinj m hm m' hm' hstem
    exact hinj m hm m' hm' (by rw [jarLocation, jarLocation, hstem])
  · intro hinj m hm m' hm' heq
    rcases of_jarLocation_eq hd hd (h m hm) (h m' hm') heq with rfl | ⟨-, hstem⟩
    · rfl
    · exact hinj m hm m' hm' hstem

def latterModules (config : GlobalConfig) (p : Profile) : List String :=
  if p.artOnly then [] else frameworkModules config

variable {config : GlobalConfig} {p : Profile}

theorem modulesOf_eq : modulesOf config p = config.artApexJars ++ latterModules config p := rfl

theorem locationsOf_eq : locationsOf config p =
    config.artApexJars.map (jarLocation artJarDir) ++
      (latterModules config p).map (jarLocation frameworkDir) := by
  rw [locationsOf, latterModules]
  split <;> rfl

theorem nodup_modulesOf (h : config.validate = .ok ()) : (modulesOf config p).Nodup := by
  obtain ⟨-, hart, hboot⟩ := GlobalConfig.validate_ok_iff.mp h
  rw [modulesOf]
  split
  · simpa using hart
  · refine List.nodup_append.mpr ⟨hart, hboot.filter _, fun m hm m' hm' heq => ?_⟩
    have hout : m' ∉ config.artApexJars ++ config.productUpdatableBootModules := by
      simpa using (List.mem_filter.mp hm').2
    exact hout (List.mem_append_left _ (heq ▸ hm))

theorem nodup_locationsOf_iff (hvalid : config.validate = .ok ())
    (h : ∀ m ∈ modulesOf config p, ¬ Intrudes m) :
    (locationsOf config p).Nodup ↔
      ¬ Clash config.artApexJars ∧ ¬ Clash (latterModules config p) := by
  have hn := nodup_modulesOf (p := p) hvalid
  rw [modulesOf_eq] at hn h
  obtain ⟨hart, hlatter, hapart⟩ := List.nodup_append.mp hn
  obtain ⟨hartIn, hlatterIn⟩ := List.forall_mem_append.mp h
  have hartDir : artJarDir ∈ jarDirs := by decide
  have hframeworkDir : frameworkDir ∈ jarDirs := by decide
  rw [locationsOf_eq, List.nodup_append, nodup_locations_iff hartDir hart hartIn,
    nodup_locations_iff hframeworkDir hlatter hlatterIn]
  refine and_congr_right fun _ => and_iff_left_of_imp fun _ => ?_
  intro l hl l' hl' heq
  obtain ⟨m, hm, rfl⟩ := List.mem_map.mp hl
  obtain ⟨m', hm', rfl⟩ := List.mem_map.mp hl'
  rcases of_jarLocation_eq hartDir hframeworkDir (hartIn m hm) (hlatterIn m' hm') heq with
    hsame | ⟨hdir, -⟩
  · exact hapart m hm m' hm' hsame
  · revert hdir
    decide

end Locations

section Files

variable {stem : String} {modules : List String}

def fileNames (stem : String) (modules : List String) : List String :=
  (fileBases stem modules).flatMap fun base => fileExtensions.map (base ++ ·)

theorem filesOf_eq (dir : Path) :
    filesOf stem modules dir fileExtensions = (fileNames stem modules).map dir.join := by
  simp [filesOf, fileNames, List.map_flatMap, Function.comp_def]

theorem mem_fileBases {base : String} (h : base ∈ fileBases stem modules) :
    base = stem ∨ ∃ m ∈ modules.tail, base = stem ++ "-" ++ stemOf m := by
  cases modules with
  | nil => cases h
  | cons first later =>
    rcases List.mem_cons.mp h with rfl | h
    · exact .inl rfl
    · obtain ⟨m, hm, rfl⟩ := List.mem_map.mp h
      exact .inr ⟨m, hm, rfl⟩

theorem nodup_fileBases_iff (h : modules.Nodup) :
    (fileBases stem modules).Nodup ↔ ¬ Clash modules.tail := by
  cases modules with
  | nil => simp [fileBases, Clash]
  | cons first later =>
    have hlater : later.Nodup := (List.nodup_cons.mp h).2
    have hinj : Function.Injective fun base => stem ++ "-" ++ base :=
      fun base base' heq => (String.append_right_inj _).mp heq
    have hfirst : stem ∉ later.map fun m => stem ++ "-" ++ stemOf m := by
      intro hmem
      obtain ⟨m, -, heq⟩ := List.mem_map.mp hmem
      have hlength := congrArg String.length heq
      have hdash : "-".length = 1 := by decide
      rw [String.length_append, String.length_append, hdash] at hlength
      omega
    have hmap : (later.map fun m => stem ++ "-" ++ stemOf m) =
        (later.map stemOf).map fun base => stem ++ "-" ++ base := by
      simp
    rw [fileBases, List.nodup_cons, and_iff_right hfirst, hmap, List.nodup_map_iff hinj,
      nodup_stems_iff hlater, List.tail_cons]

theorem append_extension_inj {base base' ext ext' : String} (h : ext ∈ fileExtensions)
    (h' : ext' ∈ fileExtensions) (heq : base ++ ext = base' ++ ext') : base = base' := by
  -- the last letter of a file name tells how long its extension is
  have hletter : ∀ e ∈ fileExtensions, ∀ e' ∈ fileExtensions,
      e.toList.getLast? = e'.toList.getLast? → e.toList.length = e'.toList.length := by decide
  have hne : ∀ e ∈ fileExtensions, e.toList ≠ [] := by decide
  have htext := congrArg String.toList heq
  rw [String.toList_append, String.toList_append] at htext
  have hlast := congrArg List.getLast? htext
  rw [List.getLast?_append_of_ne_nil _ (hne ext h),
    List.getLast?_append_of_ne_nil _ (hne ext' h')] at hlast
  have hbase := List.append_inj_left' htext (hletter ext h ext' h' hlast)
  exact String.toList_inj.mp hbase

theorem nodup_fileNames_iff (h : modules.Nodup) :
    (fileNames stem modules).Nodup ↔ ¬ Clash modules.tail := by
  have hexts (base : String) : (fileExtensions.map (base ++ ·)).Nodup := by
    refine List.Nodup.map (fun ext ext' heq => (String.append_right_inj _).mp heq) ?_
    decide
  rw [← nodup_fileBases_iff h, fileNames, List.nodup_flatMap,
    and_iff_right fun base _ => hexts base, List.Nodup]
  constructor
  · refine List.Pairwise.imp fun {base base'} hdisjoint heq => ?_
    subst heq
    exact hdisjoint (a := base ++ ".art") (by simp [fileExtensions]) (by simp [fileExtensions])
  · refine List.Pairwise.imp fun {base base'} hne file hfile hfile' => hne ?_
    obtain ⟨ext, hext, rfl⟩ := List.mem_map.mp hfile
    obtain ⟨ext', hext', heq⟩ := List.mem_map.mp hfile'
    exact (append_extension_inj hext' hext heq).symm

theorem mem_fileNames {name : String} (h : name ∈ fileNames stem modules) :
    ∃ ext ∈ fileExtensions, name = stem ++ ext ∨
      ∃ m ∈ modules.tail, name = stem ++ "-" ++ stemOf m ++ ext := by
  obtain ⟨base, hbase, hname⟩ := List.mem_flatMap.mp h
  obtain ⟨ext, hext, rfl⟩ := List.mem_map.mp hname
  rcases mem_fileBases hbase with rfl | ⟨m, hm, rfl⟩
  · exact ⟨ext, hext, .inl rfl⟩
  · exact ⟨ext, hext, .inr ⟨m, hm, rfl⟩⟩

theorem of_mem_fileExtensions {ext : String} (h : ext ∈ fileExtensions) :
    '/' ∉ ext.toList ∧ 2 ≤ ext.toList.length ∧ ext.toList.head? = some '.' := by
  have hall : ∀ e ∈ fileExtensions,
      '/' ∉ e.toList ∧ 2 ≤ e.toList.length ∧ e.toList.head? = some '.' := by decide
  exact hall ext h

variable (hs : '/' ∉ stem.toList)
include hs

theorem relative_of_mem_fileNames {name : String} (h : name ∈ fileNames stem modules) :
    name.toList.head? ≠ some '/' := by
  have hstem {rest : List Char} (hrest : rest.head? ≠ some '/') :
      (stem.toList ++ rest).head? ≠ some '/' := by
    cases hc : stem.toList with
    | nil => exact hrest
    | cons c cs =>
      rintro hhead
      obtain rfl : c = '/' := by simpa using hhead
      exact hs (hc ▸ List.mem_cons_self)
  obtain ⟨ext, hext, rfl | ⟨m, -, rfl⟩⟩ := mem_fileNames h
  · obtain ⟨-, -, hdot⟩ := of_mem_fileExtensions hext
    rw [String.toList_append]
    exact hstem (by rw [hdot]; decide)
  · rw [String.append_assoc, String.append_assoc, String.toList_append]
    refine hstem ?_
    rw [String.toList_append]
    simp

theorem tidy_of_mem_fileNames (hne : stem ≠ "")
    (ht : ∀ m ∈ modules.tail, Path.TidyWithin m.toList) {name : String}
    (h : name ∈ fileNames stem modules) : Path.Tidy name.toList := by
  have hlength : 1 ≤ stem.toList.length :=
    List.length_pos_iff.mpr fun h => hne (String.toList_eq_nil_iff.mp h)
  obtain ⟨ext, hext, rfl | ⟨m, hm, rfl⟩⟩ := mem_fileNames h
  · obtain ⟨hslash, htwo, -⟩ := of_mem_fileExtensions hext
    rw [String.toList_append]
    exact Path.tidy_of_name (by simp [hs, hslash]) (by rw [List.length_append]; omega)
  · obtain ⟨hslash, htwo, -⟩ := of_mem_fileExtensions hext
    have hwithin : Path.TidyWithin (stemOf m).toList := by
      rw [stemOf_eq]
      split
      · decide
      · exact ht m hm
    have hbefore : '/' ∉ (stem ++ "-").toList := by simp [hs]
    rw [String.toList_append, String.toList_append]
    exact Path.tidy_of_within hwithin hbefore hslash (by simp; omega) htwo

omit hs in
theorem archDir_lead (dir : Path) (arch : Arch) :
    (archDir dir arch).lead =
      (dir.lead ++ "system/framework".toList) ++ '/' :: (arch.name.toList ++ ['/']) := by
  have htree : (dir.join "system/framework").lead =
      dir.lead ++ "system/framework".toList ++ ['/'] :=
    Path.lead_join dir (c := 'k') (by decide) (by decide) (by decide)
  have harch : (archDir dir arch).lead =
      (dir.join "system/framework").lead ++ arch.name.toList ++ ['/'] := by
    cases arch
    · exact Path.lead_join _ (c := 'm') (by decide) (by decide) (by decide)
    · exact Path.lead_join _ (c := '4') (by decide) (by decide) (by decide)
    · exact Path.lead_join _ (c := '6') (by decide) (by decide) (by decide)
    · exact Path.lead_join _ (c := '4') (by decide) (by decide) (by decide)
  rw [harch, htree]
  simp

theorem nodup_filesOf_iff (dir : Path) (h : modules.Nodup) :
    (filesOf stem modules dir fileExtensions).Nodup ↔ ¬ Clash modules.tail := by
  rw [filesOf_eq, ← nodup_fileNames_iff h]
  refine ⟨List.Nodup.of_map _, fun hn => (List.nodup_map_iff_inj_on hn).mpr ?_⟩
  intro name hname name' hname'
  exact Path.join_injective (relative_of_mem_fileNames hs hname)
    (relative_of_mem_fileNames hs hname')

theorem pairwise_filesOf_iff (dir : Path) (arch : Arch) (h : modules.Nodup) (hne : stem ≠ "")
    (ht : ∀ m ∈ modules.tail, Path.TidyWithin m.toList) :
    (filesOf stem modules (archDir dir arch) fileExtensions).Pairwise (fun p q => ¬ p.same q) ↔
      ¬ Clash modules.tail := by
  have hname : '/' ∉ arch.name.toList ∧ arch.name.toList ≠ [] := by cases arch <;> decide
  rw [filesOf_eq, List.pairwise_map, ← nodup_fileNames_iff h, List.Nodup]
  refine List.Pairwise.iff_of_mem fun {name name'} hmem hmem' => not_congr ?_
  rw [Path.same_join_iff (archDir_lead dir arch) hname.1 hname.2
    (relative_of_mem_fileNames hs hmem) (relative_of_mem_fileNames hs hmem')]
  constructor
  · intro hkept
    exact String.toList_inj.mp (Path.kept_injective (tidy_of_mem_fileNames hs hne ht hmem)
      (tidy_of_mem_fileNames hs hne ht hmem') hkept)
  · rintro rfl
    rfl

end Files

structure KeptApart (config : GlobalConfig) (p : Profile) (i : Image) : Prop where
  modules : i.modules.Nodup
  locations : (∀ m ∈ i.modules, ¬ Intrudes m) →
    (i.dexLocations.Nodup ↔ ¬ Clash config.artApexJars ∧ ¬ Clash (latterModules config p))
  texts {arch : Arch} {files : List Path} : (arch, files) ∈ i.imageDeps →
    (files.Nodup ↔ ¬ Clash i.modules.tail)
  paths {arch : Arch} {files : List Path} : (arch, files) ∈ i.imageDeps →
    (∀ m ∈ i.modules.tail, Path.TidyWithin m.toList) →
    (files.Pairwise (fun f f' => ¬ f.same f') ↔ ¬ Clash i.modules.tail)

theorem imageDeps_eq {s : Settings} {config : GlobalConfig} {p : Profile} {arch : Arch}
    {files : List Path} (h : (arch, files) ∈ (derive s config p).imageDeps) :
    files = filesOf p.stem (derive s config p).modules
      (archDir (derive s config p).dir arch) fileExtensions := by
  rcases Assoc.mem_foldl_put h with h | ⟨t, -, h⟩
  · cases h
  · obtain ⟨rfl, rfl⟩ := Prod.mk.inj h
    rfl

/-- Modules of a valid config collide in one pair only, save by names that are paths. -/
theorem valid_modules_kept_apart (s : Settings) (config : GlobalConfig) (v : Variant)
    (h : config.validate = .ok ()) :
    KeptApart config v.profile (derive s config v.profile) := by
  have hn : (modulesOf config v.profile).Nodup := nodup_modulesOf h
  have hs : '/' ∉ v.profile.stem.toList ∧ v.profile.stem ≠ "" := by cases v <;> decide
  constructor
  case modules => exact hn
  case locations => exact nodup_locationsOf_iff h
  case texts =>
    intro arch files hfiles
    rw [imageDeps_eq hfiles]
    exact nodup_filesOf_iff hs.1 _ hn
  case paths =>
    intro arch files hfiles ht
    rw [imageDeps_eq hfiles]
    exact pairwise_filesOf_iff hs.1 _ arch hn hs.2 ht

theorem valid_modules_kept_apart_ordinary :
    let settings : Settings := { targets := [⟨.android, .arm64, .disabled⟩] }
    let config : GlobalConfig :=
      { artApexJars := ["core-oj", "okhttp"], bootJars := ["framework-minus-apex", "a/b"] }
    let i := derive settings config Variant.default.profile
    config.validate = .ok () ∧ i.modules.Nodup ∧ i.dexLocations.Nodup ∧
      ∀ arch files, (arch, files) ∈ i.imageDeps →
        files.Nodup ∧ files.Pairwise fun f f' => ¬ f.same f' := by
  intro settings config i
  have hvalid : config.validate = .ok () := by decide
  have hkept := valid_modules_kept_apart settings config .default hvalid
  have hlatter : ¬ Clash i.modules.tail := by decide
  refine ⟨hvalid, hkept.modules, ?_, fun arch files hfiles => ⟨?_, ?_⟩⟩
  · exact (hkept.locations (by decide)).mpr (by decide)
  · exact (hkept.texts hfiles).mpr hlatter
  · exact (hkept.paths hfiles (by decide)).mpr hlatter

/-- Valid configs with a module and its stem, with a path into a directory of jars, and with two
spellings of one file. -/
theorem valid_modules_collide :
    let settings : Settings := { targets := [⟨.android, .arm64, .disabled⟩] }
    let stems : GlobalConfig :=
      { artApexJars := ["core-oj"], bootJars := ["framework-minus-apex", "framework"] }
    let intruder : GlobalConfig := { bootJars := ["a", "/system/framework/a"] }
    let spellings : GlobalConfig := { artApexJars := ["core-oj"], bootJars := ["a/b", "a//b"] }
    let image (config : GlobalConfig) := derive settings config Variant.default.profile
    (stems.validate = .ok () ∧ ¬ (image stems).dexLocations.Nodup ∧
      ¬ ∀ entry ∈ (image stems).imageDeps, entry.2.Nodup) ∧
    (intruder.validate = .ok () ∧ ¬ (image intruder).dexLocations.Nodup) ∧
    (spellings.validate = .ok () ∧
      ¬ ∀ entry ∈ (image spellings).imageDeps, entry.2.Pairwise fun f f' => ¬ f.same f') := by
  decide +kernel

end Image
end Preopt
