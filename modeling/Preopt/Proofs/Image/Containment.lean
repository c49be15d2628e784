import Preopt.Proofs.Image.Collisions

/-! Where the paths of an image lead. Joining a relative piece keeps a path's components in front,
so that what is written below the device's directory stays there. Only the names of modules can be
absolute, and then the path of a module's jar is that name alone. -/

namespace Preopt

namespace Path

structure Plain (name : String) : Prop where
  ne_empty : name ≠ ""
  no_slash : '/' ∉ name.toList
  ne_dot : name ≠ "."

def Under (p root : Path) (name : String) : Prop :=
  p.components.1 = root.components.1 ∧
    root.components.2 ++ [name.toList] <+: p.components.2

instance (p root : Path) (name : String) : Decidable (Under p root name) :=
  inferInstanceAs (Decidable (_ ∧ _))

def parts (text : List Char) : List (List Char) := (text.splitOn '/').filter (· ≠ [])

theorem parts_append_slash (text piece : List Char) :
    parts (text ++ '/' :: piece) = parts text ++ parts piece := by
  rw [parts, List.splitOn_append_cons_self, List.filter_append, parts, parts]

theorem parts_join (p : Path) {piece : String} (h : piece.toList.head? ≠ some '/') :
    parts (p.join piece).text.toList = parts p.text.toList ++ parts piece.toList := by
  rw [join_of_relative p h, lead]
  split
  · rw [List.append_assoc, List.singleton_append, parts_append_slash]
  · next hslash =>
    obtain hempty | ⟨text, c, htext⟩ := List.eq_nil_or_concat p.text.toList
    · rw [hempty]
      rfl
    · rw [List.concat_eq_append] at htext
      have hc : c = '/' := by
        simpa [needsSlash, htext] using hslash
      rw [htext, hc, List.append_assoc, List.singleton_append, parts_append_slash,
        parts_append_slash]
      simp [parts]

theorem isAbsolute_join (p : Path) {piece : String} (h : piece.toList.head? ≠ some '/') :
    (p.join piece).isAbsolute = p.isAbsolute := by
  rw [isAbsolute, isAbsolute, join_of_relative p h, lead]
  cases htext : p.text.toList with
  | nil => simp [needsSlash, htext, h]
  | cons c rest => split <;> rfl

theorem components_fst (p : Path) : p.components.1 = p.isAbsolute := by
  rw [components]
  split
  · next hrelative _ => exact hrelative.symm
  · rfl

theorem components_of_parts_nil {p : Path} (h : parts p.text.toList = []) :
    p.components.2 = [] := by
  rw [parts] at h
  rw [components, h]
  cases p.isAbsolute <;> rfl

/-- A relative piece adds the parts that count, save that a leading dot stays in the empty path. -/
theorem components_join {p : Path} {piece : String} (h : piece.toList.head? ≠ some '/')
    (hp : parts p.text.toList ≠ []) :
    (p.join piece).components.2 = p.components.2 ++ kept (piece.toList.splitOn '/') := by
  obtain ⟨part, rest, hrest⟩ := List.exists_cons_of_ne_nil hp
  have hjoin := parts_join p h
  rw [hrest, List.cons_append] at hjoin
  rw [components_eq hjoin, components_eq hrest, isAbsolute_join p h, List.filter_append,
    List.append_assoc, kept, parts]

theorem components_prefix_join (p : Path) {piece : String} (h : piece.toList.head? ≠ some '/') :
    p.components.2 <+: (p.join piece).components.2 := by
  by_cases hp : parts p.text.toList = []
  · rw [components_of_parts_nil hp]
    exact List.nil_prefix
  · rw [components_join h hp]
    exact List.prefix_append _ _

namespace Plain

variable {name : String} (h : Plain name)
include h

theorem relative : name.toList.head? ≠ some '/' :=
  fun hhead => h.no_slash (List.mem_of_mem_head? hhead)

theorem splitOn_eq : name.toList.splitOn '/' = [name.toList] :=
  List.splitOn_eq_singleton h.no_slash

theorem tidy : Tidy name.toList := by
  rw [Tidy, h.splitOn_eq]
  refine List.forall_mem_singleton.mpr ⟨mt String.toList_eq_nil_iff.mp h.ne_empty, fun heq => ?_⟩
  exact h.ne_dot (String.toList_inj.mp heq)

theorem kept_eq : kept (name.toList.splitOn '/') = [name.toList] :=
  (kept_of_tidy h.tidy).trans h.splitOn_eq

theorem parts_eq : parts name.toList = [name.toList] := by
  have hne : name.toList ≠ [] := mt String.toList_eq_nil_iff.mp h.ne_empty
  rw [parts, h.splitOn_eq]
  simp [hne]

end Plain

theorem under_join_plain (root : Path) {name : String} (h : Plain name) :
    (root.join name).Under root name := by
  refine ⟨by rw [components_fst, components_fst, isAbsolute_join root h.relative], ?_⟩
  by_cases hp : parts root.text.toList = []
  · have hdot : name.toList ≠ ['.'] := fun heq => h.ne_dot (String.toList_inj.mp heq)
    have hjoin := parts_join root h.relative
    rw [hp, h.parts_eq, List.nil_append] at hjoin
    rw [components_of_parts_nil hp, components_eq hjoin]
    simp [hdot]
  · have hkept := components_join h.relative hp
    rw [h.kept_eq] at hkept
    exact ⟨[], (List.append_nil _).trans hkept.symm⟩

theorem Under.join {p root : Path} {name piece : String} (h : p.Under root name)
    (hpiece : piece.toList.head? ≠ some '/') : (p.join piece).Under root name := by
  obtain ⟨habs, hprefix⟩ := h
  refine ⟨?_, hprefix.trans (components_prefix_join p hpiece)⟩
  rw [← habs, components_fst, components_fst, isAbsolute_join p hpiece]

end Path

theorem stemOf_absolute_iff {m : String} :
    (stemOf m).toList.head? = some '/' ↔ m.toList.head? = some '/' := by
  rw [stemOf_eq]
  split
  · next hm =>
    rw [hm]
    decide
  · rfl

namespace Image

def Absolute (m : String) : Prop := m.toList.head? = some '/'

instance (m : String) : Decidable (Absolute m) := inferInstanceAs (Decidable (_ = _))

/-- The location of a module on the device begins with a directory, unless it is the module's own
name. -/
def Located (dir m location : String) : Prop :=
  if Absolute m then location = m ++ ".jar" else dir.toList <+: location.toList

structure Contained (s : Settings) (config : GlobalConfig) (p : Profile) (i : Image) : Prop where
  dir : i.dir.Under s.outDir s.deviceName
  symbolsDir : i.symbolsDir.Under s.outDir s.deviceName
  zip {z : Path} : i.zip = some z → z.Under s.outDir s.deviceName
  images {arch : Arch} {image : Path} : (arch, image) ∈ i.images →
    image.Under s.outDir s.deviceName
  imageDeps {arch : Arch} {files : List Path} : (arch, files) ∈ i.imageDeps →
    ∀ file ∈ files, file.Under s.outDir s.deviceName
  dexPaths : List.Forall₂
    (fun m path =>
      if Absolute m then path = ⟨m ++ ".jar"⟩ else path.Under s.outDir s.deviceName)
    i.modules i.dexPaths
  dexLocations : ∃ art latter, i.dexLocations = art ++ latter ∧
    List.Forall₂ (Located "/apex/com.android.art/javalib/") config.artApexJars art ∧
    List.Forall₂ (Located "/system/framework/") (latterModules config p) latter

section Derived

variable {s : Settings} {config : GlobalConfig} {p : Profile}

theorem under_outputPath (hs : Path.Plain s.deviceName) {piece : String}
    (h : piece.toList.head? ≠ some '/') :
    (s.outputPath [s.deviceName, piece]).Under s.outDir s.deviceName :=
  (Path.under_join_plain s.outDir hs).join h

theorem relative_dex (name ending : String) :
    ("dex_" ++ name ++ ending).toList.head? ≠ some '/' := by
  simp

theorem under_archDir {root dir : Path} {name : String} (h : dir.Under root name) (arch : Arch) :
    (archDir dir arch).Under root name := by
  refine (h.join (by decide)).join ?_
  cases arch <;> decide

theorem located_jarLocation {dir : Path} {lead : String} (h : dir.lead = lead.toList) (m : String) :
    Located lead m (jarLocation dir m) := by
  rw [Located]
  split
  · next hm => exact jarLocation_of_absolute (stemOf_absolute_iff.mpr hm)
  · next hm =>
    rw [jarLocation_of_relative (mt stemOf_absolute_iff.mp hm), h, List.append_assoc]
    exact List.prefix_append _ _

theorem images_eq {arch : Arch} {image : Path} (h : (arch, image) ∈ (derive s config p).images) :
    image = (archDir (derive s config p).dir arch).join (p.stem ++ ".art") := by
  rcases Assoc.mem_foldl_put h with h | ⟨t, -, h⟩
  · cases h
  · obtain ⟨rfl, rfl⟩ := Prod.mk.inj h
    rfl

theorem under_dexPath (hs : Path.Plain s.deviceName) {dir : String}
    (hd : dir.toList.head? ≠ some '/') (m : String) :
    let path := s.outputPath [s.deviceName, dir, m ++ ".jar"]
    if Absolute m then path = ⟨m ++ ".jar"⟩ else path.Under s.outDir s.deviceName := by
  intro path
  split
  · next hm => exact Path.join_of_absolute _ ((head?_jarName m).mpr hm)
  · next hm => exact (under_outputPath hs hd).join (mt (head?_jarName m).mp hm)

end Derived

/-- Whatever the config, everything of an image stays below the device's directory, or in one of the
two directories of jars, but the jars of modules that are named by absolute paths. -/
theorem paths_contained (s : Settings) (config : GlobalConfig) (v : Variant)
    (hs : Path.Plain s.deviceName) :
    Contained s config v.profile (derive s config v.profile) := by
  have hdir : (derive s config v.profile).dir.Under s.outDir s.deviceName :=
    under_outputPath hs (relative_dex _ _)
  have hstem : '/' ∉ v.profile.stem.toList := by cases v <;> decide
  constructor
  case dir => exact hdir
  case symbolsDir => exact under_outputPath hs (relative_dex _ _)
  case zip =>
    intro z hz
    obtain ⟨-, hz⟩ := Option.ite_none_right_eq_some.mp hz
    obtain rfl := Option.some.inj hz
    exact hdir.join (by cases v <;> decide)
  case images =>
    intro arch image himage
    rw [images_eq himage]
    exact (under_archDir hdir arch).join (by cases v <;> decide)
  case imageDeps =>
    intro arch files hfiles file hfile
    rw [imageDeps_eq hfiles, filesOf_eq] at hfile
    obtain ⟨name, hname, rfl⟩ := List.mem_map.mp hfile
    exact (under_archDir hdir arch).join (relative_of_mem_fileNames hstem hname)
  case dexPaths =>
    exact List.forall₂_map_right_iff.mpr
      (List.forall₂_same.mpr fun m _ => under_dexPath hs (relative_dex _ _) m)
  case dexLocations =>
    refine ⟨_, _, locationsOf_eq, ?_, ?_⟩
    · exact List.forall₂_map_right_iff.mpr
        (List.forall₂_same.mpr fun m _ => located_jarLocation (by decide) m)
    · exact List.forall₂_map_right_iff.mpr
        (List.forall₂_same.mpr fun m _ => located_jarLocation (by decide) m)

theorem paths_contained_mixed :
    let settings : Settings :=
      { outDir := ⟨"./out//"⟩, targets := [⟨.android, .arm64, .disabled⟩] }
    let config : GlobalConfig :=
      { artApexJars := ["core-oj", "/x"], bootJars := ["framework-minus-apex", "../y"] }
    Path.Plain settings.deviceName ∧ config.validate = .ok () ∧
      Contained settings config Variant.default.profile
        (derive settings config Variant.default.profile) := by
  intro settings config
  have hplain : Path.Plain settings.deviceName := by constructor <;> decide
  exact ⟨hplain, by decide, paths_contained settings config .default hplain⟩

theorem absolute_modules_escape :
    let settings : Settings := { targets := [⟨.android, .arm64, .disabled⟩] }
    let config : GlobalConfig := { artApexJars := ["/x"], bootJars := ["/y"] }
    let i := derive settings config Variant.default.profile
    Path.Plain settings.deviceName ∧ config.validate = .ok () ∧
      i.modules = ["/x", "/y"] ∧ i.dexLocations = ["/x.jar", "/y.jar"] ∧
      (∀ path ∈ i.dexPaths, ¬ path.Under settings.outDir settings.deviceName) ∧
      ∀ location ∈ i.dexLocations,
        ¬ "/apex/com.android.art/javalib/".toList <+: location.toList ∧
          ¬ "/system/framework/".toList <+: location.toList := by
  have hplain : Path.Plain "generic" := by constructor <;> decide
  exact ⟨hplain, by decide +kernel⟩

end Image

end Preopt
