import Preopt.Proofs.Image.Containment

/-! Images of one build write no file twice. All of them write below the device's directory, every
variant into directories of its own name, and an image has one directory for each architecture. What
is written below a directory has the components of that directory in front, so below different
directories nothing is the same path, however the device and the modules are named. -/

namespace Preopt

namespace Path

theorem same_refl (p : Path) : p.same p := by
  rw [same, beq_self_eq_true]

theorem Under.name_eq {p q root : Path} {name name' : String} (h : p.Under root name)
    (h' : q.Under root name') (hsame : p.same q) : name = name' := by
  obtain ⟨-, hp⟩ := h
  obtain ⟨-, hq⟩ := h'
  rw [← beq_iff_eq.mp hsame] at hq
  have hlength : (root.components.2 ++ [name.toList]).length =
      (root.components.2 ++ [name'.toList]).length := by simp
  have heq := (List.prefix_of_prefix_length_le hp hq hlength.le).eq_of_length hlength
  obtain ⟨hname, -⟩ := List.cons.inj (List.append_cancel_left heq)
  exact String.toList_inj.mp hname

theorem join_join (p : Path) {piece piece' : String} {c : Char} (h : piece.toList.head? ≠ some '/')
    (h' : piece'.toList.head? ≠ some '/') (hlast : piece.toList.getLast? = some c) (hc : c ≠ '/') :
    (p.join piece).join piece' = p.join (piece ++ "/" ++ piece') := by
  have hboth : (piece ++ "/" ++ piece').toList.head? ≠ some '/' := by
    cases hpiece : piece.toList with
    | nil => simp [hpiece] at hlast
    | cons first rest => simpa [hpiece] using h
  have htext : ((p.join piece).join piece').text.toList =
      (p.join (piece ++ "/" ++ piece')).text.toList := by
    rw [join_of_relative _ h', lead_join p h hlast hc, join_of_relative p hboth]
    simp
  exact congrArg Path.mk (String.toList_inj.mp htext)

end Path

namespace Image

def HasFile (i : Image) (arch : Arch) (file : Path) : Prop :=
  (arch, file) ∈ i.images ∨ ∃ files, (arch, files) ∈ i.imageDeps ∧ file ∈ files

structure WrittenApart (image : Variant → Image) : Prop where
  texts {v v' : Variant} {arch arch' : Arch} {file : Path} : (image v).HasFile arch file →
    (image v').HasFile arch' file → v = v' ∧ arch = arch'
  paths {v v' : Variant} {arch arch' : Arch} {file file' : Path} : (image v).HasFile arch file →
    (image v').HasFile arch' file' → file.same file' → v = v' ∧ arch = arch'
  zip : ∃ z, (image .default).zip = some z ∧
    ∀ (v : Variant) (arch : Arch) (file : Path), (image v).HasFile arch file → ¬ z.same file
  dirs : (Variant.all.flatMap fun v => [(image v).dir, (image v).symbolsDir]).Pairwise
    fun d d' => ¬ d.same d'

theorem under_system (dir : Path) (arch : Arch) {piece : String}
    (h : piece.toList.head? ≠ some '/') : ((archDir dir arch).join piece).Under dir "system" := by
  have hsystem : Path.Plain "system" := by constructor <;> decide
  have htree : (dir.join "system").join "framework" = dir.join "system/framework" :=
    Path.join_join dir (c := 'm') (by decide) (by decide) (by decide) (by decide)
  have harch : arch.name.toList.head? ≠ some '/' := by cases arch <;> decide
  rw [archDir, ← htree]
  exact (((Path.under_join_plain dir hsystem).join (by decide)).join harch).join h

theorem under_arch (dir : Path) (arch : Arch) {piece : String}
    (h : piece.toList.head? ≠ some '/') :
    ((archDir dir arch).join piece).Under (dir.join "system/framework") arch.name := by
  have hplain : Path.Plain arch.name := by cases arch <;> constructor <;> decide
  exact (Path.under_join_plain _ hplain).join h

theorem arch_name_inj {arch arch' : Arch} (h : arch.name = arch'.name) : arch = arch' := by
  revert h
  cases arch <;> cases arch' <;> decide

def dirName (v : Variant) : String := "dex_" ++ v.profile.name ++ "jars"

def symbolsName (v : Variant) : String := "dex_" ++ v.profile.name ++ "jars_unstripped"

theorem plain_dirName (v : Variant) : Path.Plain (dirName v) := by
  cases v <;> constructor <;> decide

theorem plain_symbolsName (v : Variant) : Path.Plain (symbolsName v) := by
  cases v <;> constructor <;> decide

def dirNames : List String := Variant.all.flatMap fun v => [dirName v, symbolsName v]

theorem nodup_dirNames : dirNames.Nodup := by decide

theorem plain_of_mem_dirNames {name : String} (h : name ∈ dirNames) : Path.Plain name := by
  obtain ⟨v, -, hname⟩ := List.mem_flatMap.mp h
  rcases List.mem_pair.mp hname with rfl | rfl
  · exact plain_dirName v
  · exact plain_symbolsName v

theorem dirName_inj {v v' : Variant} (h : dirName v = dirName v') : v = v' := by
  revert h
  cases v <;> cases v' <;> decide

section Derived

variable {s : Settings} {config : GlobalConfig}

theorem dirs_eq : (Variant.all.flatMap fun v =>
      [(derive s config v.profile).dir, (derive s config v.profile).symbolsDir]) =
    dirNames.map (s.outDir.join s.deviceName).join := by
  have hdir (v : Variant) : (derive s config v.profile).dir =
      (s.outDir.join s.deviceName).join (dirName v) := rfl
  have hsymbols (v : Variant) : (derive s config v.profile).symbolsDir =
      (s.outDir.join s.deviceName).join (symbolsName v) := rfl
  simp only [hdir, hsymbols, dirNames, List.map_flatMap, List.map_cons, List.map_nil]

theorem HasFile.exists_join {v : Variant} {arch : Arch} {file : Path}
    (h : (derive s config v.profile).HasFile arch file) :
    ∃ piece : String, piece.toList.head? ≠ some '/' ∧
      file = (archDir (derive s config v.profile).dir arch).join piece := by
  rcases h with h | ⟨files, h, hfile⟩
  · exact ⟨_, by cases v <;> decide, images_eq h⟩
  · have hstem : '/' ∉ v.profile.stem.toList := by cases v <;> decide
    rw [imageDeps_eq h, filesOf_eq] at hfile
    obtain ⟨piece, hpiece, rfl⟩ := List.mem_map.mp hfile
    exact ⟨piece, relative_of_mem_fileNames hstem hpiece, rfl⟩

theorem HasFile.under {v : Variant} {arch : Arch} {file : Path}
    (h : (derive s config v.profile).HasFile arch file) :
    file.Under (s.outDir.join s.deviceName) (dirName v) := by
  obtain ⟨piece, hpiece, rfl⟩ := h.exists_join
  exact (under_archDir (Path.under_join_plain _ (plain_dirName v)) arch).join hpiece

theorem HasFile.owner_eq {v v' : Variant} {arch arch' : Arch} {file file' : Path}
    (h : (derive s config v.profile).HasFile arch file)
    (h' : (derive s config v'.profile).HasFile arch' file') (hsame : file.same file') :
    v = v' ∧ arch = arch' := by
  obtain rfl : v = v' := dirName_inj (h.under.name_eq h'.under hsame)
  obtain ⟨piece, hpiece, rfl⟩ := h.exists_join
  obtain ⟨piece', hpiece', rfl⟩ := h'.exists_join
  exact ⟨rfl, arch_name_inj ((under_arch _ arch hpiece).name_eq (under_arch _ arch' hpiece') hsame)⟩

theorem HasFile.ne_zip {v : Variant} {arch : Arch} {file : Path}
    (h : (derive s config v.profile).HasFile arch file) :
    ¬ ((derive s config Variant.default.profile).dir.join "boot.zip").same file := by
  intro hsame
  have hzip : Path.Plain "boot.zip" := by constructor <;> decide
  have hroot := (Path.under_join_plain (s.outDir.join s.deviceName) (plain_dirName .default)).join
    hzip.relative
  -- only the files of the default image are below the archive's directory
  obtain rfl : Variant.default = v := dirName_inj (hroot.name_eq h.under hsame)
  obtain ⟨piece, hpiece, rfl⟩ := h.exists_join
  have hname := (Path.under_join_plain _ hzip).name_eq (under_system _ arch hpiece) hsame
  revert hname
  decide

end Derived

/-- Whatever the settings and the names in a config are, no file is written for two variants or two
architectures, and none over the archive. -/
theorem files_written_apart (s : Settings) (config : GlobalConfig) :
    WrittenApart fun v => derive s config v.profile := by
  constructor
  case texts =>
    intro v v' arch arch' file h h'
    exact h.owner_eq h' (Path.same_refl file)
  case paths =>
    intro v v' arch arch' file file' h h' hsame
    exact h.owner_eq h' hsame
  case zip => exact ⟨_, rfl, fun v arch file h => h.ne_zip⟩
  case dirs =>
    let root := s.outDir.join s.deviceName
    rw [dirs_eq]
    refine List.pairwise_map.mpr (nodup_dirNames.imp_of_mem ?_)
    intro name name' h h' hne hsame
    apply hne
    exact (Path.under_join_plain root (plain_of_mem_dirNames h)).name_eq
      (Path.under_join_plain root (plain_of_mem_dirNames h')) hsame

end Image
end Preopt
