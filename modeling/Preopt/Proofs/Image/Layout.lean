import Mathlib.Data.List.Basic
import Preopt.Image

/-! Where a file stands in the list of an image's files. The list goes module by module, and for
each module extension by extension, so that the files of a module are as many entries as there are
extensions and begin at that multiple of the module's index. -/

namespace Preopt.Image

def filesAt (i : Image) (dir : Path) (exts : List String) (n : Nat) : List Path :=
  ((i.moduleFiles dir exts).drop (n * exts.length)).take exts.length

structure LaidOut (i : Image) : Prop where
  length (dir : Path) (exts : List String) :
    (i.moduleFiles dir exts).length = i.modules.length * exts.length
  entry {dir : Path} {exts : List String} {n k : Nat} {m ext : String} :
    i.modules[n]? = some m → exts[k]? = some ext →
      (i.moduleFiles dir exts)[n * exts.length + k]? =
        some (dir.join ((if n = 0 then i.stem else i.stem ++ "-" ++ stemOf m) ++ ext))
  first_modules {modules : List String} (dir : Path) (exts : List String) :
    modules <+: i.modules →
      ({ i with modules := modules } : Image).moduleFiles dir exts <+: i.moduleFiles dir exts
  append_extensions (dir : Path) (exts exts' : List String) (n : Nat) :
    i.filesAt dir (exts ++ exts') n = i.filesAt dir exts n ++ i.filesAt dir exts' n

section Bases

variable (stem : String) (modules : List String)

theorem length_fileBases : (fileBases stem modules).length = modules.length := by
  cases modules <;> simp [fileBases]

theorem getElem?_fileBases (n : Nat) : (fileBases stem modules)[n]? =
    modules[n]?.map fun m => if n = 0 then stem else stem ++ "-" ++ stemOf m := by
  cases modules with
  | nil => rfl
  | cons first later => cases n <;> simp [fileBases]

theorem isPrefix_fileBases {modules modules' : List String} (h : modules <+: modules') :
    fileBases stem modules <+: fileBases stem modules' := by
  obtain ⟨rest, rfl⟩ := h
  cases modules <;> simp [fileBases]

end Bases

section Blocks

variable (dir : Path) (exts : List String)

def filesNamed (base : String) : List Path := exts.map fun ext => dir.join (base ++ ext)

theorem length_filesNamed (base : String) : (filesNamed dir exts base).length = exts.length :=
  List.length_map _

theorem length_flatMap_filesNamed (bases : List String) :
    (bases.flatMap (filesNamed dir exts)).length = bases.length * exts.length := by
  induction bases with
  | nil => simp
  | cons base rest ih =>
    rw [List.flatMap_cons, List.length_append, ih, length_filesNamed, List.length_cons,
      Nat.succ_mul, Nat.add_comm]

theorem drop_flatMap_filesNamed (bases : List String) (n : Nat) :
    (bases.flatMap (filesNamed dir exts)).drop (n * exts.length) =
      (bases.drop n).flatMap (filesNamed dir exts) := by
  induction n generalizing bases with
  | zero => simp
  | succ n ih =>
    cases bases with
    | nil => simp
    | cons base rest =>
      have hlength := length_filesNamed dir exts base
      rw [List.flatMap_cons, List.drop_succ_cons, Nat.succ_mul, Nat.add_comm, ← List.drop_drop,
        List.drop_left' hlength, ih]

end Blocks

variable (i : Image) (dir : Path) (exts : List String)

theorem moduleFiles_eq :
    i.moduleFiles dir exts = (fileBases i.stem i.modules).flatMap (filesNamed dir exts) :=
  rfl

theorem length_filesOf (stem : String) (modules : List String) (dir : Path) (exts : List String) :
    (filesOf stem modules dir exts).length = modules.length * exts.length := by
  rw [← length_fileBases stem modules]
  exact length_flatMap_filesNamed dir exts _

theorem isPrefix_filesOf (stem : String) {modules modules' : List String} (dir : Path)
    (exts : List String) (h : modules <+: modules') :
    filesOf stem modules dir exts <+: filesOf stem modules' dir exts := by
  obtain ⟨rest, hrest⟩ := isPrefix_fileBases stem h
  rw [filesOf, filesOf, ← hrest, List.flatMap_append]
  exact List.prefix_append _ _

theorem filesAt_of_getElem? {n : Nat} {base : String}
    (h : (fileBases i.stem i.modules)[n]? = some base) :
    i.filesAt dir exts n = filesNamed dir exts base := by
  rw [filesAt, moduleFiles_eq, drop_flatMap_filesNamed, List.drop_eq_getElem?_toList_append, h]
  exact List.take_left' (length_filesNamed dir exts base)

theorem filesAt_of_length_le {n : Nat} (h : i.modules.length ≤ n) : i.filesAt dir exts n = [] := by
  rw [← length_fileBases i.stem] at h
  rw [filesAt, moduleFiles_eq, drop_flatMap_filesNamed, List.drop_eq_nil_of_le h]
  exact List.take_nil

theorem getElem?_filesAt {n k : Nat} (h : k < exts.length) :
    (i.filesAt dir exts n)[k]? = (i.moduleFiles dir exts)[n * exts.length + k]? := by
  rw [filesAt, List.getElem?_take_of_lt h, List.getElem?_drop]

theorem module_files_laid_out (i : Image) : LaidOut i := by
  constructor
  case length => exact length_filesOf i.stem i.modules
  case entry =>
    intro dir exts n k m ext hm hext
    have hbase := (getElem?_fileBases i.stem i.modules n).trans (congrArg _ hm)
    obtain ⟨hk, -⟩ := List.getElem?_eq_some_iff.mp hext
    rw [← i.getElem?_filesAt dir exts hk, i.filesAt_of_getElem? dir exts hbase, filesNamed,
      List.getElem?_map, hext]
    rfl
  case first_modules => exact isPrefix_filesOf i.stem
  case append_extensions =>
    intro dir exts exts' n
    cases hbase : (fileBases i.stem i.modules)[n]? with
    | none =>
      have hn : i.modules.length ≤ n := by
        rw [← length_fileBases i.stem]
        exact List.getElem?_eq_none_iff.mp hbase
      rw [i.filesAt_of_length_le dir _ hn, i.filesAt_of_length_le dir _ hn,
        i.filesAt_of_length_le dir _ hn]
      rfl
    | some base =>
      rw [i.filesAt_of_getElem? dir _ hbase, i.filesAt_of_getElem? dir _ hbase,
        i.filesAt_of_getElem? dir _ hbase, filesNamed, List.map_append]
      rfl

example : filesOf "boot" ["core-oj", "framework-minus-apex"] ⟨"img"⟩ [".art", ".oat"] =
    [⟨"img/boot.art"⟩, ⟨"img/boot.oat"⟩, ⟨"img/boot-framework.art"⟩,
      ⟨"img/boot-framework.oat"⟩] := by
  decide

end Preopt.Image
