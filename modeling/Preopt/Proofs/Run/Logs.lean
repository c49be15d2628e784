import Preopt.Proofs.Assoc
import Preopt.Proofs.Image.Containment
import Preopt.Proofs.Run.Agreement

/-! The logs of runs. A run that is to be logged leaves a log of its day in the directory. Where the
directory was there before, that is one more than there were, unless the day had its log already. -/

namespace Preopt

namespace FileTree

open Path (Plain)

def isNamed (dir : Place) (start : String) (place : Place) : Bool :=
  place.dropLast == dir && place.getLast?.any (start.toList.isPrefixOf ·.toList)

theorem isNamed_take (dir : Place) (start : String) (n : Nat) :
    isNamed dir start (dir.take n) = false := by
  cases hlast : (dir.take n).getLast? with
  | none => rw [isNamed, hlast, Option.any_none, Bool.and_false]
  | some name =>
    have hlength : (dir.take n).dropLast.length < dir.length := by
      have hne : dir.take n ≠ [] := by
        intro hnil
        rw [hnil] at hlast
        cases hlast
      have hpos := List.length_pos_of_ne_nil hne
      have hle := List.length_take_le' n dir
      rw [List.length_dropLast]
      omega
    have hdir : (dir.take n).dropLast ≠ dir := fun heq => absurd (heq ▸ hlength) (lt_irrefl _)
    rw [isNamed, beq_false_of_ne hdir, Bool.false_and]

theorem isNamed_concat (dir : Place) {start name : String} (h : start.toList <+: name.toList) :
    isNamed dir start (dir ++ [name]) = true := by
  rw [isNamed, List.dropLast_concat, List.getLast?_concat, beq_self_eq_true, Bool.true_and,
    Option.any_some, List.isPrefixOf_iff_prefix]
  exact h

variable (t : FileTree)

theorem countNamed_eq (dir : Path) (start : String) : t.countNamed dir start =
    (t.entries.filter fun e => isNamed (t.placeOf dir) start e.1).length :=
  rfl

theorem placeOf_join_plain (dir : Path) {name : String} (h : Plain name) (hup : name ≠ "..") :
    t.placeOf (dir.join name) = t.placeOf dir ++ [name] := by
  have hpieces : pieces (dir.join name) = pieces dir ++ [name] := by
    change (Path.parts _).map String.ofList = (Path.parts _).map String.ofList ++ _
    rw [Path.parts_join dir h.relative, h.parts_eq, List.map_append, List.map_singleton,
      String.ofList_toList]
  rw [placeOf, hpieces, FileTree.start, Path.isAbsolute_join dir h.relative, List.foldl_append,
    List.foldl_cons, List.foldl_nil, if_neg h.ne_dot, if_neg hup]
  rfl

theorem addDirAt_keeps (place : Place) (holds : FileTree → Prop) (ht : holds t)
    (hstep : ∀ t n, holds t →
      holds { t with entries := Assoc.put t.entries (place.take (n + 1)) none }) :
    holds (t.addDirAt place) := by
  refine List.foldlRecOn _ _ ht fun t' ht' n _ => ?_
  dsimp only
  split
  · exact ht'
  · exact hstep t' n ht'

theorem here_addDirAt (place : Place) : (t.addDirAt place).here = t.here :=
  t.addDirAt_keeps place (fun t' => t'.here = t.here) rfl fun _ _ h => h

/-- Directories on the way to a place are none of those right below it. -/
theorem filter_addDirAt (place : Place) (start : String) :
    (t.addDirAt place).entries.filter (fun e => isNamed place start e.1) =
      t.entries.filter fun e => isNamed place start e.1 := by
  refine t.addDirAt_keeps place
    (fun t' => t'.entries.filter (fun e => isNamed place start e.1) = _) rfl ?_
  intro t' n h
  rw [Assoc.filter_put, isNamed_take, if_neg Bool.false_ne_true, h]

variable {dir : Path} {name start : String} (h : Plain name) (hup : name ≠ "..")
  (hstart : start.toList <+: name.toList) (bytes : ByteArray)
include h hup hstart

theorem countNamed_addFile : (t.addFile (dir.join name) bytes).countNamed dir start =
    if t.placeOf dir ++ [name] ∈ Assoc.keys t.entries then t.countNamed dir start
    else t.countNamed dir start + 1 := by
  have hnamed := isNamed_concat (t.placeOf dir) hstart
  have hplace : (t.addFile (dir.join name) bytes).placeOf dir = t.placeOf dir := by
    rw [placeOf, placeOf, FileTree.start, FileTree.start, addFile]
    dsimp only
    rw [here_addDirAt]
  have hkeys : t.placeOf dir ++ [name] ∈ Assoc.keys
      (t.entries.filter fun e => isNamed (t.placeOf dir) start e.1) ↔
        t.placeOf dir ++ [name] ∈ Assoc.keys t.entries := by
    simp [Assoc.keys, hnamed]
  rw [countNamed_eq, hplace, addFile]
  dsimp only
  rw [t.placeOf_join_plain dir h hup, List.dropLast_concat, Assoc.filter_put, if_pos hnamed,
    filter_addDirAt, Assoc.length_put]
  by_cases hkey : t.placeOf dir ++ [name] ∈ Assoc.keys t.entries
  · rw [if_pos hkey, if_pos (hkeys.mpr hkey)]
    rfl
  · rw [if_neg hkey, if_neg (mt hkeys.mp hkey)]
    rfl

theorem countNamed_addFile_pos : 0 < (t.addFile (dir.join name) bytes).countNamed dir start := by
  rw [t.countNamed_addFile h hup hstart bytes]
  split
  · next hkey =>
    obtain ⟨entry, hentry, hplace⟩ := List.mem_map.mp hkey
    refine List.length_pos_of_mem (a := entry) (List.mem_filter.mpr ⟨hentry, ?_⟩)
    rw [hplace]
    exact isNamed_concat (t.placeOf dir) hstart
  · exact Nat.succ_pos _

end FileTree

namespace Run

open CommandLine (Command Given)

section Log

variable {files files' : FileTree} {date : String}

def logs (files : FileTree) (dir : Path) : Nat := files.countNamed dir (programName ++ ".")

theorem plain_logName (hdate : '/' ∉ date.toList) : Path.Plain (logName date) where
  ne_empty h := by simpa [logName, programName] using congrArg String.toList h
  no_slash := by simpa [logName, programName] using hdate
  ne_dot h := by simpa [logName, programName] using congrArg String.toList h

theorem logName_ne_up (date : String) : logName date ≠ ".." := by
  intro h
  simpa [logName, programName] using congrArg String.toList h

theorem prefix_logName (date : String) : (programName ++ ".").toList <+: (logName date).toList := by
  have htext : (logName date).toList = (programName ++ ".").toList ++ date.toList :=
    String.toList_append
  rw [htext]
  exact List.prefix_append _ _

theorem of_openLog {dir : Path} (h : openLog files dir date = .ok files') :
    ∃ made, files' = made.addFile (dir.join (logName date)) ByteArray.empty ∧
      (files.exists? dir = true → made = files) := by
  rw [openLog] at h
  split at h
  · cases h
  · next made hmade =>
    refine ⟨made, ?_, fun hexists => ?_⟩
    · split at h
      · cases h
      · exact (Except.ok.inj h).symm
    · rw [if_pos hexists] at hmade
      exact (Except.ok.inj hmade).symm

/-- The first run of a day that is to be logged adds a log, and the later ones of the day add none. -/
theorem logs_left {env : List (String × String)} {args : List String} {g : Given} {c : Command}
    (hdate : '/' ∉ date.toList) (hargs : CommandLine.parse args = .ok (g, c))
    (hlog : prepared files ((g.value? .logDir).map Path.mk) date = .ok files') :
    (run files env date args).files = files' ∧
      ∀ dir, (g.value? .logDir).map Path.mk = some dir → 0 < logs files' dir ∧
        (files.exists? dir = true → logs files' dir =
          if files.placeOf dir ++ [logName date] ∈ Assoc.keys files.entries then logs files dir
          else logs files dir + 1) := by
  constructor
  · rw [run, hargs]
    dsimp only
    rw [execute_eq hlog]
    split
    · rfl
    · split <;> rfl
  · intro dir hdir
    rw [hdir] at hlog
    obtain ⟨made, rfl, hmade⟩ := of_openLog hlog
    have hplain := plain_logName hdate
    refine ⟨made.countNamed_addFile_pos hplain (logName_ne_up date) (prefix_logName date) _, ?_⟩
    intro hexists
    rw [hmade hexists]
    exact files.countNamed_addFile hplain (logName_ne_up date) (prefix_logName date) _

end Log

end Run
end Preopt
