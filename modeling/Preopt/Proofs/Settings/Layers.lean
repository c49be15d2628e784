import Preopt.Proofs.Assoc
import Preopt.Settings.Loading

/-! The layers that settings are loaded from. An entry of a later layer bears on one name of the top
table alone, the first name of its key, so what stands under a name in the end is decided by the
entries that begin with it. A variable that is the only one for its setting gives the setting. -/

namespace Preopt

namespace Settings

open KeyPath (ofKey)

def Names (key name : String) : Prop := (ofKey key).head? = some (.key name)

instance (key name : String) : Decidable (Names key name) := inferInstanceAs (Decidable (_ = _))

theorem exists_ofKey (key : String) : ∃ name path, ofKey key = .key name :: path := by
  rw [ofKey, KeyPath.parse?]
  split
  · exact ⟨_, _, rfl⟩
  · cases KeyPath.steps? key.toList.length (key.toList.dropWhile KeyPath.isName) with
    | none => exact ⟨_, _, rfl⟩
    | some path => exact ⟨_, _, rfl⟩

namespace Value

def field? (v : Value) (name : String) : Option Value := Assoc.get? v.entries name

theorem field?_put (v new : Value) (name name' : String) :
    (v.put name new).field? name' = if name = name' then some new else v.field? name' :=
  Assoc.get?_put v.entries name name' new

theorem assign_eq {key name : String} {path : List Step} (h : ofKey key = .key name :: path)
    (v new : Value) :
    v.assign key new = v.put name (set new path ((v.field? name).getD .nothing)) := by
  rw [assign, h]
  rfl

theorem field?_assign_of_not_names {key name : String} (h : ¬ Names key name) (v new : Value) :
    (v.assign key new).field? name = v.field? name := by
  obtain ⟨name', path, hkey⟩ := exists_ofKey key
  have hne : name' ≠ name := by
    rintro rfl
    exact h (congrArg List.head? hkey)
  rw [assign_eq hkey, field?_put, if_neg hne]

theorem field?_assign_congr {v w : Value} {name : String} (h : v.field? name = w.field? name)
    (key : String) (new : Value) :
    (v.assign key new).field? name = (w.assign key new).field? name := by
  obtain ⟨name', path, hkey⟩ := exists_ofKey key
  rw [assign_eq hkey, assign_eq hkey, field?_put, field?_put]
  split
  case isTrue hname => rw [hname, h]
  case isFalse => exact h

theorem field?_assignAll_filter {v w : Value} {name : String} (h : v.field? name = w.field? name)
    (entries : List (String × Value)) :
    (v.assignAll entries).field? name =
      (w.assignAll (entries.filter fun e => Names e.1 name)).field? name := by
  -- the two tables differ after an entry for another name, but not under this one
  induction entries generalizing v w with
  | nil => exact h
  | cons entry rest ih =>
    obtain ⟨key, new⟩ := entry
    by_cases hnames : Names key name
    · rw [List.filter_cons_of_pos (by simpa using hnames)]
      exact ih (field?_assign_congr h key new)
    · rw [List.filter_cons_of_neg (by simpa using hnames)]
      exact ih ((field?_assign_of_not_names hnames v new).trans h)

theorem field?_assignAll_of_unnamed {v : Value} {name : String} {entries : List (String × Value)}
    (h : ∀ e ∈ entries, ¬ Names e.1 name) : (v.assignAll entries).field? name = v.field? name := by
  rw [field?_assignAll_filter rfl, List.filter_eq_nil_iff.mpr (by simpa using h)]
  rfl

theorem settings?_eq_some_iff {v : Value} {s : Settings} :
    v.settings? = some s ↔
      ((v.field? "device_name").getD .nothing).text? = some s.deviceName ∧
      ((v.field? "out_dir").getD .nothing).text? = some s.outDir.text ∧
      configPath? (v.field? "global_config") = some s.globalConfig ∧
      targets? (v.field? "targets") = some s.targets := by
  rw [settings?]
  simp only [Option.bind_eq_bind, Option.bind_eq_some_iff]
  constructor
  · rintro ⟨device, hdevice, out, hout, config, hconfig, targets, htargets, hs⟩
    obtain rfl := Option.some.inj hs
    exact ⟨hdevice, hout, hconfig, htargets⟩
  · rintro ⟨hdevice, hout, hconfig, htargets⟩
    exact ⟨_, hdevice, _, hout, _, hconfig, _, htargets, rfl⟩

end Value

section Variables

def IsFor (name : String) (setting : String × String) : Prop :=
  ∃ key ∈ variableKey? setting.1, Names key name

instance (name : String) : DecidablePred (IsFor name) :=
  fun setting => inferInstanceAs (Decidable (∃ key ∈ variableKey? setting.1, Names key name))

def note (entries : List (String × Value)) (setting : String × String) : List (String × Value) :=
  match variableKey? setting.1 with
  | some key => Assoc.put entries key (.text setting.2)
  | none => entries

theorem note_filter (name : String) (entries : List (String × Value)) (setting : String × String) :
    (note entries setting).filter (fun e => Names e.1 name) =
      if IsFor name setting then note (entries.filter fun e => Names e.1 name) setting
      else entries.filter fun e => Names e.1 name := by
  cases h : variableKey? setting.1 with
  | none => simp [note, IsFor, h]
  | some key =>
    simpa [note, IsFor, h] using Assoc.filter_put (Names · name) entries key (.text setting.2)

theorem foldl_note_filter (name : String) (entries : List (String × Value))
    (env : List (String × String)) :
    (env.foldl note entries).filter (fun e => Names e.1 name) =
      (env.filter (IsFor name)).foldl note (entries.filter fun e => Names e.1 name) := by
  induction env generalizing entries with
  | nil => rfl
  | cons setting env ih =>
    rw [List.foldl_cons, ih, note_filter]
    by_cases h : IsFor name setting <;> simp [h]

theorem ofVariables_filter (name : String) (env : List (String × String)) :
    (ofVariables env).filter (fun e => Names e.1 name) =
      ofVariables (env.filter (IsFor name)) :=
  foldl_note_filter name [] env

end Variables

section Load

def fileEntries? (files : FileTree) : Option Path → Option (List (String × Value))
  | some path => readFile? files path
  | none => some []

def layered (entries : List (String × Value)) (env : List (String × String)) : Value :=
  (Value.defaults.assignAll entries).assignAll (ofVariables env)

def Unnamed (name : String) (entries : List (String × Value)) (env : List (String × String)) :
    Prop :=
  (∀ e ∈ entries, ¬ Names e.1 name) ∧ ∀ setting ∈ env, ¬ IsFor name setting

theorem load?_eq_some_iff {files : FileTree} {file : Option Path} {env : List (String × String)}
    {s : Settings} :
    load? files file env = some s ↔
      ∃ entries, fileEntries? files file = some entries ∧
        (layered entries env).settings? = some s := by
  cases file with
  | none => simp [load?, fileEntries?, layered]
  | some path => simp [load?, fileEntries?, layered, Option.bind_eq_some_iff]

variable {name : String} {entries : List (String × Value)} {env env' : List (String × String)}

theorem layered_congr (h : env.filter (IsFor name) = env'.filter (IsFor name)) :
    (layered entries env).field? name = (layered entries env').field? name := by
  rw [layered, Value.field?_assignAll_filter rfl, ofVariables_filter, h, ← ofVariables_filter,
    ← Value.field?_assignAll_filter rfl]
  rfl

theorem layered_of_unnamed (h : Unnamed name entries env) :
    (layered entries env).field? name = Value.defaults.field? name := by
  have hnil : env.filter (IsFor name) = ([] : List (String × String)).filter (IsFor name) :=
    List.filter_eq_nil_iff.mpr (by simpa using h.2)
  rw [layered_congr hnil]
  exact Value.field?_assignAll_of_unnamed h.1

end Load

inductive Field
  | deviceName
  | outDir
  | globalConfig
  deriving DecidableEq

namespace Field

def key : Field → String
  | .deviceName => "device_name"
  | .outDir => "out_dir"
  | .globalConfig => "global_config"

def variableName : Field → String
  | .deviceName => "DEXPREOPT_DEVICE_NAME"
  | .outDir => "DEXPREOPT_OUT_DIR"
  | .globalConfig => "DEXPREOPT_GLOBAL_CONFIG"

def replace (text : String) (s : Settings) : Field → Settings
  | .deviceName => { s with deviceName := text }
  | .outDir => { s with outDir := ⟨text⟩ }
  | .globalConfig => { s with globalConfig := some ⟨text⟩ }

variable (f : Field)

theorem ofKey_key : ofKey f.key = [.key f.key] := by
  cases f <;> decide +kernel

theorem variableKey?_variableName : variableKey? f.variableName = some f.key := by
  cases f <;> decide +kernel

theorem ofVariables_variableName (text : String) :
    ofVariables [(f.variableName, text)] = [(f.key, .text text)] := by
  change note [] (f.variableName, text) = _
  rw [note, variableKey?_variableName]
  rfl

theorem isFor_variableName {name text : String} :
    IsFor name (f.variableName, text) ↔ f.key = name := by
  simp [IsFor, variableKey?_variableName, Names, ofKey_key]

variable {entries : List (String × Value)} {before after : List (String × String)}

theorem layered_variableName (h : ∀ setting ∈ before ++ after, ¬ IsFor f.key setting)
    (text : String) :
    (layered entries (before ++ (f.variableName, text) :: after)).field? f.key =
      some (.text text) := by
  have halone : (before ++ (f.variableName, text) :: after).filter (IsFor f.key) =
      [(f.variableName, text)].filter (IsFor f.key) := by
    obtain ⟨hbefore, hafter⟩ := List.forall_mem_append.mp h
    rw [List.filter_append, List.filter_eq_nil_iff.mpr (by simpa using hbefore),
      List.filter_cons_of_pos (by simp [isFor_variableName]),
      List.filter_cons_of_pos (by simp [isFor_variableName]),
      List.filter_eq_nil_iff.mpr (by simpa using hafter)]
    rfl
  rw [layered_congr halone, layered, ofVariables_variableName]
  change (Value.assign _ f.key (.text text)).field? f.key = _
  rw [Value.assign_eq f.ofKey_key, Value.field?_put, if_pos rfl]
  rfl

theorem layered_variableName_of_ne {name : String} (h : f.key ≠ name) (text : String) :
    (layered entries (before ++ (f.variableName, text) :: after)).field? name =
      (layered entries (before ++ after)).field? name := by
  apply layered_congr
  rw [List.filter_append, List.filter_append, List.filter_cons_of_neg]
  simpa [isFor_variableName] using h

theorem settings?_replace {v w : Value} {s : Settings} {text : String}
    (hs : v.settings? = some s) (hgiven : w.field? f.key = some (.text text))
    (hkept : ∀ name, f.key ≠ name → w.field? name = v.field? name) :
    w.settings? = some (f.replace text s) := by
  obtain ⟨hdevice, hout, hconfig, htargets⟩ := Value.settings?_eq_some_iff.mp hs
  rw [← hkept "targets" (by cases f <;> decide)] at htargets
  cases f with
  | deviceName =>
    rw [← hkept "out_dir" (by decide)] at hout
    rw [← hkept "global_config" (by decide)] at hconfig
    exact Value.settings?_eq_some_iff.mpr
      ⟨congrArg (fun v => (v.getD .nothing).text?) hgiven, hout, hconfig, htargets⟩
  | outDir =>
    rw [← hkept "device_name" (by decide)] at hdevice
    rw [← hkept "global_config" (by decide)] at hconfig
    exact Value.settings?_eq_some_iff.mpr
      ⟨hdevice, congrArg (fun v => (v.getD .nothing).text?) hgiven, hconfig, htargets⟩
  | globalConfig =>
    rw [← hkept "device_name" (by decide)] at hdevice
    rw [← hkept "out_dir" (by decide)] at hout
    exact Value.settings?_eq_some_iff.mpr
      ⟨hdevice, hout, congrArg Value.configPath? hgiven, htargets⟩

theorem load?_variableName {files : FileTree} {file : Option Path} {s : Settings}
    (hs : load? files file (before ++ after) = some s)
    (h : ∀ setting ∈ before ++ after, ¬ IsFor f.key setting) (text : String) :
    load? files file (before ++ (f.variableName, text) :: after) = some (f.replace text s) := by
  obtain ⟨entries, hentries, hsettings⟩ := load?_eq_some_iff.mp hs
  exact load?_eq_some_iff.mpr ⟨entries, hentries, f.settings?_replace hsettings
    (f.layered_variableName h text) fun _ hne => f.layered_variableName_of_ne hne text⟩

end Field

section Defaults

structure DefaultsHold (entries : List (String × Value)) (env : List (String × String))
    (s : Settings) : Prop where
  deviceName : Unnamed "device_name" entries env → s.deviceName = "generic"
  outDir : Unnamed "out_dir" entries env → s.outDir = ⟨"out"⟩
  globalConfig : Unnamed "global_config" entries env → s.globalConfig = none
  targets : Unnamed "targets" entries env → s.targets = []

variable {files : FileTree} {file : Option Path} {entries : List (String × Value)}
  {env : List (String × String)} (hentries : fileEntries? files file = some entries)
include hentries

theorem load?_defaultsHold {s : Settings} (hs : load? files file env = some s) :
    DefaultsHold entries env s := by
  obtain ⟨entries', hentries', hsettings⟩ := load?_eq_some_iff.mp hs
  obtain rfl := Option.some.inj (hentries.symm.trans hentries')
  obtain ⟨hdevice, hout, hconfig, htargets⟩ := Value.settings?_eq_some_iff.mp hsettings
  constructor
  case deviceName =>
    intro h
    rw [layered_of_unnamed h] at hdevice
    exact (Option.some.inj hdevice).symm
  case outDir =>
    intro h
    rw [layered_of_unnamed h] at hout
    exact congrArg Path.mk (Option.some.inj hout).symm
  case globalConfig =>
    intro h
    rw [layered_of_unnamed h] at hconfig
    exact (Option.some.inj hconfig).symm
  case targets =>
    intro h
    rw [layered_of_unnamed h] at htargets
    exact (Option.some.inj htargets).symm

theorem load?_of_unnamed
    (h : ∀ name ∈ ["device_name", "out_dir", "global_config", "targets"],
      Unnamed name entries env) :
    load? files file env =
      some { deviceName := "generic", outDir := ⟨"out"⟩, globalConfig := none, targets := [] } := by
  refine load?_eq_some_iff.mpr ⟨entries, hentries, Value.settings?_eq_some_iff.mpr ?_⟩
  simp only [List.forall_mem_cons] at h
  obtain ⟨hdevice, hout, hconfig, htargets, -⟩ := h
  rw [layered_of_unnamed hdevice, layered_of_unnamed hout, layered_of_unnamed hconfig,
    layered_of_unnamed htargets]
  exact ⟨rfl, rfl, rfl, rfl⟩

end Defaults

end Settings
end Preopt
