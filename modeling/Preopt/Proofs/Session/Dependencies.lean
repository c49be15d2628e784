import Preopt.Proofs.Build.Recording
import Preopt.Proofs.Image.Containment
import Preopt.Proofs.Session.Foretold

/-! The files that a build depends on. The list holds what is recorded in the course of a run, each
path as it is spelled when it comes first. Paths are recorded by callers, and the config file by
every request that begins to resolve the global config, whether it gets there or not. -/

namespace Preopt

open Once

namespace Path

structure Respelled : Prop where
  doubled (a b : String) : (⟨a ++ "//" ++ b⟩ : Path).same ⟨a ++ "/" ++ b⟩
  dotted (a b : String) : (⟨a ++ "/./" ++ b⟩ : Path).same ⟨a ++ "/" ++ b⟩
  trailing {a : String} : a ≠ "" → (⟨a ++ "/"⟩ : Path).same ⟨a⟩
  leading {a : String} : (⟨a⟩ : Path).components.2.head? ≠ some ['.'] →
    ¬ (⟨"./" ++ a⟩ : Path).same ⟨a⟩

theorem components_of_absolute {p : Path} (h : p.isAbsolute = true) :
    p.components = (true, (parts p.text.toList).filter (· ≠ ['.'])) := by
  rw [components, h, parts]

theorem parts_ne_nil {text : List Char} (h : text ≠ []) (hrelative : text.head? ≠ some '/') :
    parts text ≠ [] := by
  cases text with
  | nil => exact absurd rfl h
  | cons c text =>
    have hc : c ≠ '/' := by simpa using hrelative
    rw [parts, List.splitOn_cons_eq_if_modifyHead, if_neg (by simpa using hc)]
    cases hparts : text.splitOn '/' with
    | nil => exact absurd hparts (List.splitOn_ne_nil _ _)
    | cons part rest => simp

/-- Behind the first part, and anywhere in an absolute path, dots do not count. -/
theorem same_of_parts {p q : Path} (habs : p.isAbsolute = q.isAbsolute)
    {front rest rest' : List (List Char)} (hfront : p.isAbsolute = false → front ≠ [])
    (hp : parts p.text.toList = front ++ rest) (hq : parts q.text.toList = front ++ rest')
    (hrest : rest.filter (· ≠ ['.']) = rest'.filter (· ≠ ['.'])) : p.same q := by
  rw [same_iff]
  cases front with
  | nil =>
    have habsolute : p.isAbsolute = true := by
      by_contra h
      exact hfront (by simpa using h) rfl
    rw [components_of_absolute habsolute, components_of_absolute (habs ▸ habsolute), hp, hq,
      List.nil_append, List.nil_append, hrest]
  | cons part more =>
    rw [List.cons_append] at hp hq
    rw [components_eq hp, components_eq hq, habs, List.filter_append, List.filter_append, hrest]

theorem same_of_slash {p q : Path} {a b b' : List Char} (hp : p.text.toList = a ++ '/' :: b)
    (hq : q.text.toList = a ++ '/' :: b')
    (h : (parts b).filter (· ≠ ['.']) = (parts b').filter (· ≠ ['.'])) : p.same q := by
  have habs : p.isAbsolute = q.isAbsolute := by
    rw [isAbsolute, isAbsolute, hp, hq]
    cases a <;> rfl
  have hfront : p.isAbsolute = false → parts a ≠ [] := by
    intro hrelative
    rw [isAbsolute, hp] at hrelative
    cases a with
    | nil => simp at hrelative
    | cons c a => exact parts_ne_nil (by simp) (by simpa using hrelative)
  exact same_of_parts habs hfront (by rw [hp, parts_append_slash])
    (by rw [hq, parts_append_slash]) h

theorem respelled : Respelled where
  doubled a b := by
    have hp : (⟨a ++ "//" ++ b⟩ : Path).text.toList = a.toList ++ '/' :: '/' :: b.toList := by simp
    have hq : (⟨a ++ "/" ++ b⟩ : Path).text.toList = a.toList ++ '/' :: b.toList := by simp
    have hslash : parts ('/' :: b.toList) = parts b.toList := parts_append_slash [] b.toList
    exact same_of_slash hp hq (by rw [hslash])
  dotted a b := by
    have hp : (⟨a ++ "/./" ++ b⟩ : Path).text.toList = a.toList ++ '/' :: '.' :: '/' :: b.toList := by
      simp
    have hq : (⟨a ++ "/" ++ b⟩ : Path).text.toList = a.toList ++ '/' :: b.toList := by simp
    have hdot : parts ('.' :: '/' :: b.toList) = ['.'] :: parts b.toList :=
      parts_append_slash ['.'] b.toList
    exact same_of_slash hp hq (by simp [hdot])
  trailing {a} ha := by
    have hne : a.toList ≠ [] := mt String.toList_eq_nil_iff.mp ha
    have htext : (⟨a ++ "/"⟩ : Path).text.toList = a.toList ++ ['/'] := by simp
    have hparts : parts (⟨a ++ "/"⟩ : Path).text.toList = parts a.toList ++ [] := by
      rw [htext, parts_append_slash]
      rfl
    have hhead : (a.toList ++ ['/']).head? = a.toList.head? := List.head?_append_of_ne_nil _ hne
    refine same_of_parts ?_ ?_ hparts (List.append_nil _).symm rfl
    · rw [isAbsolute, isAbsolute, htext, hhead]
    · intro hrelative
      rw [isAbsolute, htext, hhead] at hrelative
      exact parts_ne_nil hne (by simpa using hrelative)
  leading {a} ha hsame := by
    have hparts : parts (⟨"./" ++ a⟩ : Path).text.toList = ['.'] :: parts a.toList := by
      rw [String.toList_append]
      exact parts_append_slash ['.'] a.toList
    have hrelative : (⟨"./" ++ a⟩ : Path).isAbsolute = false := by
      simp [isAbsolute]
    rw [same_iff, components_eq hparts, hrelative] at hsame
    rw [← hsame] at ha
    exact ha rfl

end Path

def Action.explicit : Action → List Path
  | .ask (.depend path) => [path]
  | _ => []

namespace Session

def Request.sought {α : Type} : Request α → List Key
  | .globalConfig => [Key.globalConfig]
  | .image v => [⟨.image, (Key.image v).name⟩]
  | .customImage key _ => [⟨.image, key⟩]
  | .systemServerClasspath => [Key.systemServerClasspath]
  | .bootClasspath => [Key.bootClasspath]
  | .makeVars | .exportMakeVars _ _ => Build.madeOf
  | .inject _ | .load _ | .depend _ => []

def Resolves (σ : Session) {α : Type} (r : Request α) : Prop :=
  σ.value? Key.globalConfig = none ∧ ∃ k ∈ r.sought, σ.value? k = none

instance (σ : Session) {α : Type} (r : Request α) : Decidable (σ.Resolves r) :=
  inferInstanceAs (Decidable (_ ∧ _))

/-- The events tell apart work on the global config and work on what the request looks for. -/
def Request.Clear {α : Type} : Request α → Prop
  | .customImage key _ => key ≠ Key.globalConfig.name
  | _ => True

/-- The paths that an action records, the config's file also if nothing comes of it. -/
def recorded (σ : Session) : Action → List Path
  | .ask r => (Action.ask r).explicit ++ if σ.Resolves r then σ.settings.globalConfig.toList else []
  | .script _ | .change _ => []

def recordings : Session → List Action → List Path
  | _, [] => []
  | σ, a :: rest => σ.recorded a ++ recordings (σ.act a) rest

theorem Request.work_seeks {α : Type} {r : Request α} (hr : r.IsDerivation) (s : Settings)
    (files : FileTree) : Build.Seeks s r.Clear r.sought (r.work s files) := by
  cases r with
  | globalConfig => exact Build.globalConfig_seeks s files
  | image v => exact Build.image_seeks s files v
  | customImage key p => exact Build.imageWith_seeks s files id p
  | systemServerClasspath => exact Build.systemServerClasspath_seeks s files
  | bootClasspath => exact Build.bootClasspath_seeks s files
  | makeVars => exact Build.makeVars_seeks s files
  | exportMakeVars strict receiver => exact Build.exportMakeVars_seeks s files strict receiver
  | inject config | load path | depend path => exact hr.elim

theorem explicit_of_isDerivation {α : Type} {r : Request α} (hr : r.IsDerivation) :
    (Action.ask r).explicit = [] := by
  cases r with
  | inject config | load path | depend path => exact hr.elim
  | _ => rfl

theorem not_resolves_of_sought {σ : Session} {α : Type} {r : Request α} (h : r.sought = []) :
    ¬ σ.Resolves r := by
  simp [Resolves, h]

theorem ask_notes (σ : Session) {α : Type} (r : Request α) :
    Build.Notes r.Clear (if σ.Resolves r then 1 else 0) (σ.recorded (.ask r)) σ.ledger
      (σ.ask r).2.ledger := by
  by_cases hr : r.IsDerivation
  · have hseeks := r.work_seeks hr σ.settings σ.files
    rw [recorded, explicit_of_isDerivation hr, List.nil_append]
    by_cases h : σ.Resolves r
    · rw [if_pos h, if_pos h]
      exact (hseeks.missing h.1 h.2).1
    · -- Either the config is there, or everything is that would need it.
      rw [if_neg h, if_neg h]
      by_cases hg : σ.value? Key.globalConfig = none
      · have hfound : ∀ k ∈ r.sought, σ.value? k ≠ none := by
          intro k hk hn
          exact h ⟨hg, k, hk, hn⟩
        exact (hseeks.found hfound).2.1
      · exact (hseeks.quiet (Option.isSome_iff_ne_none.mpr hg)).1
  · have hsought : r.sought = [] := by
      cases r with
      | inject config | load path | depend path => rfl
      | _ => exact absurd trivial hr
    have hnot : ¬ σ.Resolves r := not_resolves_of_sought hsought
    rw [recorded, if_neg hnot, if_neg hnot]
    cases r with
    | inject config => exact Build.inject_notes config σ.ledger
    | load path => exact Build.loadConfig_notes σ.files path σ.ledger
    | depend path => exact .depend path
    | _ => exact absurd trivial hr

theorem act_dependencies (σ : Session) (a : Action) :
    (σ.act a).ledger.dependencies = (σ.recorded a).foldl keep σ.ledger.dependencies := by
  cases a with
  | ask r => exact (σ.ask_notes r).dependencies
  | script step =>
    have hstable : Stable (fun l : Ledger => l.dependencies = σ.ledger.dependencies)
        fun _ => True :=
      ⟨fun _ h => h, fun _ h => h, fun _ h => h, fun _ _ h => h⟩
    exact hstable.after step (fun _ _ => trivial) rfl
  | change files => rfl

theorem after_dependencies (σ : Session) (run : List Action) :
    (σ.after run).ledger.dependencies = (σ.recordings run).foldl keep σ.ledger.dependencies := by
  induction run generalizing σ with
  | nil => rfl
  | cons a rest ih =>
    rw [recordings, List.foldl_append, ← act_dependencies]
    exact ih (σ.act a)

theorem recordings_of_unconfigured {σ : Session} (h : σ.settings.globalConfig = none)
    (run : List Action) : σ.recordings run = run.flatMap Action.explicit := by
  induction run generalizing σ with
  | nil => rfl
  | cons a rest ih =>
    have hfirst : σ.recorded a = a.explicit := by
      cases a with
      | ask r => simp [recorded, Action.explicit, h]
      | script step | change files => rfl
    rw [recordings, hfirst, List.flatMap_cons, ih (by rw [settings_act, h])]

/-- A derivation that has the global config, or all that it looks for, records nothing. -/
theorem recorded_of_cached {σ : Session} {α : Type} {r : Request α} (hr : r.IsDerivation)
    (h : σ.value? Key.globalConfig ≠ none ∨ ∀ k ∈ r.sought, σ.value? k ≠ none) :
    σ.recorded (.ask r) = [] := by
  have hnot : ¬ σ.Resolves r := by
    rintro ⟨hnone, k, hk, hn⟩
    rcases h with h | h
    · exact h hnone
    · exact h k hk hn
  rw [recorded, explicit_of_isDerivation hr, if_neg hnot]
  rfl

structure RecordsDependencies (s : Settings) (files : FileTree) (run : List Action) : Prop where
  listed : Lists ((start s files).recordings run) ((start s files).after run).ledger.dependencies
  kept (later : List Action) : ((start s files).after run).ledger.dependencies <+:
    ((start s files).after (run ++ later)).ledger.dependencies
  unconfigured : s.globalConfig = none → (start s files).recordings run = run.flatMap Action.explicit
  started {α : Type} (r : Request α) : r.Clear →
    Build.starts (((start s files).after run).ask r).2.ledger =
      Build.starts ((start s files).after run).ledger +
        if ((start s files).after run).Resolves r then 1 else 0
  cached {α : Type} {r : Request α} : r.IsDerivation →
    (((start s files).after run).value? Key.globalConfig ≠ none ∨
      ∀ k ∈ r.sought, ((start s files).after run).value? k ≠ none) →
    (((start s files).after run).ask r).2.ledger.dependencies =
      ((start s files).after run).ledger.dependencies

theorem records_dependencies (s : Settings) (files : FileTree) (run : List Action) :
    RecordsDependencies s files run ∧ Path.Respelled where
  left := {
    listed := by
      rw [after_dependencies]
      exact lists_foldl_keep _
    kept later := by
      rw [after_append, after_dependencies _ later]
      exact isPrefix_foldl_keep _ _
    unconfigured h := recordings_of_unconfigured h run
    started r hclear := (ask_notes _ r).starts hclear
    cached {α r} hr h := by
      have hact := act_dependencies ((start s files).after run) (.ask r)
      rw [recorded_of_cached hr h] at hact
      exact hact }
  right := Path.respelled

-- A file that is not there is recorded at each attempt, and listed once.
example :
    let unread := start { globalConfig := some ⟨"conf//a"⟩ } {}
    let run : List Action :=
      [.ask .makeVars, .ask (.depend ⟨"./conf/a"⟩), .ask (.depend ⟨"conf/a/"⟩), .ask (.image .art)]
    unread.recordings run = [⟨"conf//a"⟩, ⟨"./conf/a"⟩, ⟨"conf/a/"⟩, ⟨"conf//a"⟩] ∧
      (unread.after run).ledger.dependencies = [⟨"conf//a"⟩, ⟨"./conf/a"⟩] := by
  decide +kernel

end Session
end Preopt
