import Preopt.Proofs.Config.Validity
import Preopt.Proofs.Session.Injections

/-! Which fault of a config is reported. The updatable entries come first, then the ART modules, then
the boot jars, and of several faults in one list the leftmost is named. What divides an entry is its
first colon, and an element is a repeat where the same one stands further left. Nothing else is
looked at. -/

namespace Preopt

namespace ApexJar

/-- An apex and a jar with a colon between them. The jar may hold further colons. -/
def IsPair (value : String) : Prop :=
  ∃ apex jar : String, value = apex ++ ":" ++ jar ∧ apex ≠ "" ∧ ':' ∉ apex.toList ∧ jar ≠ ""

theorem parse?_append {apex jar : String} (hcolon : ':' ∉ apex.toList) (hapex : apex ≠ "")
    (hjar : jar ≠ "") : parse? (apex ++ ":" ++ jar) = some ⟨apex, jar⟩ := by
  have hvalue : (apex ++ ":" ++ jar).toList = apex.toList ++ ':' :: jar.toList := by simp
  have hname : ∀ c ∈ apex.toList, (c ≠ ':') = true := by
    intro c hc
    simpa using ne_of_mem_of_not_mem hc hcolon
  have hbefore : (apex ++ ":" ++ jar).toList.takeWhile (· ≠ ':') = apex.toList := by
    rw [hvalue, List.takeWhile_append_of_pos (by simpa using hname)]
    simp
  have hbehind : (apex ++ ":" ++ jar).toList.dropWhile (· ≠ ':') = ':' :: jar.toList := by
    rw [hvalue, List.dropWhile_append_of_pos (by simpa using hname)]
    simp
  rw [parse?, hbefore, hbehind]
  simp [hapex, hjar]

theorem nonempty_of_parse {value : String} {pair : ApexJar} (h : parse? value = some pair) :
    pair.apex ≠ "" ∧ pair.jar ≠ "" := by
  unfold parse? at h
  split at h
  · cases h
  · dsimp only at h
    split at h
    · cases h
    · next hne =>
      obtain rfl := Option.some.inj h
      simpa using hne

theorem isPair_iff {value : String} : IsPair value ↔ ∃ pair, parse? value = some pair := by
  constructor
  · rintro ⟨apex, jar, rfl, hapex, hcolon, hjar⟩
    exact ⟨⟨apex, jar⟩, parse?_append hcolon hapex hjar⟩
  · rintro ⟨pair, h⟩
    obtain ⟨hvalue, hcolon⟩ := of_parse h
    obtain ⟨hapex, hjar⟩ := nonempty_of_parse h
    refine ⟨pair.apex, pair.jar, String.toList_inj.mp ?_, hapex, hcolon, hjar⟩
    rw [hvalue]
    simp

end ApexJar

namespace GlobalConfig

open ApexJar (IsPair)

def RepeatsAt (list : List String) (n : Nat) : Prop := ∃ m ∈ list.take n, list[n]? = some m

def FirstRepeat (list : List String) (m : String) : Prop :=
  ∃ n, list[n]? = some m ∧ RepeatsAt list n ∧ ∀ k < n, ¬ RepeatsAt list k

theorem nodup_take_iff {list : List String} {n : Nat} :
    (list.take n).Nodup ↔ ∀ k < n, ¬ RepeatsAt list k := by
  induction n with
  | zero => simp
  | succ n ih =>
    rw [Nat.forall_lt_succ_right, ← ih, List.take_add_one]
    cases h : list[n]? with
    | none => simp [RepeatsAt, h]
    | some m => simp [RepeatsAt, h, List.nodup_append, List.forall_mem_ne']

/-- What comes before the first repeat holds none. -/
theorem firstRepeat_eq_some_iff {seen list : List String} {m : String} :
    firstRepeat seen list = some m ↔
      ∃ before after, list = before ++ m :: after ∧ firstRepeat seen before = none ∧
        (m ∈ seen ∨ m ∈ before) := by
  induction list generalizing seen with
  | nil => simp [firstRepeat]
  | cons x rest ih =>
    by_cases hx : x ∈ seen
    -- The first element is the repeat itself, so that nothing may stand before it.
    · rw [firstRepeat, if_pos hx, Option.some.injEq]
      constructor
      · rintro rfl
        exact ⟨[], rest, rfl, rfl, .inl hx⟩
      · rintro ⟨before, after, hlist, hnone, -⟩
        cases before with
        | nil => exact (List.cons.inj hlist).1
        | cons y before =>
          obtain ⟨rfl, -⟩ := List.cons.inj hlist
          rw [firstRepeat, if_pos hx] at hnone
          cases hnone
    · rw [firstRepeat, if_neg hx, ih]
      constructor
      · rintro ⟨before, after, rfl, hnone, hm⟩
        refine ⟨x :: before, after, rfl, ?_, ?_⟩
        · rw [firstRepeat, if_neg hx, hnone]
        · simpa [or_assoc, or_left_comm] using hm
      · rintro ⟨before, after, hlist, hnone, hm⟩
        cases before with
        | nil =>
          obtain ⟨rfl, -⟩ := List.cons.inj hlist
          exact absurd (hm.resolve_right List.not_mem_nil) hx
        | cons y before =>
          obtain ⟨rfl, rfl⟩ := List.cons.inj hlist
          rw [firstRepeat, if_neg hx] at hnone
          exact ⟨before, after, rfl, hnone, by simpa [or_assoc, or_left_comm] using hm⟩

theorem firstRepeat_nil_iff {list : List String} {m : String} :
    firstRepeat [] list = some m ↔ FirstRepeat list m := by
  rw [firstRepeat_eq_some_iff]
  constructor
  · rintro ⟨before, after, rfl, hnone, hm⟩
    have htake : (before ++ m :: after).take before.length = before := List.take_left
    have hmem : m ∈ before := hm.resolve_left List.not_mem_nil
    refine ⟨before.length, by simp, ⟨m, by rwa [htake], by simp⟩, nodup_take_iff.mp ?_⟩
    rw [htake]
    exact (firstRepeat_eq_none_iff.mp hnone).2
  · rintro ⟨n, hn, ⟨m', hmem, hn'⟩, hleast⟩
    obtain rfl : m = m' := Option.some.inj (hn.symm.trans hn')
    obtain ⟨hlt, rfl⟩ := List.getElem?_eq_some_iff.mp hn
    refine ⟨list.take n, list.drop (n + 1), ?_, ?_, .inr hmem⟩
    · rw [← List.drop_eq_getElem_cons hlt, List.take_append_drop]
    · exact firstRepeat_eq_none_iff.mpr ⟨by simp, nodup_take_iff.mpr hleast⟩

theorem checkUnique_error_iff {name : String} {list : List String} {fault : Fault} :
    checkUnique name list = .error fault ↔
      ∃ m, FirstRepeat list m ∧ fault = .duplicateModule name m := by
  simp only [← firstRepeat_nil_iff]
  rw [checkUnique]
  cases firstRepeat [] list <;> simp [eq_comm]

def FirstMalformed (values : List String) (value : String) : Prop :=
  ∃ n, values[n]? = some value ∧ ¬ IsPair value ∧ ∀ earlier ∈ values.take n, IsPair earlier

theorem splitPair_error_iff {value : String} {fault : Fault} :
    splitPair value = .error fault ↔ ¬ IsPair value ∧ fault = .malformedPair value := by
  rw [ApexJar.isPair_iff, splitPair]
  cases ApexJar.parse? value <;> simp [eq_comm]

theorem splitPair_isPair {value : String} (h : IsPair value) : ∃ pair, splitPair value = .ok pair := by
  obtain ⟨pair, hpair⟩ := ApexJar.isPair_iff.mp h
  exact ⟨pair, splitPair_ok_iff.mpr hpair⟩

theorem firstMalformed_cons {first value : String} {rest : List String} :
    FirstMalformed (first :: rest) value ↔
      ¬ IsPair first ∧ value = first ∨ IsPair first ∧ FirstMalformed rest value := by
  constructor
  · rintro ⟨n, hn, hvalue, hearlier⟩
    cases n with
    | zero =>
      obtain rfl : first = value := Option.some.inj hn
      exact .inl ⟨hvalue, rfl⟩
    | succ n =>
      rw [List.take_succ_cons, List.forall_mem_cons] at hearlier
      exact .inr ⟨hearlier.1, n, hn, hvalue, hearlier.2⟩
  · rintro (⟨hfirst, rfl⟩ | ⟨hfirst, n, hn, hvalue, hearlier⟩)
    · exact ⟨0, rfl, hfirst, by simp⟩
    · refine ⟨n + 1, hn, hvalue, ?_⟩
      rw [List.take_succ_cons, List.forall_mem_cons]
      exact ⟨hfirst, hearlier⟩

theorem checkPairs_error_iff {values : List String} {fault : Fault} :
    checkPairs values = .error fault ↔
      ∃ value, FirstMalformed values value ∧ fault = .malformedPair value := by
  induction values with
  | nil => simp [checkPairs, FirstMalformed]
  | cons first rest ih =>
    rw [checkPairs]
    by_cases hfirst : IsPair first
    · obtain ⟨pair, hpair⟩ := splitPair_isPair hfirst
      simp [hpair, ih, firstMalformed_cons, hfirst]
    · have hsplit := splitPair_error_iff.mpr ⟨hfirst, rfl⟩
      simp [hsplit, firstMalformed_cons, hfirst, eq_comm]

structure WellFormed (config : GlobalConfig) : Prop where
  pairs : ∀ value ∈ config.updatableSystemServerJars, IsPair value
  art : config.artApexJars.Nodup
  boot : config.bootJars.Nodup

inductive Reports (config : GlobalConfig) : Fault → Prop
  | pair {value : String} (hvalue : FirstMalformed config.updatableSystemServerJars value) :
    Reports config (.malformedPair value)
  | art {m : String} (hpairs : ∀ value ∈ config.updatableSystemServerJars, IsPair value)
      (hm : FirstRepeat config.artApexJars m) :
    Reports config (.duplicateModule "ArtApexJars" m)
  | boot {m : String} (hpairs : ∀ value ∈ config.updatableSystemServerJars, IsPair value)
      (hart : config.artApexJars.Nodup) (hm : FirstRepeat config.bootJars m) :
    Reports config (.duplicateModule "BootJars" m)

theorem validate_ok_iff_wellFormed {config : GlobalConfig} :
    config.validate = .ok () ↔ config.WellFormed := by
  simp only [validate_ok_iff, ← ApexJar.isPair_iff]
  exact ⟨fun h => ⟨h.1, h.2.1, h.2.2⟩, fun h => ⟨h.pairs, h.art, h.boot⟩⟩

theorem checkPairs_ok {values : List String} (h : ∀ value ∈ values, IsPair value) :
    checkPairs values = .ok () :=
  checkPairs_ok_iff.mpr fun value hvalue => ApexJar.isPair_iff.mp (h value hvalue)

theorem Reports.validate_eq {config : GlobalConfig} {fault : Fault} (h : Reports config fault) :
    config.validate = .error fault := by
  cases h with
  | pair hvalue =>
    rw [validate, checkPairs_error_iff.mpr ⟨_, hvalue, rfl⟩]
    rfl
  | art hpairs hm =>
    rw [validate, checkPairs_ok hpairs, checkUnique_error_iff.mpr ⟨_, hm, rfl⟩]
    rfl
  | boot hpairs hart hm =>
    rw [validate, checkPairs_ok hpairs, (checkUnique_ok_iff _).mpr hart,
      checkUnique_error_iff.mpr ⟨_, hm, rfl⟩]
    rfl

theorem reports_of_validate {config : GlobalConfig} {fault : Fault}
    (h : config.validate = .error fault) : Reports config fault := by
  rw [validate] at h
  cases hpairs : checkPairs config.updatableSystemServerJars with
  | error e =>
    obtain ⟨value, hvalue, rfl⟩ := checkPairs_error_iff.mp hpairs
    rw [hpairs] at h
    cases h
    exact .pair hvalue
  | ok u =>
    have hwell : ∀ value ∈ config.updatableSystemServerJars, IsPair value := fun value hvalue =>
      ApexJar.isPair_iff.mpr (checkPairs_ok_iff.mp hpairs value hvalue)
    cases hart : checkUnique "ArtApexJars" config.artApexJars with
    | error e =>
      obtain ⟨m, hm, rfl⟩ := checkUnique_error_iff.mp hart
      rw [hpairs, hart] at h
      cases h
      exact .art hwell hm
    | ok u' =>
      rw [hpairs, hart] at h
      obtain ⟨m, hm, rfl⟩ := checkUnique_error_iff.mp h
      exact .boot hwell ((checkUnique_ok_iff _).mp hart) hm

theorem validate_error_iff {config : GlobalConfig} {fault : Fault} :
    config.validate = .error fault ↔ Reports config fault :=
  ⟨reports_of_validate, Reports.validate_eq⟩

end GlobalConfig

namespace Session

open GlobalConfig (WellFormed Reports)

structure Judged (config : GlobalConfig) : Prop where
  accepted : config.validate = .ok () ↔ config.WellFormed
  refused (fault : GlobalConfig.Fault) : config.validate = .error fault ↔ Reports config fault
  alone (config' : GlobalConfig) :
    config'.updatableSystemServerJars = config.updatableSystemServerJars →
    config'.artApexJars = config.artApexJars → config'.bootJars = config.bootJars →
    config'.validate = config.validate
  injected (σ : Session) (fault : GlobalConfig.Fault) : σ.value? Key.globalConfig = none →
    ((σ.ask (.inject config)).1 = .error (.invalidConfig fault) ↔ Reports config fault)
  read (σ : Session) (path : Path) (bytes : ByteArray) (fault : GlobalConfig.Fault) :
    σ.value? Key.globalConfig = none → σ.settings.globalConfig = some path →
    σ.files.read path = .ok bytes → GlobalConfig.ofBytes bytes = .ok config →
    ((σ.ask .globalConfig).1 = .error (.invalidConfig fault) ↔ Reports config fault)

theorem ask_inject_invalid_iff {σ : Session} (hn : σ.value? Key.globalConfig = none)
    (config : GlobalConfig) (fault : GlobalConfig.Fault) :
    (σ.ask (.inject config)).1 = .error (.invalidConfig fault) ↔
      config.validate = .error fault := by
  rw [ask_inject, hn]
  cases config.validate with
  | error e => simp
  | ok u => cases (σ.value? Key.injectedConfig).isSome <;> simp

theorem ask_globalConfig_of_file {σ : Session} {path : Path}
    (hn : σ.value? Key.globalConfig = none) (hp : σ.settings.globalConfig = some path) :
    (σ.ask .globalConfig).1 = Build.readConfig σ.files path := by
  obtain ⟨result, l, hon, hr⟩ := Build.globalConfig_on σ.settings σ.files σ.ledger
  have hask : σ.ask .globalConfig = _ := perform_of_on hon
  rw [hask]
  cases hr with
  | stored hr => cases hn.symm.trans hr
  | unread _ hp' he =>
    obtain rfl := Option.some.inj (hp.symm.trans hp')
    exact he.symm
  | read _ hp' hr =>
    obtain rfl := Option.some.inj (hp.symm.trans hp')
    exact hr.symm
  | injected _ hp' => cases hp.symm.trans hp'
  | fellBack _ hp' => cases hp.symm.trans hp'

theorem readConfig_invalid_iff {files : FileTree} {path : Path} {bytes : ByteArray}
    {config : GlobalConfig} (hb : files.read path = .ok bytes)
    (hc : GlobalConfig.ofBytes bytes = .ok config) (fault : GlobalConfig.Fault) :
    Build.readConfig files path = .error (.invalidConfig fault) ↔
      config.validate = .error fault := by
  rw [Build.readConfig, (Build.contents_eq_ok_iff files).mpr ⟨hb, hc⟩]
  dsimp only
  cases config.validate <;> simp

/-- A config is refused for its first fault in the order of the checks, and for no other reason. -/
theorem first_fault_reported (config : GlobalConfig) : Judged config where
  accepted := GlobalConfig.validate_ok_iff_wellFormed
  refused fault := GlobalConfig.validate_error_iff
  alone config' hpairs hart hboot := by
    rw [GlobalConfig.validate, GlobalConfig.validate, hpairs, hart, hboot]
  injected σ fault hn :=
    (ask_inject_invalid_iff hn config fault).trans GlobalConfig.validate_error_iff
  read σ path bytes fault hn hp hb hc := by
    rw [ask_globalConfig_of_file hn hp, readConfig_invalid_iff hb hc]
    exact GlobalConfig.validate_error_iff

/-- The repeat that is found first is named, not the element that is repeated first. -/
example :
    ({ bootJars := ["a", "b", "b", "a"], updatableSystemServerJars := ["a:b:c"] } :
      GlobalConfig).validate = .error (.duplicateModule "BootJars" "b") := by
  decide

end Session
end Preopt
