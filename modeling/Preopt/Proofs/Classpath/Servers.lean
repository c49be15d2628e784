import Preopt.Proofs.Classpath.ReadBack
import Preopt.Proofs.Config.Faults
import Preopt.Proofs.Image.Containment
import Preopt.Proofs.Session.Noninterference

/-! The system server's classpath, place by place: a jar for each platform module, then a jar for
each updatable value. The jars are called what the modules are called, not what their stems are. Names
are joined to directories as they stand, so that an absolute one replaces what comes before it. -/

namespace Preopt

namespace ApexJar

structure Divides (value : String) (pair : ApexJar) : Prop where
  value_eq : value = pair.apex ++ ":" ++ pair.jar
  colon : ':' ∉ pair.apex.toList
  apex : pair.apex ≠ ""
  jar : pair.jar ≠ ""

theorem parse?_eq_some_iff {value : String} {pair : ApexJar} :
    parse? value = some pair ↔ Divides value pair := by
  constructor
  · intro h
    obtain ⟨hvalue, hcolon⟩ := of_parse h
    obtain ⟨hapex, hjar⟩ := nonempty_of_parse h
    refine ⟨String.toList_inj.mp ?_, hcolon, hapex, hjar⟩
    simp [hvalue]
  · rintro ⟨rfl, hcolon, hapex, hjar⟩
    exact parse?_append hcolon hapex hjar

theorem Divides.unique {value : String} {pair pair' : ApexJar} (h : Divides value pair)
    (h' : Divides value pair') : pair' = pair := by
  rw [← parse?_eq_some_iff] at h h'
  exact Option.some.inj (h'.symm.trans h)

end ApexJar

open ApexJar (Divides)
open Image (Absolute)

namespace Classpath

structure Placed (config : GlobalConfig) (servers : List String) : Prop where
  length_eq : servers.length =
    config.systemServerJars.length + config.updatableSystemServerJars.length
  platform {n : Nat} {m : String} : config.systemServerJars[n]? = some m →
    servers[n]? = some ((⟨"/system/framework"⟩ : Path).join (m ++ ".jar")).text
  platform_text {n : Nat} {m : String} : config.systemServerJars[n]? = some m →
    servers[n]? = some (if Absolute m then m ++ ".jar" else "/system/framework/" ++ m ++ ".jar")
  divided {n : Nat} {value : String} : config.updatableSystemServerJars[n]? = some value →
    ∃! pair, Divides value pair
  updatable {n : Nat} {value : String} {pair : ApexJar} :
    config.updatableSystemServerJars[n]? = some value → Divides value pair →
    servers[config.systemServerJars.length + n]? =
      some ((((⟨"/apex"⟩ : Path).join pair.apex).join "javalib").join (pair.jar ++ ".jar")).text
  updatable_absolute {n : Nat} {value : String} {pair : ApexJar} :
    config.updatableSystemServerJars[n]? = some value → Divides value pair → Absolute pair.jar →
    servers[config.systemServerJars.length + n]? = some (pair.jar ++ ".jar")
  updatable_relative {n : Nat} {value : String} {pair : ApexJar} :
    config.updatableSystemServerJars[n]? = some value → Divides value pair → ¬ Absolute pair.jar →
    ∃ jar, servers[config.systemServerJars.length + n]? = some jar ∧ jar.toList =
      (⟨if Absolute pair.apex then pair.apex else "/apex/" ++ pair.apex⟩ : Path).lead ++
        ("javalib/" ++ pair.jar ++ ".jar").toList

theorem platformJar_text (m : String) :
    platformJar m = if Absolute m then m ++ ".jar" else "/system/framework/" ++ m ++ ".jar" := by
  rw [platformJar]
  split
  · next h => rw [Path.join_of_absolute _ ((Image.head?_jarName m).mpr h)]
  · next h =>
    have hlead : Image.frameworkDir.lead = "/system/framework/".toList := by decide
    apply String.toList_inj.mp
    rw [Path.join_of_relative _ (mt (Image.head?_jarName m).mp h), hlead]
    simp

theorem join_apex (apex : String) :
    (⟨"/apex"⟩ : Path).join apex = ⟨if Absolute apex then apex else "/apex/" ++ apex⟩ := by
  split
  · next h => exact Path.join_of_absolute _ h
  · next h => exact if_neg h

theorem apexJar_of_absolute {pair : ApexJar} (h : Absolute pair.jar) :
    apexJar pair = pair.jar ++ ".jar" := by
  rw [apexJar, Path.join_of_absolute _ ((Image.head?_jarName _).mpr h)]

theorem apexJar_of_relative {pair : ApexJar} (h : ¬ Absolute pair.jar) :
    (apexJar pair).toList =
      (⟨if Absolute pair.apex then pair.apex else "/apex/" ++ pair.apex⟩ : Path).lead ++
        ("javalib/" ++ pair.jar ++ ".jar").toList := by
  have hjavalib : "javalib".toList.head? ≠ some '/' := by decide
  rw [apexJar, Path.join_of_relative _ (mt (Image.head?_jarName _).mp h), join_apex,
    Path.lead_join _ hjavalib (c := 'b') (by decide) (by decide)]
  simp

theorem placed_of_systemServer {config : GlobalConfig} {servers : List String}
    (h : systemServer config = .ok servers) : Placed config servers := by
  obtain ⟨pairs, hpairs, rfl⟩ := of_systemServer h
  have hplatform {n : Nat} {m : String} (hm : config.systemServerJars[n]? = some m) :
      (config.systemServerJars.map platformJar ++ pairs.map apexJar)[n]? =
        some (platformJar m) := by
    obtain ⟨hn, rfl⟩ := List.getElem?_eq_some_iff.mp hm
    rw [List.getElem?_append_left (by simpa using hn)]
    simp [hn]
  have hupdatable {n : Nat} {value : String} {pair : ApexJar}
      (hvalue : config.updatableSystemServerJars[n]? = some value) (hpair : Divides value pair) :
      (config.systemServerJars.map platformJar ++ pairs.map apexJar)[
        config.systemServerJars.length + n]? = some (apexJar pair) := by
    obtain ⟨hn, rfl⟩ := List.getElem?_eq_some_iff.mp hvalue
    have hn' : n < pairs.length := hpairs.length_eq ▸ hn
    have hparsed : Divides _ pairs[n] := ApexJar.parse?_eq_some_iff.mp (hpairs.get hn hn')
    obtain rfl : pair = pairs[n] := hparsed.unique hpair
    rw [List.getElem?_append_right (by simp)]
    simp [hn']
  constructor
  case length_eq => simp [hpairs.length_eq]
  case platform => exact hplatform
  case platform_text =>
    intro n m hm
    rw [hplatform hm, platformJar_text]
  case divided =>
    intro n value hvalue
    obtain ⟨hn, rfl⟩ := List.getElem?_eq_some_iff.mp hvalue
    have hparsed := ApexJar.parse?_eq_some_iff.mp (hpairs.get hn (hpairs.length_eq ▸ hn))
    exact ⟨_, hparsed, fun pair hpair => hparsed.unique hpair⟩
  case updatable => exact hupdatable
  case updatable_absolute =>
    intro n value pair hvalue hpair habsolute
    rw [hupdatable hvalue hpair, apexJar_of_absolute habsolute]
  case updatable_relative =>
    intro n value pair hvalue hpair hrelative
    exact ⟨_, hupdatable hvalue hpair, apexJar_of_relative hrelative⟩

end Classpath

namespace Session

/-- Whatever a build was asked before, and whether or not it was asked for the classpath, its one
config decides on it. -/
theorem servers_placed (s : Settings) (files : FileTree) (run : List Action)
    (hs : ∀ a ∈ run, a.SparesBuiltIn) {config : Resolved}
    (hconfig : (((start s files).after run).ask .globalConfig).1 = .ok config) :
    ∃ servers, (((start s files).after run).ask .systemServerClasspath).1 = .ok servers ∧
      Classpath.Placed config.config servers := by
  let σ := (start s files).after run
  have hsound : Build.Sound σ.ledger := after_sound hs (sound_start s files)
  have hprospect : σ.prospect = .ok config := by
    rw [← ask_prospect σ (r := .globalConfig) trivial]
    exact Build.prospect_of_resolved (ask_shows hconfig)
  cases hanswer : (σ.ask .systemServerClasspath).1 with
  | error e =>
    -- A failure would have to come from the config, which resolves.
    rw [prospect_of_error hsound (r := .systemServerClasspath) trivial hanswer] at hprospect
    cases hprospect
  | ok servers =>
    have hspares : ∀ a ∈ run ++ [.ask .systemServerClasspath],
        a.Spares Key.systemServerClasspath := by
      simpa [or_imp, forall_and, Action.Spares] using fun a ha => hs a ha _ (by decide)
    have hstored : ((start s files).after (run ++ [.ask .systemServerClasspath])).value?
        Key.systemServerClasspath = some servers := by
      rw [after_append]
      exact ask_shows hanswer
    obtain ⟨τ, α, r, -, hderived⟩ := derived_of_filled hspares (value?_start s files _) hstored
    obtain ⟨config', hconfig', hservers⟩ := hderived.1 rfl
    rw [after_append] at hconfig'
    obtain rfl := config_of_prospect (r := .systemServerClasspath) trivial hprospect hconfig'
    exact ⟨servers, rfl, Classpath.placed_of_systemServer hservers⟩

theorem servers_placed_repeated :
    let config : GlobalConfig :=
      { systemServerJars := ["framework-minus-apex", "framework-minus-apex"],
        updatableSystemServerJars := ["a:b:c", "a:b:c", "/a/:b", "a:/b"] }
    let run : List Action := [.ask (.inject config)]
    let σ := (start {} {}).after run
    (∀ a ∈ run, a.SparesBuiltIn) ∧ (σ.ask .globalConfig).1 = .ok ⟨config, none, .injected⟩ ∧
      ∃ servers, (σ.ask .systemServerClasspath).1 = .ok servers ∧
        Classpath.Placed config servers ∧ servers.length = 6 ∧
        servers[1]? = some "/system/framework/framework-minus-apex.jar" ∧
        servers[3]? = some "/apex/a/javalib/b:c.jar" ∧
        servers[4]? = some "/a/javalib/b.jar" ∧ servers[5]? = some "/b.jar" := by
  intro config run σ
  obtain ⟨hdriven, hprospect⟩ := exists_driven {} {} config rfl (by decide)
  have hs : ∀ a ∈ run, a.SparesBuiltIn := List.forall_mem_singleton.mpr fun _ _ => trivial
  have hconfig := hdriven.ask_globalConfig hprospect
  obtain ⟨servers, hservers, hplaced⟩ := servers_placed {} {} run hs hconfig
  have hcolons : Divides "a:b:c" ⟨"a", "b:c"⟩ := by constructor <;> decide
  have hslashes : Divides "/a/:b" ⟨"/a/", "b"⟩ := by constructor <;> decide
  have hslash : Divides "a:/b" ⟨"a", "/b"⟩ := by constructor <;> decide
  have hplatform := hplaced.platform (n := 1) rfl
  have htwice := hplaced.updatable (n := 1) rfl hcolons
  have hapex := hplaced.updatable (n := 2) rfl hslashes
  have hjar := hplaced.updatable (n := 3) rfl hslash
  exact ⟨hs, hconfig, servers, hservers, hplaced, hplaced.length_eq, hplatform.trans (by decide),
    htwice.trans (by decide), hapex.trans (by decide), hjar.trans (by decide)⟩

end Session
end Preopt
