import Preopt.Proofs.Image.Collisions
import Preopt.Proofs.Session.Foretold

/-! Reading make variables back. A list comes back from the variable it was joined into exactly when
no entry holds a colon and the list is not the one empty text. Directories and extensions bring no
colons, so the config alone decides on that, and the one part of it that may hold colons is the jar
in an apex. -/

namespace Preopt

namespace MakeVars

/-- The list a variable was joined from, as far as its colons tell. -/
def readBack (text : String) : List String :=
  if text = "" then [] else (text.toList.splitOn ':').map String.ofList

def Legible (entry : String) : Prop := entry ≠ "" ∧ ':' ∉ entry.toList

instance (entry : String) : Decidable (Legible entry) := inferInstanceAs (Decidable (_ ∧ _))

theorem notMem_of_mem_splitOn {text piece : List Char} {c : Char} (h : piece ∈ text.splitOn c) :
    c ∉ piece := by
  induction text generalizing piece with
  | nil =>
    obtain rfl : piece = [] := by simpa using h
    exact List.not_mem_nil
  | cons first rest ih =>
    rw [List.splitOn_cons_eq_if_modifyHead] at h
    split at h
    · rcases List.mem_cons.mp h with rfl | h
      · exact List.not_mem_nil
      · exact ih h
    · next hfirst =>
      have hne : c ≠ first := fun heq => hfirst (by simp [heq])
      cases hparts : rest.splitOn c with
      | nil => simp [hparts] at h
      | cons part parts =>
        rw [hparts] at h
        rcases List.mem_cons.mp h with rfl | h
        · rw [List.mem_cons, not_or]
          exact ⟨hne, ih (hparts ▸ List.mem_cons_self)⟩
        · exact ih (hparts ▸ List.mem_cons_of_mem _ h)

theorem joined_toList (list : List String) :
    (joined list).toList = [':'].intercalate (list.map String.toList) := by
  rw [joined, String.toList_intercalate]
  rfl

theorem splitOn_joined {list : List String} (h : ∀ entry ∈ list, ':' ∉ entry.toList)
    (hne : list ≠ []) : (joined list).toList.splitOn ':' = list.map String.toList := by
  rw [joined_toList]
  exact List.splitOn_intercalate ':' (by simpa using h) (by simpa using hne)

theorem readBack_joined_iff (list : List String) :
    readBack (joined list) = list ↔ (∀ entry ∈ list, ':' ∉ entry.toList) ∧ list ≠ [""] := by
  rw [readBack]
  constructor
  · intro h
    split at h
    · subst h
      simp
    · next hjoined =>
      refine ⟨fun entry hentry => ?_, fun hempty => hjoined (hempty ▸ rfl)⟩
      rw [← h] at hentry
      obtain ⟨piece, hpiece, rfl⟩ := List.mem_map.mp hentry
      rw [String.toList_ofList]
      exact notMem_of_mem_splitOn hpiece
  · rintro ⟨h, hempty⟩
    by_cases hne : list = []
    · subst hne
      rfl
    · have hsplit := splitOn_joined h hne
      rw [if_neg]
      · simp [hsplit, Function.comp_def]
      · intro hjoined
        rw [hjoined] at hsplit
        refine hempty ?_
        obtain ⟨entry, rfl, hentry⟩ := List.map_eq_singleton_iff.mp hsplit.symm
        rw [String.toList_eq_nil_iff.mp hentry]

theorem readBack_joined {list : List String} (h : ∀ entry ∈ list, Legible entry) :
    readBack (joined list) = list := by
  refine (readBack_joined_iff list).mpr ⟨fun entry hentry => (h entry hentry).2, ?_⟩
  rintro rfl
  exact (h "" List.mem_cons_self).1 rfl

end MakeVars

open MakeVars

theorem Path.mem_join (p : Path) {piece : String} {c : Char} (h : c ∈ piece.toList) :
    c ∈ (p.join piece).text.toList := by
  rw [join]
  split
  · exact h
  · split <;> simp [h]

theorem Path.colon_mem_join_iff {p : Path} {piece : String} (h : ':' ∉ p.text.toList) :
    ':' ∈ (p.join piece).text.toList ↔ ':' ∈ piece.toList := by
  refine ⟨fun hmem => ?_, mem_join p⟩
  rw [join] at hmem
  split at hmem
  · exact hmem
  · split at hmem <;> simpa [h] using hmem

theorem Path.join_jar_ne_empty (p : Path) (m : String) : (p.join (m ++ ".jar")).text ≠ "" := by
  intro h
  have hdot : '.' ∈ (p.join (m ++ ".jar")).text.toList := mem_join p (by simp)
  rw [h] at hdot
  cases hdot

theorem colon_mem_jar_iff (m : String) : ':' ∈ (m ++ ".jar").toList ↔ ':' ∈ m.toList := by
  simp

theorem Image.legible_jarLocation {dir : Path} (hd : ':' ∉ dir.text.toList) {m : String}
    (h : ':' ∉ m.toList) : Legible (jarLocation dir m) := by
  refine ⟨Path.join_jar_ne_empty dir (stemOf m), ?_⟩
  rw [jarLocation, Path.colon_mem_join_iff hd, colon_mem_jar_iff, stemOf_eq]
  split
  · decide
  · exact h

namespace Classpath

theorem legible_platformJar {m : String} (h : ':' ∉ m.toList) : Legible (platformJar m) := by
  refine ⟨Path.join_jar_ne_empty Image.frameworkDir m, ?_⟩
  rw [platformJar, Path.colon_mem_join_iff (by decide), colon_mem_jar_iff]
  exact h

theorem colon_mem_apexJar_iff {pair : ApexJar} (h : ':' ∉ pair.apex.toList) :
    ':' ∈ (apexJar pair).toList ↔ ':' ∈ pair.jar.toList := by
  have hapex : ':' ∉ (Path.join ⟨"/apex"⟩ pair.apex).text.toList :=
    mt (Path.colon_mem_join_iff (by decide)).mp h
  have hjavalib : ':' ∉ ((Path.join ⟨"/apex"⟩ pair.apex).join "javalib").text.toList :=
    mt (Path.colon_mem_join_iff hapex).mp (by decide)
  rw [apexJar, Path.colon_mem_join_iff hjavalib, colon_mem_jar_iff]

theorem apexJars_iff {values : List String} {pairs : List ApexJar}
    (h : List.Forall₂ (fun value pair => ApexJar.parse? value = some pair) values pairs) :
    (∀ jar ∈ pairs.map apexJar, ':' ∉ jar.toList) ↔
      ∀ value ∈ values, value.toList.count ':' = 1 := by
  induction h with
  | nil => simp
  | cons hpair _ ih =>
    obtain ⟨-, hapex⟩ := ApexJar.of_parse hpair
    rw [List.map_cons, List.forall_mem_cons, List.forall_mem_cons, ih,
      ApexJar.count_colon_iff hpair, colon_mem_apexJar_iff hapex]

theorem of_systemServer {config : GlobalConfig} {servers : List String}
    (h : systemServer config = .ok servers) :
    ∃ pairs, List.Forall₂ (fun value pair => ApexJar.parse? value = some pair)
        config.updatableSystemServerJars pairs ∧
      servers = config.systemServerJars.map platformJar ++ pairs.map apexJar := by
  rw [systemServer] at h
  cases hpairs : config.updatableSystemServerJars.mapM GlobalConfig.splitPair with
  | error e =>
    rw [hpairs] at h
    cases h
  | ok pairs =>
    rw [hpairs] at h
    cases h
    exact ⟨pairs, GlobalConfig.of_mapM_splitPair hpairs, rfl⟩

end Classpath

structure GlobalConfig.Joinable (config : GlobalConfig) : Prop where
  art : ∀ m ∈ config.artApexJars, Legible m
  boot : ∀ m ∈ config.bootJars, Legible m
  updatableLocations : ∀ l ∈ config.productUpdatableBootLocations, Legible l
  systemServer : ∀ m ∈ config.systemServerJars, Legible m

namespace GlobalConfig.Joinable

variable {config : GlobalConfig} (h : config.Joinable)
include h

theorem legible_modules (p : Profile) : ∀ m ∈ Image.modulesOf config p, Legible m := by
  rw [Image.modulesOf_eq, Image.latterModules]
  refine List.forall_mem_append.mpr ⟨h.art, ?_⟩
  split
  · simp
  · exact fun m hm => h.boot m (List.mem_of_mem_filter hm)

theorem legible_locations (p : Profile) : ∀ l ∈ Image.locationsOf config p, Legible l := by
  have hmodules := h.legible_modules p
  rw [Image.modulesOf_eq] at hmodules
  obtain ⟨hart, hlatter⟩ := List.forall_mem_append.mp hmodules
  rw [Image.locationsOf_eq]
  refine List.forall_mem_append.mpr ⟨List.forall_mem_map.mpr fun m hm => ?_,
    List.forall_mem_map.mpr fun m hm => ?_⟩
  · exact Image.legible_jarLocation (by decide) (hart m hm).2
  · exact Image.legible_jarLocation (by decide) (hlatter m hm).2

theorem legible_boot (s : Settings) (p : Profile) :
    ∀ l ∈ Classpath.boot config (Image.derive s config p), Legible l :=
  List.forall_mem_append.mpr ⟨h.legible_locations p, h.updatableLocations⟩

theorem readBack_systemServer {servers : List String}
    (hservers : Classpath.systemServer config = .ok servers) :
    readBack (joined servers) = servers ↔
      ∀ value ∈ config.updatableSystemServerJars, value.toList.count ':' = 1 := by
  obtain ⟨pairs, hpairs, rfl⟩ := Classpath.of_systemServer hservers
  have hplatform : ∀ jar ∈ config.systemServerJars.map Classpath.platformJar, Legible jar :=
    List.forall_mem_map.mpr fun m hm => Classpath.legible_platformJar (h.systemServer m hm).2
  have hempty : config.systemServerJars.map Classpath.platformJar ++
      pairs.map Classpath.apexJar ≠ [""] := by
    intro hone
    have hmem : "" ∈ config.systemServerJars.map Classpath.platformJar ++
        pairs.map Classpath.apexJar := hone ▸ List.mem_cons_self
    rcases List.mem_append.mp hmem with hmem | hmem
    · exact (hplatform "" hmem).1 rfl
    · obtain ⟨pair, -, hpair⟩ := List.mem_map.mp hmem
      exact Path.join_jar_ne_empty _ _ hpair
  rw [readBack_joined_iff, and_iff_left hempty, List.forall_mem_append,
    ← Classpath.apexJars_iff hpairs]
  exact and_iff_right fun jar hjar => (hplatform jar hjar).2

end GlobalConfig.Joinable

namespace Session

structure Exports (σ : Session) (boot servers : List String) (image : Image)
    (vars : List (String × String)) : Prop where
  boot : (σ.ask .bootClasspath).1 = .ok boot
  servers : (σ.ask .systemServerClasspath).1 = .ok servers
  image : (σ.ask (.image .default)).1 = .ok image
  made : (σ.ask .makeVars).1 = .ok vars
  sent {ρ : Type} (strict : ρ → String → String → ρ) (receiver : ρ) :
    (σ.ask (.exportMakeVars strict receiver)).1 = .ok (MakeVars.send strict receiver vars)

theorem Driven.exports {σ : Session} {r : Resolved} {servers : List String} (hσ : Driven σ)
    (hp : σ.prospect = .ok r) (hservers : Classpath.systemServer r.config = .ok servers) :
    let image := Image.derive σ.settings r.config Variant.default.profile
    let boot := Classpath.boot r.config image
    Exports σ boot servers image (MakeVars.all boot image servers) := by
  intro image boot
  have hsame {servers'} (h : Classpath.systemServer r.config = .ok servers') :
      servers' = servers :=
    Except.ok.inj (h.symm.trans hservers)
  constructor
  case boot =>
    obtain ⟨boot', _, hboot, rfl⟩ := hσ.ask_eq (r := .bootClasspath) trivial trivial hp
    exact hboot
  case servers =>
    obtain ⟨servers', _, hasked, hyields⟩ :=
      hσ.ask_eq (r := .systemServerClasspath) trivial trivial hp
    rw [hasked, hsame hyields]
  case image =>
    obtain ⟨image', _, himage, rfl⟩ := hσ.ask_eq (r := .image .default) trivial trivial hp
    exact himage
  case made =>
    obtain ⟨vars, _, hvars, servers', hyields, rfl⟩ :=
      hσ.ask_eq (r := .makeVars) trivial trivial hp
    rw [hvars, hsame hyields]
  case sent =>
    intro ρ strict receiver
    obtain ⟨sent, _, hsent, servers', hyields, rfl⟩ :=
      hσ.ask_eq (r := .exportMakeVars strict receiver) trivial trivial hp
    rw [hsent, hsame hyields]

/-- Where the entries are legible, every variable reads back as the list it carries, the system
server's one as long as no jar of a pair holds a colon. -/
theorem variables_read_back (s : Settings) (config : GlobalConfig)
    (hv : config.validate = .ok ()) (hj : config.Joinable) :
    let image := Image.derive s config Variant.default.profile
    let boot := Classpath.boot config image
    ∃ servers : List String,
      servers.length =
        config.systemServerJars.length + config.updatableSystemServerJars.length ∧
      (∀ (σ : Session) (raw : Option ByteArray) (source : Source),
        Driven σ → σ.settings = s → σ.prospect = .ok ⟨config, raw, source⟩ →
        Exports σ boot servers image
          [("PRODUCT_BOOTCLASSPATH", joined boot),
            ("PRODUCT_DEX2OAT_BOOTCLASSPATH", joined image.dexLocations),
            ("PRODUCT_SYSTEM_SERVER_CLASSPATH", joined servers),
            ("DEXPREOPT_BOOT_JARS_MODULES", joined image.modules)]) ∧
      readBack (joined boot) = boot ∧
      readBack (joined image.dexLocations) = image.dexLocations ∧
      readBack (joined image.modules) = image.modules ∧
      (readBack (joined servers) = servers ↔
        ∀ value ∈ config.updatableSystemServerJars, value.toList.count ':' = 1) := by
  intro image boot
  obtain ⟨servers, hservers⟩ := Build.systemServer_of_valid hv
  obtain ⟨pairs, hpairs, hlist⟩ := Classpath.of_systemServer hservers
  refine ⟨servers, ?_, ?_, readBack_joined (hj.legible_boot _ _),
    readBack_joined (hj.legible_locations _), readBack_joined (hj.legible_modules _),
    hj.readBack_systemServer hservers⟩
  · rw [hlist, List.length_append, List.length_map, List.length_map, hpairs.length_eq]
  · rintro σ raw source hσ rfl hp
    exact hσ.exports hp hservers

theorem variables_read_back_ordinary :
    let config : GlobalConfig :=
      { artApexJars := ["core-oj"], bootJars := ["framework-minus-apex"],
        productUpdatableBootLocations := ["/apex/a/javalib/b.jar"],
        systemServerJars := ["services"], updatableSystemServerJars := ["c:d"] }
    let σ := (start {} {}).after [.ask (.inject config)]
    config.validate = .ok () ∧ config.Joinable ∧
      ∃ (boot servers : List String) (image : Image) (vars : List (String × String)),
        Exports σ boot servers image vars ∧ servers.length = 2 ∧
        vars.map (fun v => readBack v.2) = [boot, image.dexLocations, servers, image.modules] := by
  intro config σ
  have hvalid : config.validate = .ok () := by decide
  have hjoinable : config.Joinable := by constructor <;> decide
  obtain ⟨hdriven, hprospect⟩ := exists_driven {} {} config rfl hvalid
  obtain ⟨servers, hlength, hexports, hboot, hlocations, hmodules, hservers⟩ :=
    variables_read_back {} config hvalid hjoinable
  refine ⟨hvalid, hjoinable, _, servers, _, _,
    hexports σ none .injected hdriven (settings_after _ _) hprospect, hlength, ?_⟩
  rw [List.map_cons, List.map_cons, List.map_cons, List.map_cons, List.map_nil, hboot, hlocations,
    hservers.mpr (by decide), hmodules]

theorem inner_colon_not_read_back :
    let config : GlobalConfig := { updatableSystemServerJars := ["a:b:c"] }
    let σ := (start {} {}).after [.ask (.inject config)]
    config.validate = .ok () ∧ config.Joinable ∧
      (σ.ask .systemServerClasspath).1 = .ok ["/apex/a/javalib/b:c.jar"] ∧
      (σ.ask .makeVars).1 =
        .ok [("PRODUCT_BOOTCLASSPATH", ""), ("PRODUCT_DEX2OAT_BOOTCLASSPATH", ""),
          ("PRODUCT_SYSTEM_SERVER_CLASSPATH", "/apex/a/javalib/b:c.jar"),
          ("DEXPREOPT_BOOT_JARS_MODULES", "")] ∧
      readBack "/apex/a/javalib/b:c.jar" = ["/apex/a/javalib/b", "c.jar"] := by
  intro config σ
  have hvalid : config.validate = .ok () := by decide
  have hjoinable : config.Joinable := by constructor <;> decide
  obtain ⟨hdriven, hprospect⟩ := exists_driven {} {} config rfl hvalid
  have hservers : Classpath.systemServer config = .ok ["/apex/a/javalib/b:c.jar"] := by rfl
  have hexports := hdriven.exports hprospect hservers
  exact ⟨hvalid, hjoinable, hexports.servers,
    hexports.made.trans (congrArg Except.ok (by decide)), by decide⟩

end Session

end Preopt
