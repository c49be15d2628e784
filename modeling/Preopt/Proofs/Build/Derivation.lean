import Preopt.Proofs.Build.Growth

/-! What derivations store and return. Each one fills slots in the proper way, from the derivations
that it asks for itself, and returns what its own slot then holds. -/

namespace Preopt.Build

open Once

variable {s : Settings} {files : FileTree} {given : Supply} {ks : List Key}

theorem Grows.ensures_mono {α : Type} {Q : α → Ledger → Prop} {m : Work Error α} {ks' : List Key}
    {l : Ledger} (hks : ks ⊆ ks') (h : Work.Ensures (Grows s files given ks) Q m l) :
    Work.Ensures (Grows s files given ks') Q m l :=
  ⟨h.1.mono hks, h.2⟩

theorem globalConfig_ensures (l : Ledger) :
    Work.Ensures (Grows s files given configKeys)
      (fun r l' => l'.value? Key.globalConfig = some r)
      (globalConfig s files) l := by
  obtain ⟨result, l', hon, hr⟩ := globalConfig_on s files l
  refine .of_on hon hr.grows ?_
  rintro r rfl
  cases hr with
  | stored hr => exact (Ledger.value?_hit _ _ _).trans hr
  | read => exact value?_settle_self _ _
  | injected => exact value?_settle_self _ _
  | fellBack => exact value?_fallBack_globalConfig _

theorem inject_ensures {config : GlobalConfig} (hc : given.config config) (l : Ledger) :
    Work.Ensures (Grows s files given [Key.injectedConfig])
      (fun _ l' => l'.value? Key.injectedConfig = some (⟨config, none, .injected⟩ : Resolved))
      (inject config) l := by
  obtain ⟨result, l', hon, hr⟩ := inject_on config l
  refine .of_on hon (hr.grows hc) ?_
  rintro u rfl
  cases hr
  exact Ledger.value?_store_self _ _ _

theorem loadConfig_ensures (path : Path) (l : Ledger) :
    Work.Ensures (Grows s files given ks) (fun pair _ => contents files path = .ok pair)
      (loadConfig files path) l := by
  refine .of_on (loadConfig_on files path l) ?_ fun pair h => h
  split
  · exact .report (by simp)
  · exact .of_same (fun _ => rfl) rfl

/-- A look-up whose work stores into other slots, and derives the value from what they then hold. -/
theorem once_ensures {k : Key} {make : Work Error k.Value} {S : k.Value → Ledger → Prop}
    (hk : k ∉ ks) (hi : k ≠ Key.injectedConfig) (l : Ledger)
    (hm : Work.Ensures (Grows s files given ks) S make (l.attempt k))
    (hS : ∀ v l', S v l' → Derived s files given (l'.store k v) k v) :
    Work.Ensures (Grows s files given (k :: ks)) (fun v l' => l'.value? k = some v)
      (Work.once k make) l := by
  have hks : ks ⊆ k :: ks := List.subset_cons_self k ks
  refine .once (.hit k) hm (fun l' h => .trans (.attempt k) (h.mono hks)) ?_
  intro v l' hn hg hv
  refine .trans (.trans (.attempt k) (hg.mono hks)) (.store List.mem_cons_self ?_ hi (hS v l' hv))
  rw [hg.frame hk, Ledger.value?_attempt, hn]

theorem imageWith_ensures {name : String} {p : Profile} (hp : given.profile name p) (l : Ledger) :
    Work.Ensures (Grows s files given (⟨.image, name⟩ :: configKeys))
      (fun i l' => l'.value? ⟨.image, name⟩ = some i) (imageWith s files name p) l := by
  let k : Key := ⟨.image, name⟩
  have hg : Key.globalConfig ≠ k := by simp [k, Key.globalConfig]
  refine once_ensures (k := k) (S := fun i l' => ∃ r : Resolved,
    l'.value? Key.globalConfig = some r ∧ i = Image.derive s r.config p)
    (by simp [k, configKeys, Key.globalConfig, Key.injectedConfig])
    (by simp [k, Key.injectedConfig]) l ?_ ?_
  · refine .bind Grows.trans (globalConfig_ensures _) fun r l' _ hr => ?_
    refine .of_on rfl (.trans (.count .addImage) (.report (by simp))) ?_
    rintro i ⟨⟩
    exact ⟨r, hr, rfl⟩
  · rintro i l' ⟨r, hr, rfl⟩
    exact ⟨p, r, hp, (Ledger.value?_store_of_ne _ _ hg).trans hr, rfl⟩

theorem systemServerClasspath_ensures (l : Ledger) :
    Work.Ensures (Grows s files given (Key.systemServerClasspath :: configKeys))
      (fun v l' => l'.value? Key.systemServerClasspath = some v)
      (systemServerClasspath s files) l := by
  refine once_ensures (k := Key.systemServerClasspath) (S := fun v l' => ∃ r : Resolved,
    l'.value? Key.globalConfig = some r ∧ Classpath.systemServer r.config = .ok v)
    (by decide) (by decide) l ?_ ?_
  · refine .bind Grows.trans (globalConfig_ensures _) fun r l' _ hr => ?_
    cases hv : Classpath.systemServer r.config with
    | error e => exact .of_on rfl (.of_same (fun _ => rfl) rfl) (fun v h => by cases h)
    | ok v =>
      refine .of_on rfl (.of_same (fun _ => rfl) rfl) ?_
      rintro w ⟨⟩
      exact ⟨r, hr, hv⟩
  · rintro v l' ⟨r, hr, hv⟩
    refine ⟨fun _ => ⟨r, ?_, hv⟩, fun hname => absurd hname (by decide)⟩
    exact (Ledger.value?_store_of_ne _ _ (by decide)).trans hr

def bootSources : List Key := Key.image .default :: configKeys

theorem bootClasspath_ensures
    (hp : given.profile (Key.image .default).name Variant.default.profile) (l : Ledger) :
    Work.Ensures (Grows s files given (Key.bootClasspath :: bootSources))
      (fun v l' => l'.value? Key.bootClasspath = some v) (bootClasspath s files) l := by
  have hks : configKeys ⊆ bootSources := List.subset_cons_self _ _
  refine once_ensures (k := Key.bootClasspath) (S := fun v l' => ∃ (r : Resolved) (i : Image),
    l'.value? Key.globalConfig = some r ∧ l'.value? (Key.image .default) = some i ∧
      v = Classpath.boot r.config i) (by decide) (by decide) l ?_ ?_
  · refine .bind Grows.trans (Grows.ensures_mono hks (globalConfig_ensures _)) fun r l₁ _ hr => ?_
    refine .bind Grows.trans (Q := fun i l' => l'.value? Key.globalConfig = some r ∧
      l'.value? (Key.image .default) = some i) ?_ fun i l₂ _ hi => ?_
    · have h : Work.Ensures (Grows s files given bootSources)
          (fun i l' => l'.value? (Key.image .default) = some i) (image s files .default) l₁ :=
        imageWith_ensures hp l₁
      exact ⟨h.1, fun i hok => ⟨h.1.keeps hr, h.2 i hok⟩⟩
    · refine .of_on rfl (.of_same (fun _ => rfl) rfl) ?_
      rintro v ⟨⟩
      exact ⟨r, i, hi.1, hi.2, rfl⟩
  · rintro v l' ⟨r, i, hr, hi, hv⟩
    refine ⟨fun hname => absurd hname (by decide), fun _ => ⟨r, i, ?_, ?_, hv⟩⟩
    · exact (Ledger.value?_store_of_ne _ _ (by decide)).trans hr
    · exact (Ledger.value?_store_of_ne _ _ (by decide)).trans hi

def makeVarsSources : List Key :=
  Key.systemServerClasspath :: Key.bootClasspath :: bootSources

def ShowsVars (l : Ledger) (vars : List (String × String)) : Prop :=
  ∃ boot image systemServer, l.value? Key.bootClasspath = some boot ∧
    l.value? (Key.image .default) = some image ∧
    l.value? Key.systemServerClasspath = some systemServer ∧
    vars = MakeVars.all boot image systemServer

theorem makeVars_ensures
    (hp : given.profile (Key.image .default).name Variant.default.profile) (l : Ledger) :
    Work.Ensures (Grows s files given makeVarsSources) (fun vars l' => ShowsVars l' vars)
      (makeVars s files) l := by
  have hboot : Work.Ensures (Grows s files given makeVarsSources) _ (bootClasspath s files) l :=
    Grows.ensures_mono (by decide) (bootClasspath_ensures hp l)
  refine .bind Grows.trans hboot fun boot l₁ _ hb => ?_
  have himage : Work.Ensures (Grows s files given makeVarsSources)
      (fun i l' => l'.value? (Key.image .default) = some i) (image s files .default) l₁ :=
    Grows.ensures_mono (by decide) (imageWith_ensures hp l₁)
  refine .bind Grows.trans himage fun i l₂ g₂ hi => ?_
  have hserver : Work.Ensures (Grows s files given makeVarsSources) _
      (systemServerClasspath s files) l₂ :=
    Grows.ensures_mono (by decide) (systemServerClasspath_ensures l₂)
  refine .bind Grows.trans hserver fun systemServer l₃ g₃ hv => ?_
  refine .of_on rfl (.of_same (fun _ => rfl) rfl) ?_
  rintro vars ⟨⟩
  exact ⟨boot, i, systemServer, g₃.keeps (g₂.keeps hb), g₃.keeps hi, hv, rfl⟩

theorem exportMakeVars_ensures {ρ : Type} (strict : ρ → String → String → ρ) (receiver : ρ)
    (hp : given.profile (Key.image .default).name Variant.default.profile) (l : Ledger) :
    Work.Ensures (Grows s files given makeVarsSources)
      (fun sent l' => ∃ vars, ShowsVars l' vars ∧ sent = MakeVars.send strict receiver vars)
      (exportMakeVars s files strict receiver) l := by
  refine .bind Grows.trans (makeVars_ensures hp l) fun vars l' _ hv => ?_
  refine .of_on rfl (.of_same (fun _ => rfl) rfl) ?_
  rintro sent ⟨⟩
  exact ⟨vars, hv, rfl⟩

end Preopt.Build
