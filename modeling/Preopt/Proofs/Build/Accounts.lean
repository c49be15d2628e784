import Mathlib.Algebra.BigOperators.Group.Finset.Basic
import Mathlib.Data.UInt
import Mathlib.Tactic.Abel
import Preopt.Proofs.Build.Prospect
import Preopt.Proofs.Once.Filled

/-! The accounts of a build. A filled slot is worth one computation and whatever else its derivation
counted, and the balance is what the counters show beyond the worth of all filled slots. A
derivation adds the look-ups it makes itself to the balance, and no others, so it makes no
difference which derivation ran inside which. A dependency is likewise due from the start. -/

namespace Preopt

abbrev Amounts := UInt64 × UInt64 × UInt64 × UInt64

namespace Amounts

def lookup : Amounts := (1, 0, 0, 0)
def computation : Amounts := (0, 1, 0, 0)
def config : Amounts := (0, 0, 1, 0)
def image : Amounts := (0, 0, 0, 1)

end Amounts

namespace Counters

def amounts (c : Counters) : Amounts := (c.lookups, c.computations, c.configs, c.images)

theorem amounts_injective : Function.Injective amounts := by
  intro c c' h
  obtain ⟨hlookups, hcomputations, hconfigs, himages⟩ :
      c.hits + c.computations = c'.hits + c'.computations ∧ c.computations = c'.computations ∧
        c.configs = c'.configs ∧ c.images = c'.images := by
    simpa [amounts, lookups] using h
  have hhits : c.hits = c'.hits := by
    rw [hcomputations] at hlookups
    exact add_right_cancel hlookups
  cases c
  cases c'
  simp_all

theorem amounts_addHit (c : Counters) : c.addHit.amounts = c.amounts + Amounts.lookup := by
  simp [amounts, lookups, addHit, Amounts.lookup, add_right_comm]

theorem amounts_addComputation (c : Counters) :
    c.addComputation.amounts = c.amounts + (Amounts.lookup + Amounts.computation) := by
  simp [amounts, lookups, addComputation, Amounts.lookup, Amounts.computation, add_assoc]

theorem amounts_addConfig (c : Counters) : c.addConfig.amounts = c.amounts + Amounts.config := by
  simp [amounts, lookups, addConfig, Amounts.config]

theorem amounts_addImage (c : Counters) : c.addImage.amounts = c.amounts + Amounts.image := by
  simp [amounts, lookups, addImage, Amounts.image]

end Counters

namespace Build

open Once

def made (s : Settings) (k : Key) : Amounts :=
  if k = Key.globalConfig then
    Amounts.config + if s.globalConfig.isNone then Amounts.lookup else 0
  else if k = Key.systemServerClasspath then Amounts.lookup
  else if k = Key.bootClasspath then Amounts.lookup + Amounts.lookup
  else if k.kind = .image then Amounts.lookup + Amounts.image
  else 0

def worth (s : Settings) (k : Key) : Amounts := made s k + Amounts.computation

def balance (s : Settings) (l : Ledger) : Amounts :=
  l.counters.amounts - ∑ k ∈ l.filled, worth s k

variable {s : Settings} {files : FileTree} {l l' : Ledger} {ks : List Key}

theorem balance_of_same {c : Amounts} (hs : ∀ k : Key, l'.value? k = l.value? k)
    (hc : l'.counters.amounts = l.counters.amounts + c) : balance s l' = balance s l + c := by
  rw [balance, balance, Ledger.filled_of_same hs, hc]
  abel

theorem balance_store {k : Key} (v : k.Value) (hn : l.value? k = none) :
    balance s (l.store k v) + worth s k = balance s l := by
  have hk : k ∉ l.filled := by simp [Ledger.mem_filled, hn]
  rw [balance, balance, Ledger.filled_store, Finset.sum_insert hk]
  change l.counters.amounts - _ + _ = _
  abel

/-- The dependencies a build has, with the config file that is still to be resolved. -/
def dues (s : Settings) (l : Ledger) : List Path :=
  match l.value? Key.globalConfig, s.globalConfig with
  | none, some path => (l.depend path).dependencies
  | _, _ => l.dependencies

theorem dues_of_resolved {r : Resolved} (h : l.value? Key.globalConfig = some r) :
    dues s l = l.dependencies := by
  rw [dues, h]

theorem dues_of_file {path : Path} (hn : l.value? Key.globalConfig = none)
    (hp : s.globalConfig = some path) : dues s l = (l.depend path).dependencies := by
  rw [dues, hn, hp]

theorem dues_of_unconfigured (hp : s.globalConfig = none) : dues s l = l.dependencies := by
  rw [dues, hp]
  split
  · contradiction
  · rfl

theorem dues_of_same (hg : l'.value? Key.globalConfig = l.value? Key.globalConfig)
    (hd : l'.dependencies = l.dependencies) : dues s l' = dues s l := by
  rw [dues, dues, hg]
  split
  · exact depend_dependencies l' l hd _
  · exact hd

theorem dues_of_listed {path : Path} (hn : l.value? Key.globalConfig = none)
    (hn' : l'.value? Key.globalConfig = none) (hp : s.globalConfig = some path)
    (hd : l'.dependencies = (l.depend path).dependencies) : dues s l' = dues s l := by
  rw [dues_of_file hn hp, dues_of_file hn' hp, depend_dependencies l' (l.depend path) hd,
    Ledger.depend_depend]

structure Spends (s : Settings) (ks : List Key) (c : Amounts) (l l' : Ledger) : Prop where
  frame {k : Key} : k ∉ ks → l'.value? k = l.value? k
  balance : balance s l' = balance s l + c
  dues : dues s l' = dues s l

namespace Spends

variable {c d : Amounts}

theorem trans {l₁ l₂ l₃ : Ledger} (h : Spends s ks c l₁ l₂) (h' : Spends s ks d l₂ l₃) :
    Spends s ks (c + d) l₁ l₃ where
  frame hk := (h'.frame hk).trans (h.frame hk)
  balance := by rw [h'.balance, h.balance, add_assoc]
  dues := h'.dues.trans h.dues

theorem mono {ks' : List Key} (h : Spends s ks c l l') (hks : ks ⊆ ks') :
    Spends s ks' c l l' :=
  { h with frame := fun hk => h.frame fun hk' => hk (hks hk') }

theorem of_same (hs : ∀ k : Key, l'.value? k = l.value? k)
    (hc : l'.counters.amounts = l.counters.amounts + c)
    (hd : l'.dependencies = l.dependencies) : Spends s ks c l l' :=
  ⟨fun _ => hs _, balance_of_same hs hc, dues_of_same (hs _) hd⟩

theorem refl (l : Ledger) : Spends s ks 0 l l :=
  .of_same (fun _ => rfl) (add_zero _).symm rfl

theorem count {add : Counters → Counters} (h : ∀ x, (add x).amounts = x.amounts + c) :
    Spends s ks c l (l.count add) :=
  .of_same (fun _ => rfl) (h _) rfl

theorem report (e : Event) : Spends s ks 0 l (l.report e) :=
  .of_same (fun _ => rfl) (add_zero _).symm rfl

theorem hit (k : Key) : Spends s ks Amounts.lookup l (l.hit k) :=
  .of_same (Ledger.value?_hit l k) (Counters.amounts_addHit _) rfl

theorem attempt (k : Key) :
    Spends s ks (Amounts.lookup + Amounts.computation) l (l.attempt k) :=
  .of_same (Ledger.value?_attempt l k) (Counters.amounts_addComputation _) rfl

theorem depend {path : Path} (hn : l.value? Key.globalConfig = none)
    (hp : s.globalConfig = some path) : Spends s ks 0 l (l.depend path) where
  frame _ := Ledger.value?_depend _ _ _
  balance := by
    refine balance_of_same (Ledger.value?_depend l path) ?_
    rw [Ledger.depend]
    split <;> exact (add_zero _).symm
  dues := dues_of_listed hn ((Ledger.value?_depend _ _ _).trans hn) hp rfl

theorem store {k : Key} (v : k.Value) (hk : k ∉ ks) (hg : k ≠ Key.globalConfig)
    (hn : l.value? k = none) (h : Spends s ks (made s k) (l.attempt k) l') :
    Spends s (k :: ks) Amounts.lookup l (l'.store k v) := by
  have hn' : l'.value? k = none := by rw [h.frame hk, Ledger.value?_attempt, hn]
  have hspent := (attempt k (l := l)).trans h
  constructor
  case frame =>
    intro k' hk'
    obtain ⟨hne, hks⟩ : k' ≠ k ∧ k' ∉ ks := by simpa using hk'
    rw [Ledger.value?_store_of_ne _ _ hne, hspent.frame hks]
  case balance =>
    -- the slot is paid for with what was spent on its value, and the look-up is left
    have hstore := balance_store (s := s) v hn'
    rw [hspent.balance, worth] at hstore
    rw [eq_sub_of_add_eq hstore]
    abel
  case dues =>
    have hsame : Build.dues s (l'.store k v) = Build.dues s l' :=
      dues_of_same (Ledger.value?_store_of_ne _ _ hg.symm) rfl
    rw [hsame, hspent.dues]

theorem settle (r : Resolved) (hk : Key.globalConfig ∉ ks)
    (hn : l.value? Key.globalConfig = none) (h : Spends s ks c l l')
    (hc : c + Amounts.config = Amounts.lookup + worth s Key.globalConfig)
    (hd : l'.dependencies = Build.dues s l) :
    Spends s (Key.globalConfig :: ks) Amounts.lookup l (settle r l') := by
  have hn' : l'.value? Key.globalConfig = none := (h.frame hk).trans hn
  constructor
  case frame =>
    intro k hk'
    obtain ⟨hne, hks⟩ : k ≠ Key.globalConfig ∧ k ∉ ks := by simpa using hk'
    rw [value?_settle_of_ne _ _ hne, h.frame hks]
  case balance =>
    have hcount : Spends s ks (c + Amounts.config + 0) l _ :=
      (h.trans (.count Counters.amounts_addConfig)).trans (.report (.configResolved r.source
        r.config.bootJars.length r.config.artApexJars.length r.config.disablePreopt))
    have hstore := balance_store (s := s) (k := Key.globalConfig) r ((hcount.frame hk).trans hn)
    rw [hcount.balance, hc] at hstore
    rw [Build.settle, eq_sub_of_add_eq hstore]
    abel
  case dues => exact (dues_of_resolved (value?_settle_self r l')).trans hd

end Spends

def Costs {α : Type} (s : Settings) (ks : List Key) (c : Amounts) (m : Work Error α)
    (l : Ledger) : Prop :=
  ∀ a l', Work.on m l = (.ok a, l') → Spends s ks c l l'

namespace Costs

variable {α β : Type} {c d : Amounts} {m : Work Error α}

theorem of_on {a : α} (h : Work.on m l = (.ok a, l')) (hs : Spends s ks c l l') :
    Costs s ks c m l := by
  intro b l₁ hb
  rw [h] at hb
  cases hb
  exact hs

theorem mono {ks' : List Key} (h : Costs s ks c m l) (hks : ks ⊆ ks') : Costs s ks' c m l :=
  fun a l' ha => (h a l' ha).mono hks

theorem bind {f : α → Work Error β} (hm : Costs s ks c m l) (hf : ∀ a l', Costs s ks d (f a) l') :
    Costs s ks (c + d) (m >>= f) l := by
  intro b l' hb
  obtain ⟨a, l₁, ha, hb⟩ := Work.of_on_bind_ok hb
  exact (hm a l₁ ha).trans (hf a l₁ b l' hb)

theorem once {k : Key} {make : Work Error k.Value} (hk : k ∉ ks) (hg : k ≠ Key.globalConfig)
    (hm : Costs s ks (made s k) make (l.attempt k)) :
    Costs s (k :: ks) Amounts.lookup (Work.once k make) l := by
  intro v l' h
  rcases Work.of_once_ok h with ⟨-, rfl⟩ | ⟨hn, l₁, hv, rfl⟩
  · exact .hit k
  · exact .store v hk hg hn (hm v l₁ hv)

end Costs

def configSlots (s : Settings) : List Key :=
  match s.globalConfig with
  | some _ => [Key.globalConfig]
  | none => configKeys

theorem configSlots_subset : configSlots s ⊆ configKeys := by
  rw [configSlots]
  split
  · exact List.cons_subset_cons _ (List.nil_subset _)
  · exact List.Subset.refl _

theorem made_globalConfig_of_file {path : Path} (hp : s.globalConfig = some path) :
    made s Key.globalConfig = Amounts.config := by
  simp [made, hp]

theorem made_globalConfig_of_injection (hp : s.globalConfig = none) :
    made s Key.globalConfig = Amounts.config + Amounts.lookup := by
  simp [made, hp]

theorem Resolution.spends {r : Resolved} (h : Resolution s files l (.ok r) l') :
    Spends s (configSlots s) Amounts.lookup l l' := by
  have ha {k : Key} (hn : l.value? k = none) : (l.attempt Key.globalConfig).value? k = none :=
    (Ledger.value?_attempt _ _ _).trans hn
  cases h with
  | stored hr => exact .hit _
  | @read path _ hn hp hr =>
    have hread : Spends s [] _ l _ := ((Spends.attempt Key.globalConfig).trans
      (.depend (ha hn) hp)).trans (.report (.configLoaded path))
    rw [configSlots, hp]
    refine .settle r (by simp) hn hread ?_ ?_
    · rw [worth, made_globalConfig_of_file hp]
      abel
    · rw [dues_of_file hn hp]
      exact depend_dependencies (l.attempt Key.globalConfig) l rfl path
  | injected hn hp hi =>
    have htaken : Spends s [Key.injectedConfig] _ l _ :=
      (Spends.attempt Key.globalConfig).trans (.hit Key.injectedConfig)
    rw [configSlots, hp]
    refine .settle r (by decide) hn htaken ?_ (dues_of_unconfigured (l := l) hp).symm
    rw [worth, made_globalConfig_of_injection hp]
    abel
  | fellBack hn hp hi =>
    have hfallback : Spends s [Key.injectedConfig] Amounts.lookup _ _ :=
      .store (k := Key.injectedConfig) fallback (by simp) injectedConfig_ne_globalConfig (ha hi)
        (.report .noConfig)
    have hfell := (Spends.attempt Key.globalConfig (l := l)).trans hfallback
    rw [configSlots, hp]
    refine .settle fallback (by decide) hn hfell ?_ (dues_of_unconfigured (l := l) hp).symm
    rw [worth, made_globalConfig_of_injection hp]
    abel

theorem globalConfig_costs (l : Ledger) :
    Costs s (configSlots s) Amounts.lookup (globalConfig s files) l := by
  intro r l' h
  obtain ⟨result, l₁, hon, hr⟩ := globalConfig_on s files l
  rw [h] at hon
  obtain ⟨rfl, rfl⟩ := Prod.mk.inj hon
  exact hr.spends

theorem notMem_configSlots {k : Key} (hk : k ∉ configKeys) : k ∉ configSlots s :=
  fun h => hk (configSlots_subset h)

theorem imageWith_costs (name : String) (p : Profile) (l : Ledger) :
    Costs s (⟨.image, name⟩ :: configSlots s) Amounts.lookup (imageWith s files name p) l := by
  let k : Key := ⟨.image, name⟩
  have hmade : made s k = Amounts.lookup + Amounts.image := by
    simp [made, k, Key.globalConfig, Key.systemServerClasspath, Key.bootClasspath]
  refine .once (k := k) (notMem_configSlots ?_) (by simp [k, Key.globalConfig]) ?_
  · simp [k, configKeys, Key.globalConfig, Key.injectedConfig]
  · rw [hmade]
    refine .bind (globalConfig_costs _) fun r l' => .of_on rfl ?_
    have hcounted : Spends s (configSlots s) Amounts.image l' (l'.count .addImage) :=
      .count Counters.amounts_addImage
    rw [← add_zero Amounts.image]
    exact hcounted.trans (.report _)

theorem systemServerClasspath_costs (l : Ledger) :
    Costs s (Key.systemServerClasspath :: configSlots s) Amounts.lookup
      (systemServerClasspath s files) l := by
  refine .once (k := Key.systemServerClasspath) (notMem_configSlots (by decide)) (by decide) ?_
  have hmade : made s Key.systemServerClasspath = Amounts.lookup + 0 := rfl
  rw [hmade]
  refine .bind (globalConfig_costs _) fun r l' v l₁ hv => ?_
  cases hserver : Classpath.systemServer r.config with
  | error e =>
    rw [hserver] at hv
    cases hv
  | ok w =>
    rw [hserver] at hv
    cases hv
    exact .refl l'

def bootSlots (s : Settings) : List Key := Key.image .default :: configSlots s

theorem bootClasspath_costs (l : Ledger) :
    Costs s (Key.bootClasspath :: bootSlots s) Amounts.lookup (bootClasspath s files) l := by
  have hk : Key.bootClasspath ∉ bootSlots s := by
    have hconfig : Key.bootClasspath ∉ configSlots s := notMem_configSlots (by decide)
    simp [bootSlots, hconfig]
    decide
  refine .once (k := Key.bootClasspath) hk (by decide) ?_
  have hmade : made s Key.bootClasspath = Amounts.lookup + (Amounts.lookup + 0) := rfl
  rw [hmade]
  refine .bind ((globalConfig_costs _).mono (List.subset_cons_self _ _)) fun r l' => ?_
  have himage : Costs s (bootSlots s) Amounts.lookup (image s files .default) l' :=
    imageWith_costs _ _ l'
  exact .bind himage fun i l₁ => .of_on rfl (.refl l₁)

def makeVarsSlots (s : Settings) : List Key :=
  Key.systemServerClasspath :: Key.bootClasspath :: bootSlots s

theorem makeVars_costs (l : Ledger) :
    Costs s (makeVarsSlots s) (3 • Amounts.lookup) (makeVars s files) l := by
  have hboot : Costs s (makeVarsSlots s) _ (bootClasspath s files) l :=
    (bootClasspath_costs l).mono (by simp [makeVarsSlots])
  have himage (l' : Ledger) : Costs s (makeVarsSlots s) _ (image s files .default) l' :=
    (imageWith_costs _ _ l').mono
      (List.subset_cons_of_subset _ (List.subset_cons_of_subset _ (List.Subset.refl _)))
  have hserver (l' : Ledger) : Costs s (makeVarsSlots s) _ (systemServerClasspath s files) l' :=
    (systemServerClasspath_costs l').mono (List.cons_subset_cons _
      (List.subset_cons_of_subset _ (List.subset_cons_of_subset _ (List.Subset.refl _))))
  have hsum : 3 • Amounts.lookup =
      Amounts.lookup + (Amounts.lookup + (Amounts.lookup + 0)) := by abel
  rw [hsum]
  exact .bind hboot fun boot l₁ => .bind (himage l₁) fun i l₂ => .bind (hserver l₂) fun v l₃ =>
    .of_on rfl (.refl l₃)

theorem exportMakeVars_costs {ρ : Type} (strict : ρ → String → String → ρ) (receiver : ρ)
    (l : Ledger) :
    Costs s (makeVarsSlots s) (3 • Amounts.lookup) (exportMakeVars s files strict receiver) l := by
  rw [← add_zero (3 • Amounts.lookup)]
  exact .bind (makeVars_costs l) fun vars l' => .of_on rfl (.refl l')

theorem InVain.spends {e : Error} {attempts : UInt64} (h : InVain s files e attempts l l') :
    Spends s ks (attempts, attempts, 0, 0) l l' := by
  obtain ⟨hn, path, hp, -, hf⟩ := h
  refine ⟨fun _ => hf.value? _, balance_of_same hf.value? ?_,
    dues_of_listed hn ((hf.value? _).trans hn) hp hf.dependencies⟩
  rw [hf.counters]
  simp [Counters.amounts, Counters.lookups, add_assoc]

end Build
end Preopt
