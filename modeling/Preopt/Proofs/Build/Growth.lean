import Preopt.Proofs.Build.Resolution

/-! How slots fill. Filled slots stay as they are, and a value that is new is derived from the one
config in the global config's slot, which comes from the file, the injection or the fallback. This
adds up over the steps of a request, and holds of every resolution and injection. -/

namespace Preopt.Build

open Once

structure Supply where
  profile : String → Profile → Prop := fun _ _ => False
  config : GlobalConfig → Prop := fun _ => False

variable (s : Settings) (files : FileTree) (given : Supply)

/-- A value under a key follows from what else a ledger holds, the files, and what was supplied. -/
def Derived (l : Ledger) : (k : Key) → k.Value → Prop
  | ⟨.config, name⟩, r =>
    (name = Key.globalConfig.name →
      (∀ path, s.globalConfig = some path → readConfig files path = .ok r) ∧
      (s.globalConfig = none → l.value? Key.injectedConfig = some r)) ∧
    (name = Key.injectedConfig.name →
      (s.globalConfig = none ∧ r = fallback ∧ (l.value? Key.globalConfig).isSome) ∨
      ∃ config, given.config config ∧ config.validate = .ok () ∧ r = ⟨config, none, .injected⟩)
  | ⟨.list, name⟩, v =>
    (name = Key.systemServerClasspath.name → ∃ r : Resolved,
      l.value? Key.globalConfig = some r ∧ Classpath.systemServer r.config = .ok v) ∧
    (name = Key.bootClasspath.name → ∃ (r : Resolved) (i : Image),
      l.value? Key.globalConfig = some r ∧ l.value? (Key.image .default) = some i ∧
        v = Classpath.boot r.config i)
  | ⟨.image, name⟩, i => ∃ (p : Profile) (r : Resolved),
    given.profile name p ∧ l.value? Key.globalConfig = some r ∧ i = Image.derive s r.config p
  | ⟨.text, _⟩, _ | ⟨.number, _⟩, _ => True

/-- The warning stands once for a fallback in place of an injected config, and not otherwise. -/
def Warned (l : Ledger) : Prop :=
  l.events.count .noConfig =
    if (l.value? Key.injectedConfig).any (fun r : Resolved => r.source = .fallback) then 1 else 0

structure Grows (ks : List Key) (l l' : Ledger) : Prop where
  frame {k : Key} : k ∉ ks → l'.value? k = l.value? k
  keeps {k : Key} {v : k.Value} : l.value? k = some v → l'.value? k = some v
  gained {k : Key} {v : k.Value} :
    l.value? k = none → l'.value? k = some v → Derived s files given l' k v
  warned : Warned l → Warned l'

variable {s files given} {ks : List Key} {l l' : Ledger}

theorem Derived.mono (keeps : ∀ {k : Key} {v : k.Value}, l.value? k = some v → l'.value? k = some v)
    {k : Key} {v : k.Value} (h : Derived s files given l k v) : Derived s files given l' k v := by
  obtain ⟨kind, name⟩ := k
  cases kind with
  | text => exact h
  | number => exact h
  | list =>
    refine ⟨fun hn => ?_, fun hn => ?_⟩
    · obtain ⟨r, hr, hv⟩ := h.1 hn
      exact ⟨r, keeps hr, hv⟩
    · obtain ⟨r, i, hr, hi, hv⟩ := h.2 hn
      exact ⟨r, i, keeps hr, keeps hi, hv⟩
  | config =>
    refine ⟨fun hn => ?_, fun hn => ?_⟩
    · obtain ⟨hfile, hinjected⟩ := h.1 hn
      exact ⟨hfile, fun hp => keeps (hinjected hp)⟩
    · rcases h.2 hn with ⟨hp, hr, hg⟩ | hgiven
      · obtain ⟨g, hg⟩ := Option.isSome_iff_exists.mp hg
        exact Or.inl ⟨hp, hr, Option.isSome_iff_exists.mpr ⟨g, keeps hg⟩⟩
      · exact Or.inr hgiven
  | image =>
    obtain ⟨p, r, hp, hr, hi⟩ := h
    exact ⟨p, r, hp, keeps hr, hi⟩

theorem Grows.kept_or_gained (h : Grows s files given ks l l') {k : Key} {v : k.Value}
    (hv : l'.value? k = some v) : l.value? k = some v ∨ Derived s files given l' k v := by
  cases hl : l.value? k with
  | none => exact Or.inr (h.gained hl hv)
  | some w =>
    obtain rfl : w = v := Option.some.inj ((h.keeps hl).symm.trans hv)
    exact Or.inl rfl

theorem Grows.trans {l₁ l₂ l₃ : Ledger} (h : Grows s files given ks l₁ l₂)
    (h' : Grows s files given ks l₂ l₃) : Grows s files given ks l₁ l₃ where
  frame hk := (h'.frame hk).trans (h.frame hk)
  keeps hv := h'.keeps (h.keeps hv)
  gained hn hv := by
    rcases h'.kept_or_gained hv with hm | hd
    · exact (h.gained hn hm).mono h'.keeps
    · exact hd
  warned hw := h'.warned (h.warned hw)

theorem warned_iff {stored : Option Resolved} (h : l.value? Key.injectedConfig = stored) :
    Warned l ↔ l.events.count .noConfig =
      if stored.any (fun r => r.source = .fallback) then 1 else 0 := by
  rw [Warned, h]

theorem warned_of_same (hs : l'.value? Key.injectedConfig = l.value? Key.injectedConfig)
    (he : l'.events.count .noConfig = l.events.count .noConfig) (h : Warned l) : Warned l' := by
  rw [Warned, he, hs]
  exact h

theorem Grows.of_same (hs : ∀ k : Key, l'.value? k = l.value? k)
    (he : l'.events.count .noConfig = l.events.count .noConfig) : Grows s files given ks l l' where
  frame _ := hs _
  keeps hv := (hs _).trans hv
  gained hn hv := by
    rw [hs, hn] at hv
    cases hv
  warned := warned_of_same (hs _) he

theorem count_report {e : Event} (h : e ≠ .noConfig) (l : Ledger) :
    (l.report e).events.count .noConfig = l.events.count .noConfig := by
  simp [Ledger.report, List.count_append, h]

theorem Grows.count (add : Counters → Counters) : Grows s files given ks l (l.count add) :=
  .of_same (fun _ => rfl) rfl

theorem Grows.report {e : Event} (h : e ≠ .noConfig) : Grows s files given ks l (l.report e) :=
  .of_same (fun _ => rfl) (count_report h l)

theorem Grows.depend (p : Path) : Grows s files given ks l (l.depend p) := by
  refine .of_same (Ledger.value?_depend l p) ?_
  rw [Ledger.depend]
  split <;> rfl

theorem Grows.hit (k : Key) : Grows s files given ks l (l.hit k) :=
  .of_same (Ledger.value?_hit l k) rfl

theorem Grows.attempt (k : Key) : Grows s files given ks l (l.attempt k) :=
  .of_same (Ledger.value?_attempt l k) (count_report (by simp) _)

theorem Grows.mono {ks' : List Key} (h : Grows s files given ks l l') (hks : ks ⊆ ks') :
    Grows s files given ks' l l' :=
  { h with frame := fun hk => h.frame fun hk' => hk (hks hk') }

theorem Grows.store_of_warned {k : Key} {v : k.Value} (hk : k ∈ ks) (hn : l.value? k = none)
    (hd : Derived s files given (l.store k v) k v) (hw : Warned l → Warned (l.store k v)) :
    Grows s files given ks l (l.store k v) where
  frame hk' := Ledger.value?_store_of_ne _ _ fun h => hk' (h ▸ hk)
  keeps {k' w} hw := by
    rw [Ledger.value?_store_of_ne _ _ (Ledger.ne_of_filled hw hn), hw]
  gained {k' w} hn' hw := by
    by_cases hne : k' = k
    · subst hne
      rw [Ledger.value?_store_self] at hw
      cases hw
      exact hd
    · rw [Ledger.value?_store_of_ne _ _ hne, hn'] at hw
      cases hw
  warned := hw

theorem Grows.store {k : Key} {v : k.Value} (hk : k ∈ ks) (hn : l.value? k = none)
    (hi : k ≠ Key.injectedConfig) (hd : Derived s files given (l.store k v) k v) :
    Grows s files given ks l (l.store k v) :=
  .store_of_warned hk hn hd (warned_of_same (Ledger.value?_store_of_ne _ _ hi.symm) rfl)

def configKeys : List Key := [Key.globalConfig, Key.injectedConfig]

theorem Grows.settle {r : Resolved} (hn : l.value? Key.globalConfig = none)
    (hfile : ∀ path, s.globalConfig = some path → readConfig files path = .ok r)
    (hinjected : s.globalConfig = none → l.value? Key.injectedConfig = some r) :
    Grows s files given configKeys l (settle r l) := by
  refine .trans (.trans (.count .addConfig) (.report (by simp)))
    (.store List.mem_cons_self hn injectedConfig_ne_globalConfig.symm ?_)
  refine ⟨fun _ => ⟨hfile, fun hp => ?_⟩, fun hname => absurd hname (by decide)⟩
  exact (Ledger.value?_store_of_ne _ _ injectedConfig_ne_globalConfig).trans (hinjected hp)

/-- The fallback fills two slots, and neither would be in order without the other. -/
theorem derived_fallBack (hp : s.globalConfig = none) {k : Key} {v : k.Value}
    (hn : l.value? k = none) (hv : (fallBack l).value? k = some v) :
    Derived s files given (fallBack l) k v := by
  have hg := value?_fallBack_globalConfig l
  have hi := value?_fallBack_injectedConfig l
  by_cases h : k = Key.globalConfig
  · subst h
    obtain rfl : fallback = v := Option.some.inj (hg.symm.trans hv)
    refine ⟨fun _ => ⟨fun path hpath => ?_, fun _ => hi⟩, fun hname => absurd hname (by decide)⟩
    rw [hp] at hpath
    cases hpath
  · by_cases h' : k = Key.injectedConfig
    · subst h'
      obtain rfl : fallback = v := Option.some.inj (hi.symm.trans hv)
      exact ⟨fun hname => absurd hname (by decide), fun _ => Or.inl ⟨hp, rfl, by rw [hg]; rfl⟩⟩
    · rw [value?_fallBack_of_ne l h h', hn] at hv
      cases hv

theorem warned_fallBack (hi : l.value? Key.injectedConfig = none) (hw : Warned l) :
    Warned (fallBack l) := by
  have hcount : (fallBack l).events.count .noConfig = l.events.count .noConfig + 1 := by
    simp [fallBack, settle, Ledger.store, Ledger.report, Ledger.count, List.count_append]
  rw [warned_iff (value?_fallBack_injectedConfig l), hcount, (warned_iff hi).mp hw]
  rfl

theorem Grows.fallBack (hn : l.value? Key.globalConfig = none)
    (hi : l.value? Key.injectedConfig = none) (hp : s.globalConfig = none) :
    Grows s files given configKeys l (fallBack l) where
  frame {k} hk := by
    obtain ⟨h, h'⟩ : k ≠ Key.globalConfig ∧ k ≠ Key.injectedConfig := by
      simpa [configKeys] using hk
    exact value?_fallBack_of_ne l h h'
  keeps hv :=
    (value?_fallBack_of_ne l (Ledger.ne_of_filled hv hn) (Ledger.ne_of_filled hv hi)).trans hv
  gained := derived_fallBack hp
  warned := warned_fallBack hi

theorem Resolution.grows {result : Except Error Resolved}
    (h : Resolution s files l result l') : Grows s files given configKeys l l' := by
  cases h with
  | stored hr => exact .hit _
  | unread hn hp he hl =>
    have hd (path : Path) :
        Grows s files given configKeys l ((l.attempt Key.globalConfig).depend path) :=
      .trans (.attempt _) (.depend path)
    rcases hl with rfl | rfl
    · exact hd _
    · exact (hd _).trans (.report (by simp))
  | @read path r hn hp hr =>
    refine .trans (.trans (.trans (.attempt _) (.depend _)) (.report (by simp))) (.settle ?_ ?_ ?_)
    · simpa using hn
    · intro path' hp'
      obtain rfl : path = path' := Option.some.inj (hp.symm.trans hp')
      exact hr
    · intro hp'
      rw [hp] at hp'
      cases hp'
  | injected hn hp hi =>
    refine .trans (.trans (.attempt _) (.hit _)) (.settle ?_ ?_ ?_)
    · simpa using hn
    · intro path hp'
      rw [hp] at hp'
      cases hp'
    · intro _
      simpa using hi
  | fellBack hn hp hi =>
    refine .trans (.trans (.attempt _) (.attempt _)) (.fallBack ?_ ?_ hp)
    · simpa using hn
    · simpa using hi

theorem Injection.grows {config : GlobalConfig} {result : Except Error Unit}
    (hc : given.config config) (h : Injection config l result l') :
    Grows s files given [Key.injectedConfig] l l' := by
  cases h with
  | refused e => exact .of_same (fun _ => rfl) rfl
  | stored hg hi hvalid =>
    have hn : (l.touch Key.injectedConfig).value? Key.injectedConfig = none :=
      (Ledger.value?_touch _ _ _).trans hi
    refine .trans (.of_same (Ledger.value?_touch l _) rfl)
      (.store_of_warned List.mem_cons_self hn ?_ fun hw => ?_)
    · exact ⟨fun hname => absurd hname (by decide), fun _ => Or.inr ⟨config, hc, hvalid, rfl⟩⟩
    · -- An injected config is no fallback, so that the warning is still not due.
      exact (warned_iff (Ledger.value?_store_self _ _ _)).mpr ((warned_iff hn).mp hw)

end Preopt.Build
