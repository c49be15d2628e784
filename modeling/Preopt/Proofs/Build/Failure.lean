import Preopt.Proofs.Build.Derivation
import Preopt.Proofs.Once.Alike

/-! Failing derivations. The only reason for one to fail is a config file that cannot be read or is
not valid, and then no slot is filled, so that it can be tried again. Once a config is resolved no
derivation fails any more. -/

namespace Preopt.Build

open Once

structure Sound (l : Ledger) : Prop where
  valid {r : Resolved} : l.value? Key.globalConfig = some r → r.config.validate = .ok ()
  injected_valid {r : Resolved} : l.value? Key.injectedConfig = some r →
    r.config.validate = .ok ()
  resolved {v : List String} : l.value? Key.bootClasspath = some v →
    ∃ r : Resolved, l.value? Key.globalConfig = some r

section Failure

variable {s : Settings} {files : FileTree} {l l' : Ledger} {e : Error}

theorem Sound.grows {given : Supply} {ks : List Key} (h : Sound l)
    (g : Grows s files given ks l l') : Sound l' := by
  have hinjected {r : Resolved} (hr : l'.value? Key.injectedConfig = some r) :
      r.config.validate = .ok () := by
    rcases g.kept_or_gained hr with hl | hd
    · exact h.injected_valid hl
    · rcases hd.2 rfl with ⟨-, rfl, -⟩ | ⟨config, -, hvalid, rfl⟩
      · rfl
      · exact hvalid
  refine ⟨fun {r} hr => ?_, hinjected, fun {v} hv => ?_⟩
  · rcases g.kept_or_gained hr with hl | hd
    · exact h.valid hl
    · obtain ⟨hfile, hfallback⟩ := hd.1 rfl
      cases hp : s.globalConfig with
      | some path =>
        obtain ⟨-, -, -, hvalid, -⟩ := of_readConfig files (hfile path hp)
        exact hvalid
      | none => exact hinjected (hfallback hp)
  · rcases g.kept_or_gained hv with hl | hd
    · obtain ⟨r, hr⟩ := h.resolved hl
      exact ⟨r, g.keeps hr⟩
    · obtain ⟨r, -, hr, -⟩ := hd.2 rfl
      exact ⟨r, hr⟩

structure Fruitless (path : Path) (attempts : UInt64) (l l' : Ledger) : Prop where
  value? (k : Key) : l'.value? k = l.value? k
  counters : l'.counters =
    { l.counters with computations := l.counters.computations + attempts }
  dependencies : l'.dependencies = (l.depend path).dependencies
  events : ∃ more, l'.events = l.events ++ more ∧
    ∀ e ∈ more, e = .configLoaded path ∨ ∃ name, e = .computing name

theorem globalConfig_of_on {r : Resolved}
    (h : Work.on (globalConfig s files) l = (.ok r, l')) :
    Grows s files {} configKeys l l' ∧ l'.value? Key.globalConfig = some r :=
  (globalConfig_ensures l).of_ok h

theorem depend_dependencies (l l' : Ledger) (h : l.dependencies = l'.dependencies) (path : Path) :
    (l.depend path).dependencies = (l'.depend path).dependencies := by
  rw [Ledger.depend, Ledger.depend, h]
  split
  · exact h
  · rfl

theorem Fruitless.of_depend (path : Path) (l : Ledger) : Fruitless path 0 l (l.depend path) := by
  refine ⟨Ledger.value?_depend l path, ?_, rfl, [], ?_, ?_⟩
  · rw [UInt64.add_zero, Ledger.depend]
    split <;> rfl
  · rw [List.append_nil, Ledger.depend]
    split <;> rfl
  · simp

theorem Fruitless.of_attempt {path : Path} {attempts : UInt64} {k : Key}
    (h : Fruitless path attempts (l.attempt k) l') : Fruitless path (1 + attempts) l l' where
  value? k' := (h.value? k').trans (Ledger.value?_attempt l k k')
  counters := by
    rw [h.counters, ← UInt64.add_assoc]
    rfl
  dependencies := h.dependencies.trans (depend_dependencies (l.attempt k) l rfl path)
  events := by
    obtain ⟨more, hmore, hevents⟩ := h.events
    refine ⟨.computing k.name :: more, hmore.trans (List.append_assoc l.events [_] more), ?_⟩
    intro e he
    rcases List.mem_cons.mp he with rfl | he
    · exact Or.inr ⟨_, rfl⟩
    · exact hevents e he

theorem Fruitless.report {path : Path} {attempts : UInt64} (h : Fruitless path attempts l l') :
    Fruitless path attempts l (l'.report (.configLoaded path)) where
  value? := h.value?
  counters := h.counters
  dependencies := h.dependencies
  events := by
    obtain ⟨more, hmore, hevents⟩ := h.events
    refine ⟨more ++ [.configLoaded path], ?_, ?_⟩
    · rw [← List.append_assoc, ← hmore]
      rfl
    · intro e he
      rcases List.mem_append.mp he with he | he
      · exact hevents e he
      · exact Or.inl (List.mem_singleton.mp he)

def InVain (s : Settings) (files : FileTree) (e : Error) (attempts : UInt64) (l l' : Ledger) :
    Prop :=
  l.value? Key.globalConfig = none ∧
    ∃ path, s.globalConfig = some path ∧ readConfig files path = .error e ∧
      Fruitless path attempts l l'

theorem globalConfig_error (h : Work.on (globalConfig s files) l = (.error e, l')) :
    InVain s files e 1 l l' := by
  obtain ⟨result, l₁, hon, hr⟩ := globalConfig_on s files l
  rw [h] at hon
  obtain ⟨rfl, rfl⟩ := Prod.mk.inj hon
  cases hr with
  | @unread path _ _ hn hp he hl =>
    have hd := (Fruitless.of_depend path (l.attempt Key.globalConfig)).of_attempt
    rcases hl with rfl | rfl
    · exact ⟨hn, path, hp, he, hd⟩
    · exact ⟨hn, path, hp, he, hd.report⟩

/-- A derived value fails for want of a config alone, if the rest of its derivation cannot fail. -/
theorem once_error {k : Key} {rest : Resolved → Work Error k.Value}
    (h : Work.on (Work.once k (globalConfig s files >>= rest)) l = (.error e, l'))
    (hrest : ∀ r l₁ l₂, Work.on (globalConfig s files) (l.attempt k) = (.ok r, l₁) →
      Work.on (rest r) l₁ ≠ (.error e, l₂)) : InVain s files e 2 l l' := by
  obtain ⟨-, hmake⟩ := Work.of_once_error h
  rcases Work.of_on_bind_error hmake with hconfig | ⟨r, l₁, hconfig, hr⟩
  · obtain ⟨hn, path, hp, he, hf⟩ := globalConfig_error hconfig
    exact ⟨(Ledger.value?_attempt l k _).symm.trans hn, path, hp, he, hf.of_attempt⟩
  · exact absurd hr (hrest r l₁ l' hconfig)

theorem imageWith_error {name : String} {p : Profile}
    (h : Work.on (imageWith s files name p) l = (.error e, l')) : InVain s files e 2 l l' :=
  once_error h fun r l₁ l₂ _ hr => by cases hr

theorem splitPairs_of_valid {values : List String} (h : GlobalConfig.checkPairs values = .ok ()) :
    ∃ pairs, values.mapM GlobalConfig.splitPair = .ok pairs := by
  induction values with
  | nil => exact ⟨[], rfl⟩
  | cons value rest ih =>
    rw [GlobalConfig.checkPairs] at h
    split at h
    · next pair hpair =>
      obtain ⟨pairs, hpairs⟩ := ih h
      refine ⟨pair :: pairs, ?_⟩
      rw [List.mapM_cons, hpair, hpairs]
      rfl
    · cases h

theorem systemServer_of_valid {config : GlobalConfig} (h : config.validate = .ok ()) :
    ∃ v, Classpath.systemServer config = .ok v := by
  have hpairs : GlobalConfig.checkPairs config.updatableSystemServerJars = .ok () := by
    cases hc : GlobalConfig.checkPairs config.updatableSystemServerJars with
    | ok u => rfl
    | error fault =>
      rw [GlobalConfig.validate, hc] at h
      cases h
  obtain ⟨pairs, hsplit⟩ := splitPairs_of_valid hpairs
  refine ⟨config.systemServerJars.map Classpath.platformJar ++ pairs.map Classpath.apexJar, ?_⟩
  rw [Classpath.systemServer, hsplit]
  rfl

theorem systemServerClasspath_error (hs : Sound l)
    (h : Work.on (systemServerClasspath s files) l = (.error e, l')) :
    InVain s files e 2 l l' := by
  refine once_error h fun r l₁ l₂ hconfig hr => ?_
  obtain ⟨hg, hstored⟩ := globalConfig_of_on hconfig
  have hsound : Sound l₁ := hs.grows (.trans (.attempt Key.systemServerClasspath) hg)
  obtain ⟨v, hv⟩ := systemServer_of_valid (hsound.valid hstored)
  rw [hv] at hr
  cases hr

theorem not_inVain {r : Resolved} {attempts : UInt64} (h : l.value? Key.globalConfig = some r) :
    ¬ InVain s files e attempts l l' := by
  rintro ⟨hn, -⟩
  rw [h] at hn
  cases hn

theorem bootClasspath_error (h : Work.on (bootClasspath s files) l = (.error e, l')) :
    InVain s files e 2 l l' := by
  refine once_error h fun r l₁ l₂ hconfig hr => ?_
  rcases Work.of_on_bind_error hr with himage | ⟨i, l₃, himage, hi⟩
  · exact not_inVain (globalConfig_of_on hconfig).2 (imageWith_error himage)
  · cases hi

theorem makeVars_error (hs : Sound l) (h : Work.on (makeVars s files) l = (.error e, l')) :
    InVain s files e 2 l l' := by
  let given : Supply :=
    { profile := fun name p => name = (Key.image .default).name ∧ p = Variant.default.profile }
  have hp : given.profile (Key.image .default).name Variant.default.profile := ⟨rfl, rfl⟩
  rcases Work.of_on_bind_error h with hboot | ⟨boot, l₁, hboot, h₁⟩
  · exact bootClasspath_error hboot
  obtain ⟨hg, hstored⟩ := (bootClasspath_ensures hp l).of_ok hboot
  have hs₁ : Sound l₁ := hs.grows hg
  obtain ⟨r, hr⟩ := hs₁.resolved hstored
  rcases Work.of_on_bind_error h₁ with himage | ⟨i, l₂, himage, h₂⟩
  · exact absurd (imageWith_error himage) (not_inVain hr)
  obtain ⟨hg₂, -⟩ := (imageWith_ensures hp l₁).of_ok himage
  rcases Work.of_on_bind_error h₂ with hserver | ⟨v, l₃, -, h₃⟩
  · exact absurd (systemServerClasspath_error (hs₁.grows hg₂) hserver) (not_inVain (hg₂.keeps hr))
  · cases h₃

theorem exportMakeVars_error {ρ : Type} {strict : ρ → String → String → ρ} {receiver : ρ}
    (hs : Sound l)
    (h : Work.on (exportMakeVars s files strict receiver) l = (.error e, l')) :
    InVain s files e 2 l l' := by
  rcases Work.of_on_bind_error h with hvars | ⟨vars, l₁, -, h₁⟩
  · exact makeVars_error hs hvars
  · cases h₁

theorem InVain.alike {attempts : UInt64} (h : InVain s files e attempts l l') : Alike l l' := by
  obtain ⟨-, path, -, -, hf⟩ := h
  exact ⟨fun k => (hf.value? k).symm, by rw [hf.counters]; rfl⟩

end Failure

end Preopt.Build
