import Preopt.Context
import Preopt.Proofs.Once.Ledger

/-! Resolution of the global config. A filled slot answers. Otherwise a configured file is read and
must be valid, and without one the injected config is taken, or the disabled config put in its
place. The five ways this can go are told apart by the slots and the file before it. An injection
either takes an empty slot or changes nothing. -/

namespace Preopt.Build

open Once

variable (s : Settings) (files : FileTree)

def contents (path : Path) : Except Error (GlobalConfig × ByteArray) :=
  match files.read path with
  | .error e => .error (.unreadableConfig path e)
  | .ok bytes =>
    match GlobalConfig.ofBytes bytes with
    | .error e => .error (.malformedConfig path e)
    | .ok config => .ok (config, bytes)

def readConfig (path : Path) : Except Error Resolved :=
  match contents files path with
  | .error e => .error e
  | .ok (config, bytes) =>
    match config.validate with
    | .error e => .error (.invalidConfig e)
    | .ok _ => .ok ⟨config, some bytes, .file path⟩

def fallback : Resolved := ⟨.disabled, none, .fallback⟩

def settle (r : Resolved) (l : Ledger) : Ledger :=
  ((l.count .addConfig).report (.configResolved r.source r.config.bootJars.length
    r.config.artApexJars.length r.config.disablePreopt)).store Key.globalConfig r

@[simp] theorem value?_settle_self (r : Resolved) (l : Ledger) :
    (settle r l).value? Key.globalConfig = some r :=
  Ledger.value?_store_self _ _ _

theorem value?_settle_of_ne (r : Resolved) (l : Ledger) {k : Key} (h : k ≠ Key.globalConfig) :
    (settle r l).value? k = l.value? k :=
  Ledger.value?_store_of_ne _ _ h

def fallBack (l : Ledger) : Ledger :=
  settle fallback ((l.report .noConfig).store Key.injectedConfig fallback)

theorem contents_eq_ok_iff {path : Path} {config : GlobalConfig} {bytes : ByteArray} :
    contents files path = .ok (config, bytes) ↔
      files.read path = .ok bytes ∧ GlobalConfig.ofBytes bytes = .ok config := by
  constructor
  · intro h
    unfold contents at h
    split at h
    · cases h
    · next hb =>
      split at h
      · cases h
      · next hc =>
        cases h
        exact ⟨hb, hc⟩
  · rintro ⟨hb, hc⟩
    simp only [contents, hb, hc]

theorem of_readConfig {path : Path} {r : Resolved} (h : readConfig files path = .ok r) :
    ∃ bytes, files.read path = .ok bytes ∧ GlobalConfig.ofBytes bytes = .ok r.config ∧
      r.config.validate = .ok () ∧ r.raw = some bytes ∧ r.source = .file path := by
  unfold readConfig at h
  split at h
  · cases h
  · next config bytes hread =>
    obtain ⟨hb, hc⟩ := (contents_eq_ok_iff files).mp hread
    split at h
    · cases h
    · next hv =>
      cases h
      exact ⟨bytes, hb, hc, hv, rfl, rfl⟩

theorem injectedConfig_ne_globalConfig : Key.injectedConfig ≠ Key.globalConfig := by decide

/-- Loading reports a config it has, and leaves no trace of one it has not. -/
theorem loadConfig_on (path : Path) (l : Ledger) :
    Work.on (loadConfig files path) l =
      (contents files path,
        match contents files path with
        | .ok _ => l.report (.configLoaded path)
        | .error _ => l) := by
  simp only [loadConfig, Work.on_bind, contents]
  cases files.read path with
  | error e => rfl
  | ok bytes =>
    simp only [orThrow, Work.on_pure]
    cases GlobalConfig.ofBytes bytes <;> rfl

theorem value?_fallBack_globalConfig (l : Ledger) :
    (fallBack l).value? Key.globalConfig = some fallback :=
  value?_settle_self _ _

theorem value?_fallBack_injectedConfig (l : Ledger) :
    (fallBack l).value? Key.injectedConfig = some fallback :=
  (value?_settle_of_ne _ _ injectedConfig_ne_globalConfig).trans (Ledger.value?_store_self _ _ _)

theorem value?_fallBack_of_ne (l : Ledger) {k : Key} (hg : k ≠ Key.globalConfig)
    (hi : k ≠ Key.injectedConfig) : (fallBack l).value? k = l.value? k :=
  (value?_settle_of_ne _ _ hg).trans (Ledger.value?_store_of_ne _ _ hi)

theorem fromFile_on (path : Path) (l : Ledger) :
    ∃ l', Work.on (fromFile files path) l = (readConfig files path, l') ∧
      (l' = (l.depend path).report (.configLoaded path) ∨
        l' = l.depend path ∧ ∃ e, readConfig files path = .error e) := by
  simp only [fromFile, Work.on_bind, Work.on_update, loadConfig_on, readConfig]
  cases contents files path with
  | error e => exact ⟨_, rfl, Or.inr ⟨rfl, _, rfl⟩⟩
  | ok pair =>
    obtain ⟨config, bytes⟩ := pair
    simp only
    cases config.validate with
    | error e => exact ⟨_, rfl, Or.inl rfl⟩
    | ok u => exact ⟨_, rfl, Or.inl rfl⟩

theorem fromInjection_of_filled {l : Ledger} {r : Resolved}
    (h : l.value? Key.injectedConfig = some r) :
    Work.on fromInjection l = (.ok r, l.hit Key.injectedConfig) :=
  Work.once_of_filled h

theorem fromInjection_of_empty {l : Ledger} (h : l.value? Key.injectedConfig = none) :
    Work.on fromInjection l =
      (.ok fallback,
        ((l.attempt Key.injectedConfig).report .noConfig).store Key.injectedConfig fallback) :=
  Work.once_of_ok h rfl

inductive Resolution (l : Ledger) : Except Error Resolved → Ledger → Prop
  | stored {r : Resolved} (hr : l.value? Key.globalConfig = some r) :
    Resolution l (.ok r) (l.hit Key.globalConfig)
  | unread {path : Path} {e : Error} {l' : Ledger} (hn : l.value? Key.globalConfig = none)
      (hp : s.globalConfig = some path) (he : readConfig files path = .error e)
      (hl : l' = (l.attempt Key.globalConfig).depend path ∨
        l' = ((l.attempt Key.globalConfig).depend path).report (.configLoaded path)) :
    Resolution l (.error e) l'
  | read {path : Path} {r : Resolved} (hn : l.value? Key.globalConfig = none)
      (hp : s.globalConfig = some path) (hr : readConfig files path = .ok r) :
    Resolution l (.ok r)
      (settle r (((l.attempt Key.globalConfig).depend path).report (.configLoaded path)))
  | injected {r : Resolved} (hn : l.value? Key.globalConfig = none) (hp : s.globalConfig = none)
      (hi : l.value? Key.injectedConfig = some r) :
    Resolution l (.ok r) (settle r ((l.attempt Key.globalConfig).hit Key.injectedConfig))
  | fellBack (hn : l.value? Key.globalConfig = none) (hp : s.globalConfig = none)
      (hi : l.value? Key.injectedConfig = none) :
    Resolution l (.ok fallback)
      (fallBack ((l.attempt Key.globalConfig).attempt Key.injectedConfig))

theorem globalConfig_of_read {l l' : Ledger} {path : Path} {r : Resolved}
    (hn : l.value? Key.globalConfig = none) (hp : s.globalConfig = some path)
    (hr : Work.on (fromFile files path) (l.attempt Key.globalConfig) = (.ok r, l')) :
    Work.on (globalConfig s files) l = (.ok r, settle r l') := by
  apply Work.once_of_ok hn
  simp only [Work.on_bind, Work.on_get, Source.select, hp]
  exact Work.on_bind_ok hr

theorem globalConfig_of_unread {l l' : Ledger} {path : Path} {e : Error}
    (hn : l.value? Key.globalConfig = none) (hp : s.globalConfig = some path)
    (hr : Work.on (fromFile files path) (l.attempt Key.globalConfig) = (.error e, l')) :
    Work.on (globalConfig s files) l = (.error e, l') := by
  apply Work.once_of_error hn
  simp only [Work.on_bind, Work.on_get, Source.select, hp]
  exact Work.on_bind_error hr

theorem globalConfig_of_injection {l l' : Ledger} {r : Resolved}
    (hn : l.value? Key.globalConfig = none) (hp : s.globalConfig = none)
    (hr : Work.on fromInjection (l.attempt Key.globalConfig) = (.ok r, l')) :
    Work.on (globalConfig s files) l = (.ok r, settle r l') := by
  apply Work.once_of_ok hn
  simp only [Work.on_bind, Work.on_get, Source.select, hp]
  -- Both remaining sources are resolved by the same work.
  generalize (l.attempt Key.globalConfig).slots.contains Key.injectedConfig = isInjected
  cases isInjected
  · exact Work.on_bind_ok hr
  · exact Work.on_bind_ok hr

theorem globalConfig_on (l : Ledger) : ∃ result l',
    Work.on (globalConfig s files) l = (result, l') ∧ Resolution s files l result l' := by
  cases hn : l.value? Key.globalConfig with
  | some r => exact ⟨_, _, Work.once_of_filled hn, .stored hn⟩
  | none =>
    cases hp : s.globalConfig with
    | some path =>
      obtain ⟨l', hl, hcase⟩ := fromFile_on files path (l.attempt Key.globalConfig)
      cases hr : readConfig files path with
      | error e =>
        rw [hr] at hl
        exact ⟨_, _, globalConfig_of_unread s files hn hp hl,
          .unread hn hp hr (hcase.symm.imp_left And.left)⟩
      | ok r =>
        rw [hr] at hl
        have hl' : l' = ((l.attempt Key.globalConfig).depend path).report (.configLoaded path) := by
          rcases hcase with h | ⟨-, e, he⟩
          · exact h
          · rw [hr] at he
            cases he
        subst hl'
        exact ⟨_, _, globalConfig_of_read s files hn hp hl, .read hn hp hr⟩
    | none =>
      have ha := Ledger.value?_attempt l Key.globalConfig Key.injectedConfig
      cases hi : l.value? Key.injectedConfig with
      | some r =>
        have hf := fromInjection_of_filled (ha.trans hi)
        exact ⟨_, _, globalConfig_of_injection s files hn hp hf, .injected hn hp hi⟩
      | none =>
        have hf := fromInjection_of_empty (ha.trans hi)
        exact ⟨_, _, globalConfig_of_injection s files hn hp hf, .fellBack hn hp hi⟩

inductive Injection (config : GlobalConfig) (l : Ledger) : Except Error Unit → Ledger → Prop
  | refused (e : Error) : Injection config l (.error e) l
  | stored (hg : l.value? Key.globalConfig = none) (hi : l.value? Key.injectedConfig = none)
      (hv : config.validate = .ok ()) :
    Injection config l (.ok ())
      ((l.touch Key.injectedConfig).store Key.injectedConfig ⟨config, none, .injected⟩)

theorem inject_on (config : GlobalConfig) (l : Ledger) : ∃ result l',
    Work.on (inject config) l = (result, l') ∧ Injection config l result l' := by
  have hcontains := Ledger.contains_eq l Key.globalConfig
  simp only [inject, Work.on_bind, Work.on_get, hcontains]
  cases hg : l.value? Key.globalConfig with
  | some r => exact ⟨_, _, rfl, .refused _⟩
  | none =>
    simp only [Option.isSome_none, Bool.false_eq_true, if_false]
    cases hv : config.validate with
    | error e => exact ⟨_, _, rfl, .refused _⟩
    | ok u =>
      cases hi : l.value? Key.injectedConfig with
      | some r =>
        refine ⟨_, _, (Work.on_bind_ok rfl).trans ?_, .refused .lateInjection⟩
        exact Work.on_bind_ok (Work.insert_of_filled hi)
      | none =>
        refine ⟨_, _, (Work.on_bind_ok rfl).trans ?_, .stored hg hi hv⟩
        exact Work.on_bind_ok (Work.insert_of_empty hi)

/-- A resolved config is in the way of any injection, and another injected one of a valid one. -/
theorem inject_result (config : GlobalConfig) (l : Ledger) :
    (Work.on (inject config) l).1 =
      if (l.value? Key.globalConfig).isSome then .error .lateInjection
      else
        match config.validate with
        | .error fault => .error (.invalidConfig fault)
        | .ok _ =>
          if (l.value? Key.injectedConfig).isSome then .error .lateInjection else .ok () := by
  have hcontains := Ledger.contains_eq l Key.globalConfig
  simp only [inject, Work.on_bind, Work.on_get, hcontains]
  cases l.value? Key.globalConfig with
  | some r => rfl
  | none =>
    cases config.validate with
    | error fault => rfl
    | ok u =>
      cases hi : l.value? Key.injectedConfig with
      | some r =>
        have hon := Work.insert_of_filled (ε := Error)
          (v := (⟨config, none, .injected⟩ : Resolved)) hi
        exact congrArg Prod.fst ((Work.on_bind_ok rfl).trans (Work.on_bind_ok hon))
      | none =>
        have hon := Work.insert_of_empty (ε := Error)
          (v := (⟨config, none, .injected⟩ : Resolved)) hi
        exact congrArg Prod.fst ((Work.on_bind_ok rfl).trans (Work.on_bind_ok hon))

end Preopt.Build
