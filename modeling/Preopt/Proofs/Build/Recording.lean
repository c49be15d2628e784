import Preopt.Proofs.Build.Resolution
import Preopt.Proofs.Once.Recording

/-! What derivations record. The work behind the global config records the config's file when it
starts, and nothing else records anything. A derivation starts that work once, if the config is not
there yet and a value that it looks for is not there either. -/

namespace Preopt.Build

open Once

def starts (l : Ledger) : Nat := l.events.count (.computing Key.globalConfig.name)

structure Notes (clear : Prop) (n : Nat) (ps : List Path) (l l' : Ledger) : Prop where
  dependencies : l'.dependencies = ps.foldl keep l.dependencies
  starts : clear → starts l' = starts l + n

section Notes

variable {clear : Prop} {l l' l'' : Ledger}

theorem Notes.refl : Notes clear 0 [] l l := ⟨rfl, fun _ => rfl⟩

theorem Notes.trans {n m : Nat} {ps qs : List Path} (h : Notes clear n ps l l')
    (h' : Notes clear m qs l' l'') : Notes clear (n + m) (ps ++ qs) l l'' where
  dependencies := by rw [h'.dependencies, h.dependencies, List.foldl_append]
  starts hc := by rw [h'.starts hc, h.starts hc, Nat.add_assoc]

theorem Notes.report {e : Event} (he : e ≠ .computing Key.globalConfig.name) :
    Notes clear 0 [] l (l.report e) where
  dependencies := rfl
  starts _ := by simp [Build.starts, Ledger.report, List.count_append, he]

theorem Notes.hit (k : Key) : Notes clear 0 [] l (l.hit k) := ⟨rfl, fun _ => rfl⟩

theorem Notes.store (k : Key) (v : k.Value) : Notes clear 0 [] l (l.store k v) :=
  ⟨rfl, fun _ => rfl⟩

theorem Notes.attempt {k : Key} (hk : clear → k.name ≠ Key.globalConfig.name) :
    Notes clear 0 [] l (l.attempt k) where
  dependencies := rfl
  starts hc := by
    simp [Build.starts, Ledger.attempt, Ledger.report, Ledger.count, Ledger.touch,
      List.count_append, hk hc]

theorem Notes.attempt_globalConfig : Notes clear 1 [] l (l.attempt Key.globalConfig) where
  dependencies := rfl
  starts _ := by
    simp [Build.starts, Ledger.attempt, Ledger.report, Ledger.count, Ledger.touch,
      List.count_append]

theorem Notes.depend (p : Path) : Notes clear 0 [p] l (l.depend p) where
  dependencies := dependencies_depend l p
  starts _ := by
    rw [Ledger.depend]
    split <;> rfl

theorem Notes.settle (r : Resolved) : Notes clear 0 [] l (settle r l) := by
  have h : Notes clear 0 [] (l.count .addConfig) _ :=
    .report (e := .configResolved r.source r.config.bootJars.length r.config.artApexJars.length
      r.config.disablePreopt) (by simp)
  exact ⟨h.dependencies, h.starts⟩

end Notes

variable {s : Settings} {files : FileTree} {clear : Prop}

def Quiet (clear : Prop) {α : Type} (m : Work Error α) : Prop :=
  ∀ ⦃l : Ledger⦄, (l.value? Key.globalConfig).isSome → Notes clear 0 [] l (Work.on m l).2 ∧
    ((Work.on m l).2.value? Key.globalConfig).isSome

def Begins (s : Settings) (clear : Prop) {α : Type} (m : Work Error α) (l : Ledger) : Prop :=
  Notes clear 1 s.globalConfig.toList l (Work.on m l).2 ∧
    ∀ a, (Work.on m l).1 = .ok a → ((Work.on m l).2.value? Key.globalConfig).isSome

structure Resolves (s : Settings) (clear : Prop) {α : Type} (m : Work Error α) : Prop where
  quiet : Quiet clear m
  begins {l : Ledger} : l.value? Key.globalConfig = none → Begins s clear m l

structure Seeks (s : Settings) (clear : Prop) (ks : List Key) {α : Type} (m : Work Error α) :
    Prop where
  quiet : Quiet clear m
  missing {l : Ledger} : l.value? Key.globalConfig = none → (∃ k ∈ ks, l.value? k = none) →
    Begins s clear m l
  found {l : Ledger} : (∀ k ∈ ks, l.value? k ≠ none) →
    (∃ a, (Work.on m l).1 = .ok a) ∧ Notes clear 0 [] l (Work.on m l).2 ∧
      ∀ k, (Work.on m l).2.value? k = l.value? k

section Composition

variable {α β : Type}

theorem Quiet.pure (a : α) : Quiet clear (Pure.pure a : Work Error α) := fun _ h => ⟨.refl, h⟩

theorem Quiet.orThrow {ε : Type} (wrap : ε → Error) (result : Except ε α) :
    Quiet clear (orThrow wrap result) := by
  cases result <;> exact fun _ h => ⟨.refl, h⟩

theorem Quiet.update {f : Ledger → Ledger} (hnotes : ∀ l, Notes clear 0 [] l (f l))
    (hvalue : ∀ l, (f l).value? Key.globalConfig = l.value? Key.globalConfig) :
    Quiet clear (Work.update f : Work Error Unit) := by
  intro l h
  rw [Work.on_update, hvalue]
  exact ⟨hnotes l, h⟩

theorem Quiet.bind {m : Work Error α} {f : α → Work Error β} (hm : Quiet clear m)
    (hf : ∀ a, Quiet clear (f a)) : Quiet clear (m >>= f) := by
  intro l hl
  obtain ⟨hnotes, hsome⟩ := hm hl
  cases hon : Work.on m l with
  | mk result l' =>
    rw [hon] at hnotes hsome
    cases result with
    | error e =>
      rw [Work.on_bind_error hon]
      exact ⟨hnotes, hsome⟩
    | ok a =>
      rw [Work.on_bind_ok hon]
      obtain ⟨hnotes', hsome'⟩ := hf a hsome
      exact ⟨hnotes.trans hnotes', hsome'⟩

theorem Begins.bind {m : Work Error α} {f : α → Work Error β} {l : Ledger}
    (hm : Begins s clear m l) (hf : ∀ a, Quiet clear (f a)) : Begins s clear (m >>= f) l := by
  obtain ⟨hnotes, hsome⟩ := hm
  rw [Begins]
  cases hon : Work.on m l with
  | mk result l' =>
    rw [hon] at hnotes hsome
    cases result with
    | error e =>
      rw [Work.on_bind_error hon]
      exact ⟨hnotes, fun a ha => by cases ha⟩
    | ok a =>
      rw [Work.on_bind_ok hon]
      obtain ⟨hnotes', hsome'⟩ := hf a (hsome a rfl)
      have htrans := hnotes.trans hnotes'
      rw [List.append_nil] at htrans
      exact ⟨htrans, fun _ _ => hsome'⟩

theorem Resolves.bind {m : Work Error α} {f : α → Work Error β} (hm : Resolves s clear m)
    (hf : ∀ a, Quiet clear (f a)) : Resolves s clear (m >>= f) where
  quiet := hm.quiet.bind hf
  begins hl := (hm.begins hl).bind hf

theorem Seeks.pure (a : α) : Seeks s clear [] (Pure.pure a : Work Error α) where
  quiet := .pure a
  missing _ h := by simp at h
  found _ := ⟨⟨a, rfl⟩, .refl, fun _ => rfl⟩

/-- Finding a value is a step that the rest of the work does not notice. -/
theorem Seeks.on_bind_of_found {m : Work Error α} {ks : List Key} (hm : Seeks s clear ks m)
    (f : α → Work Error β) {l : Ledger} (h : ∀ k ∈ ks, l.value? k ≠ none) :
    ∃ a l', Work.on (m >>= f) l = Work.on (f a) l' ∧ Notes clear 0 [] l l' ∧
      ∀ k, l'.value? k = l.value? k := by
  obtain ⟨⟨a, ha⟩, hnotes, hsame⟩ := hm.found h
  have hon : Work.on m l = (.ok a, (Work.on m l).2) := by rw [← ha]
  exact ⟨a, _, Work.on_bind_ok hon, hnotes, hsame⟩

theorem Seeks.bind {m : Work Error α} {f : α → Work Error β} {ks ks' : List Key}
    (hm : Seeks s clear ks m) (hf : ∀ a, Seeks s clear ks' (f a)) :
    Seeks s clear (ks ++ ks') (m >>= f) where
  quiet := hm.quiet.bind fun a => (hf a).quiet
  missing {l} hl hk := by
    by_cases hfirst : ∃ k ∈ ks, l.value? k = none
    · exact (hm.missing hl hfirst).bind fun a => (hf a).quiet
    · -- The first part found everything, so the config is still missing when the rest begins.
      obtain ⟨a, l', hon, hnotes, hsame⟩ := hm.on_bind_of_found f (by simpa using hfirst)
      have hrest : ∃ k ∈ ks', l'.value? k = none := by
        obtain ⟨k, hk, hn⟩ := hk
        rcases List.mem_append.mp hk with hk | hk
        · exact absurd ⟨k, hk, hn⟩ hfirst
        · exact ⟨k, hk, (hsame k).trans hn⟩
      obtain ⟨hnotes', hsome⟩ := (hf a).missing ((hsame _).trans hl) hrest
      have htrans := hnotes.trans hnotes'
      rw [Nat.zero_add] at htrans
      rw [Begins, hon]
      exact ⟨htrans, hsome⟩
  found {l} hall := by
    obtain ⟨hfirst, hrest⟩ := List.forall_mem_append.mp hall
    obtain ⟨a, l', hon, hnotes, hsame⟩ := hm.on_bind_of_found f hfirst
    simp only [← hsame] at hrest
    obtain ⟨hok, hnotes', hsame'⟩ := (hf a).found hrest
    rw [hon]
    exact ⟨hok, hnotes.trans hnotes', fun k => (hsame' k).trans (hsame k)⟩

/-- Storing a value of another key adds nothing to what the work behind the slot notes. -/
theorem once_notes {k : Key} {make : Work Error k.Value} {l : Ledger} {n : Nat} {ps : List Path}
    (hg : k ≠ Key.globalConfig) (hk : clear → k.name ≠ Key.globalConfig.name)
    (hn : l.value? k = none) (hm : Notes clear n ps (l.attempt k) (Work.on make (l.attempt k)).2) :
    (Work.on (Work.once k make) l).1 = (Work.on make (l.attempt k)).1 ∧
      Notes clear n ps l (Work.on (Work.once k make) l).2 ∧
      (Work.on (Work.once k make) l).2.value? Key.globalConfig =
        (Work.on make (l.attempt k)).2.value? Key.globalConfig := by
  have hnotes := (Notes.attempt hk).trans hm
  rw [Nat.zero_add, List.nil_append] at hnotes
  cases hon : Work.on make (l.attempt k) with
  | mk result l' =>
    rw [hon] at hnotes
    cases result with
    | error e =>
      rw [Work.once_of_error hn hon]
      exact ⟨rfl, hnotes, rfl⟩
    | ok v =>
      rw [Work.once_of_ok hn hon]
      have hstored := hnotes.trans (.store k v)
      rw [Nat.add_zero, List.append_nil] at hstored
      exact ⟨rfl, hstored, Ledger.value?_store_of_ne l' v hg.symm⟩

theorem Seeks.once {k : Key} {make : Work Error k.Value} (hg : k ≠ Key.globalConfig)
    (hk : clear → k.name ≠ Key.globalConfig.name) (hm : Resolves s clear make) :
    Seeks s clear [k] (Work.once k make) where
  quiet l hl := by
    cases hs : l.value? k with
    | some v =>
      rw [Work.once_of_filled hs, Ledger.value?_hit]
      exact ⟨.hit k, hl⟩
    | none =>
      rw [← Ledger.value?_attempt l k] at hl
      obtain ⟨hnotes, hsome⟩ := hm.quiet hl
      obtain ⟨-, honce, hvalue⟩ := once_notes hg hk hs hnotes
      exact ⟨honce, hvalue ▸ hsome⟩
  missing {l} hl hn := by
    obtain ⟨k', hk', hn⟩ := hn
    obtain rfl := List.mem_singleton.mp hk'
    rw [← Ledger.value?_attempt l k'] at hl
    obtain ⟨hnotes, hsome⟩ := hm.begins hl
    obtain ⟨hresult, honce, hvalue⟩ := once_notes hg hk hn hnotes
    rw [Begins, hresult, hvalue]
    exact ⟨honce, hsome⟩
  found {l} h := by
    obtain ⟨v, hv⟩ := Option.ne_none_iff_exists'.mp (h k List.mem_cons_self)
    rw [Work.once_of_filled hv]
    exact ⟨⟨v, rfl⟩, .hit k, Ledger.value?_hit l k⟩

end Composition

section Derivations

variable (s files)

theorem globalConfig_begins {l : Ledger} (hn : l.value? Key.globalConfig = none) :
    Begins s clear (globalConfig s files) l := by
  obtain ⟨result, l', hon, hr⟩ := globalConfig_on s files l
  have hattempt : Notes clear 1 [] l (l.attempt Key.globalConfig) := .attempt_globalConfig
  rw [Begins, hon]
  cases hr with
  | stored hr =>
    rw [hn] at hr
    cases hr
  | @unread path e l' _ hp _ hl =>
    rw [hp]
    have hdepend := hattempt.trans (.depend path)
    refine ⟨?_, fun a ha => by cases ha⟩
    rcases hl with rfl | rfl
    · exact hdepend
    · exact hdepend.trans (.report (by simp))
  | @read path r _ hp _ =>
    rw [hp]
    have hloaded := (hattempt.trans (.depend path)).trans (.report (e := .configLoaded path) (by simp))
    exact ⟨hloaded.trans (.settle r), fun _ _ => by rw [value?_settle_self]; rfl⟩
  | @injected r _ hp _ =>
    rw [hp]
    exact ⟨(hattempt.trans (.hit _)).trans (.settle r), fun _ _ => by rw [value?_settle_self]; rfl⟩
  | fellBack _ hp _ =>
    rw [hp]
    have hinjected := hattempt.trans (.attempt (k := Key.injectedConfig) fun _ => by decide)
    have hstored := (hinjected.trans (.report (e := .noConfig) (by simp))).trans
      (.store Key.injectedConfig fallback)
    exact ⟨hstored.trans (.settle fallback), fun _ _ => by rw [value?_fallBack_globalConfig]; rfl⟩

theorem globalConfig_of_filled {l : Ledger} {r : Resolved}
    (h : l.value? Key.globalConfig = some r) :
    Work.on (globalConfig s files) l = (.ok r, l.hit Key.globalConfig) :=
  Work.once_of_filled h

theorem globalConfig_resolves : Resolves s clear (globalConfig s files) where
  quiet l hl := by
    obtain ⟨r, hr⟩ := Option.isSome_iff_exists.mp hl
    rw [globalConfig_of_filled s files hr, Ledger.value?_hit]
    exact ⟨.hit _, hl⟩
  begins hn := globalConfig_begins s files hn

theorem globalConfig_seeks : Seeks s clear [Key.globalConfig] (globalConfig s files) where
  quiet := (globalConfig_resolves s files).quiet
  missing hn _ := globalConfig_begins s files hn
  found {l} h := by
    obtain ⟨r, hr⟩ := Option.ne_none_iff_exists'.mp (h _ List.mem_cons_self)
    rw [globalConfig_of_filled s files hr]
    exact ⟨⟨r, rfl⟩, .hit _, Ledger.value?_hit l _⟩

theorem imageWith_seeks {name : String} (hname : clear → name ≠ Key.globalConfig.name)
    (p : Profile) : Seeks s clear [⟨.image, name⟩] (imageWith s files name p) := by
  refine .once (by simp [Key.globalConfig]) hname ((globalConfig_resolves s files).bind fun r => ?_)
  have hcounted : Quiet clear (Work.update (·.count .addImage) : Work Error Unit) :=
    .update (fun _ => ⟨rfl, fun _ => rfl⟩) fun _ => rfl
  have hreported (e : Event) (he : e ≠ .computing Key.globalConfig.name) :
      Quiet clear (Work.update (·.report e) : Work Error Unit) :=
    .update (fun _ => .report he) fun _ => rfl
  exact hcounted.bind fun _ => (hreported _ (by simp)).bind fun _ => .pure _

theorem image_seeks (v : Variant) :
    Seeks s clear [⟨.image, (Key.image v).name⟩] (image s files v) :=
  imageWith_seeks s files (fun _ => by cases v <;> decide) v.profile

theorem systemServerClasspath_seeks :
    Seeks s clear [Key.systemServerClasspath] (systemServerClasspath s files) :=
  .once (by decide) (fun _ => by decide)
    ((globalConfig_resolves s files).bind fun _ => .orThrow _ _)

theorem bootClasspath_seeks : Seeks s clear [Key.bootClasspath] (bootClasspath s files) :=
  .once (by decide) (fun _ => by decide)
    ((globalConfig_resolves s files).bind fun _ =>
      (image_seeks s files .default).quiet.bind fun _ => .pure _)

def madeOf : List Key :=
  [Key.bootClasspath, ⟨.image, (Key.image .default).name⟩, Key.systemServerClasspath]

theorem makeVars_seeks : Seeks s clear madeOf (makeVars s files) :=
  (bootClasspath_seeks s files).bind fun _ => (image_seeks s files .default).bind fun _ =>
    (systemServerClasspath_seeks s files).bind fun _ => .pure _

theorem exportMakeVars_seeks {ρ : Type} (strict : ρ → String → String → ρ) (receiver : ρ) :
    Seeks s clear madeOf (exportMakeVars s files strict receiver) :=
  (makeVars_seeks s files).bind fun _ => .pure _

theorem inject_notes (config : GlobalConfig) (l : Ledger) :
    Notes clear 0 [] l (Work.on (inject config) l).2 := by
  obtain ⟨result, l', hon, hi⟩ := inject_on config l
  rw [hon]
  cases hi with
  | refused e => exact .refl
  | stored => exact ⟨rfl, fun _ => rfl⟩

theorem loadConfig_notes (path : Path) (l : Ledger) :
    Notes clear 0 [] l (Work.on (loadConfig files path) l).2 := by
  rw [loadConfig_on]
  split
  · exact .report (by simp)
  · exact .refl

end Derivations

end Preopt.Build
