import Mathlib.Data.List.Infix
import Mathlib.Data.String.Basic
import Mathlib.Data.UInt
import Preopt.Proofs.Build.Derivation
import Preopt.Proofs.Once.Filled
import Preopt.Proofs.Once.Script

/-! Three tallies of one history. Configs that were resolved and images that were derived are
counted in words, reported line by line, and kept in slots, and computations are counted and
reported. A derivation counts and reports nothing before the last step that may fail, and its slot
is filled right after, so that between operations on a build the tallies agree. -/

namespace Preopt

namespace Event

def isComputing : Event → Bool
  | .computing _ => true
  | _ => false

def isResolution : Event → Bool
  | .configResolved .. => true
  | _ => false

def derives (meant : String → Bool) : Event → Bool
  | .imageDerived name .. => meant name
  | _ => false

def reads (level : Level) (opening : String) (e : Event) : Bool :=
  e.level = level && opening.toList.isPrefixOf e.text.toList

-- The equations of `text` are far larger than its body, which is used as it stands instead.

theorem isComputing_eq_reads (e : Event) :
    e.isComputing = e.reads .trace "Computing once value" := by
  cases e <;> simp [isComputing, reads, level]
  delta text
  simp [toString]

theorem isResolution_eq_reads (e : Event) :
    e.isResolution = e.reads .info "Resolved dexpreopt global config" := by
  cases e <;> simp [isResolution, reads, level] <;> delta text <;>
    simp [toString, List.isPrefixOf]

theorem derives_eq_reads (e : Event) :
    e.derives (fun _ => true) = e.reads .debug "Derived boot image config" := by
  cases e <;> simp [derives, reads, level] <;> delta text <;> simp [toString, List.isPrefixOf]

end Event

namespace Build

open Once

variable {s : Settings} {files : FileTree} {l l' : Ledger} {meant : String → Bool}

def imageSlots (l : Ledger) : Finset Key := l.filled.filter (·.kind = .image)

def imageSlotsNamed (meant : String → Bool) (l : Ledger) : Finset Key :=
  (imageSlots l).filter fun k => (l.value? ⟨.image, k.name⟩).any fun i : Image => meant i.name

theorem imageKey_eq {k : Key} (h : k.kind = .image) : (⟨.image, k.name⟩ : Key) = k := by
  rw [← h]

theorem mem_imageSlots {k : Key} :
    k ∈ imageSlots l ↔ k.kind = .image ∧ (l.value? ⟨.image, k.name⟩).isSome := by
  rw [imageSlots, Finset.mem_filter, Ledger.mem_filled, and_comm]
  exact and_congr_right fun h => by rw [imageKey_eq h]

theorem mem_imageSlotsNamed {k : Key} :
    k ∈ imageSlotsNamed meant l ↔ k.kind = .image ∧
      ∃ i : Image, l.value? ⟨.image, k.name⟩ = some i ∧ meant i.name := by
  rw [imageSlotsNamed, Finset.mem_filter, mem_imageSlots, and_assoc]
  refine and_congr_right fun _ => ?_
  cases l.value? ⟨.image, k.name⟩ <;> simp

theorem imageSlotsNamed_true : imageSlotsNamed (fun _ => true) l = imageSlots l := by
  ext k
  rw [mem_imageSlotsNamed, mem_imageSlots]
  cases l.value? ⟨.image, k.name⟩ <;> simp

theorem imageSlotsNamed_of_same
    (h : ∀ name, l'.value? ⟨.image, name⟩ = l.value? ⟨.image, name⟩) :
    imageSlotsNamed meant l' = imageSlotsNamed meant l := by
  ext k
  rw [mem_imageSlotsNamed, mem_imageSlotsNamed, h]

def fileImage (name : String) (i : Image) (l : Ledger) : Ledger :=
  ((l.count .addImage).report (.imageDerived i.name i.modules.length i.targets.length
    i.zip.isSome)).store ⟨.image, name⟩ i

theorem value?_fileImage_of_ne {name : String} (i : Image) (l : Ledger) {k : Key}
    (h : k ≠ ⟨.image, name⟩) : (fileImage name i l).value? k = l.value? k :=
  Ledger.value?_store_of_ne _ _ h

theorem card_imageSlotsNamed_fileImage {name : String} (i : Image)
    (hn : l.value? ⟨.image, name⟩ = none) :
    (imageSlotsNamed meant (fileImage name i l)).card =
      (imageSlotsNamed meant l).card + if meant i.name then 1 else 0 := by
  let k : Key := ⟨.image, name⟩
  have hk : k ∉ imageSlotsNamed meant l := by
    intro hk
    obtain ⟨-, i', hi', -⟩ := mem_imageSlotsNamed.mp hk
    rw [hn] at hi'
    cases hi'
  have hself : k ∈ imageSlotsNamed meant (fileImage name i l) ↔ meant i.name = true := by
    rw [mem_imageSlotsNamed, fileImage, Ledger.value?_store_self]
    simp [k]
  have hne {k' : Key} (h : k' ≠ k) :
      k' ∈ imageSlotsNamed meant (fileImage name i l) ↔ k' ∈ imageSlotsNamed meant l := by
    rw [mem_imageSlotsNamed, mem_imageSlotsNamed]
    refine and_congr_right fun hkind => ?_
    rw [value?_fileImage_of_ne i l (by rwa [imageKey_eq hkind])]
  split
  case isTrue hmeant =>
    have hinsert : imageSlotsNamed meant (fileImage name i l) =
        insert k (imageSlotsNamed meant l) := by
      ext k'
      by_cases h : k' = k
      · simp [h, hself, hmeant]
      · simp [h, hne h]
    rw [hinsert, Finset.card_insert_of_notMem hk]
  case isFalse hmeant =>
    have hsame : imageSlotsNamed meant (fileImage name i l) = imageSlotsNamed meant l := by
      ext k'
      by_cases h : k' = k
      · simp [h, hself, hmeant, hk]
      · exact hne h
    rw [hsame, add_zero]

def resolutions (l : Ledger) : Nat := if (l.value? Key.globalConfig).isSome then 1 else 0

theorem resolutions_of_same (h : l'.value? Key.globalConfig = l.value? Key.globalConfig) :
    resolutions l' = resolutions l := by
  rw [resolutions, resolutions, h]

structure Tallied (l : Ledger) : Prop where
  computations : l.counters.computations = UInt64.ofNat (l.events.countP Event.isComputing)
  configs : l.counters.configs = UInt64.ofNat (l.events.countP Event.isResolution)
  images : l.counters.images = UInt64.ofNat (l.events.countP (Event.derives fun _ => true))
  resolved : l.events.countP Event.isResolution = resolutions l
  derived (meant : String → Bool) :
    l.events.countP (Event.derives meant) = (imageSlotsNamed meant l).card

namespace Tallied

theorem append (h : Tallied l) (more : List Event) (he : l'.events = l.events ++ more)
    (hcomputations : l'.counters.computations =
      l.counters.computations + UInt64.ofNat (more.countP Event.isComputing))
    (hconfigs : l'.counters.configs =
      l.counters.configs + UInt64.ofNat (more.countP Event.isResolution))
    (himages : l'.counters.images =
      l.counters.images + UInt64.ofNat (more.countP (Event.derives fun _ => true)))
    (hresolved : resolutions l' = resolutions l + more.countP Event.isResolution)
    (hderived : ∀ meant, (imageSlotsNamed meant l').card =
      (imageSlotsNamed meant l).card + more.countP (Event.derives meant)) : Tallied l' where
  computations := by
    rw [he, List.countP_append, UInt64.ofNat_add, ← h.computations, hcomputations]
  configs := by rw [he, List.countP_append, UInt64.ofNat_add, ← h.configs, hconfigs]
  images := by rw [he, List.countP_append, UInt64.ofNat_add, ← h.images, himages]
  resolved := by rw [he, List.countP_append, h.resolved, hresolved]
  derived meant := by rw [he, List.countP_append, h.derived, hderived]

theorem of_same (h : Tallied l) (hs : ∀ k : Key, l'.value? k = l.value? k)
    (he : l'.events = l.events) (hcomputations : l'.counters.computations = l.counters.computations)
    (hconfigs : l'.counters.configs = l.counters.configs)
    (himages : l'.counters.images = l.counters.images) : Tallied l' := by
  refine h.append [] ?_ ?_ ?_ ?_ (resolutions_of_same (hs _)) fun meant => ?_
  · rw [he, List.append_nil]
  · exact hcomputations.trans (add_zero _).symm
  · exact hconfigs.trans (add_zero _).symm
  · exact himages.trans (add_zero _).symm
  · rw [imageSlotsNamed_of_same fun name => hs _]
    rfl

theorem touch (h : Tallied l) (k : Key) : Tallied (l.touch k) :=
  h.of_same (Ledger.value?_touch l k) rfl rfl rfl rfl

theorem hit (h : Tallied l) (k : Key) : Tallied (l.hit k) :=
  h.of_same (Ledger.value?_hit l k) rfl rfl rfl rfl

theorem depend (h : Tallied l) (path : Path) : Tallied (l.depend path) := by
  rw [Ledger.depend]
  split
  · exact h
  · exact h.of_same (fun _ => rfl) rfl rfl rfl rfl

theorem attempt (h : Tallied l) (k : Key) : Tallied (l.attempt k) :=
  h.append [.computing k.name] rfl rfl (add_zero _).symm (add_zero _).symm
    (resolutions_of_same (Ledger.value?_attempt l k _)) fun meant => by
      rw [imageSlotsNamed_of_same fun name => Ledger.value?_attempt l k _]
      rfl

theorem report (h : Tallied l) {e : Event} (hcomputing : e.isComputing = false)
    (hresolution : e.isResolution = false) (hderives : ∀ meant, e.derives meant = false) :
    Tallied (l.report e) := by
  have hnone {p : Event → Bool} (hp : p e = false) : [e].countP p = 0 := by simp [hp]
  refine h.append [e] rfl ?_ ?_ ?_ ?_ fun meant => ?_
  · rw [hnone hcomputing]
    exact (add_zero _).symm
  · rw [hnone hresolution]
    exact (add_zero _).symm
  · rw [hnone (hderives _)]
    exact (add_zero _).symm
  · rw [hnone hresolution]
    rfl
  · rw [hnone (hderives meant)]
    rfl

theorem store (h : Tallied l) {k : Key} (v : k.Value) (hg : k ≠ Key.globalConfig)
    (hi : k.kind ≠ .image) : Tallied (l.store k v) := by
  have hne (name : String) : (⟨.image, name⟩ : Key) ≠ k := fun hk => hi (by rw [← hk])
  have hderived (meant : String → Bool) :
      imageSlotsNamed meant (l.store k v) = imageSlotsNamed meant l :=
    imageSlotsNamed_of_same fun name => Ledger.value?_store_of_ne l v (hne name)
  exact h.append [] (List.append_nil _).symm (add_zero _).symm (add_zero _).symm (add_zero _).symm
    (resolutions_of_same (Ledger.value?_store_of_ne l v hg.symm))
    fun meant => congrArg _ (hderived meant)

theorem settle (h : Tallied l) (r : Resolved) (hn : l.value? Key.globalConfig = none) :
    Tallied (settle r l) := by
  have hresolved : resolutions (Build.settle r l) = resolutions l + 1 := by
    rw [resolutions, resolutions, value?_settle_self, hn]
    rfl
  have hderived (meant : String → Bool) :
      imageSlotsNamed meant (Build.settle r l) = imageSlotsNamed meant l :=
    imageSlotsNamed_of_same fun name => value?_settle_of_ne r l (by simp [Key.globalConfig])
  exact h.append _ rfl (add_zero _).symm rfl (add_zero _).symm hresolved
    fun meant => congrArg _ (hderived meant)

theorem fileImage (h : Tallied l) {name : String} (i : Image)
    (hn : l.value? ⟨.image, name⟩ = none) : Tallied (fileImage name i l) := by
  have hresolved : resolutions (Build.fileImage name i l) = resolutions l :=
    resolutions_of_same (value?_fileImage_of_ne i l (by simp [Key.globalConfig]))
  refine h.append _ rfl (add_zero _).symm (add_zero _).symm rfl hresolved fun meant => ?_
  rw [card_imageSlotsNamed_fileImage i hn, List.countP_singleton]
  rfl

end Tallied

theorem tallied_empty : Tallied {} := ⟨rfl, rfl, rfl, rfl, fun _ => rfl⟩

def KeepsTallies {α : Type} (m : Work Error α) : Prop :=
  ∀ ⦃l : Ledger⦄, Tallied l → Tallied (Work.on m l).2

namespace KeepsTallies

variable {α β : Type}

theorem pure (a : α) : KeepsTallies (Pure.pure a : Work Error α) := fun _ h => h

theorem orThrow {ε : Type} (wrap : ε → Error) (result : Except ε α) :
    KeepsTallies (orThrow wrap result) := by
  cases result <;> exact fun _ h => h

theorem bind {m : Work Error α} {f : α → Work Error β} (hm : KeepsTallies m)
    (hf : ∀ a, KeepsTallies (f a)) : KeepsTallies (m >>= f) := by
  intro l h
  have h₁ := hm h
  cases hon : Work.on m l with
  | mk result l₁ =>
    rw [hon] at h₁
    cases result with
    | ok a =>
      rw [Work.on_bind_ok hon]
      exact hf a h₁
    | error e =>
      rw [Work.on_bind_error hon]
      exact h₁

theorem once {k : Key} {make : Work Error k.Value} (hg : k ≠ Key.globalConfig)
    (hi : k.kind ≠ .image) (hm : KeepsTallies make) : KeepsTallies (Work.once k make) := by
  intro l h
  cases hs : l.value? k with
  | some v =>
    rw [Work.once_of_filled hs]
    exact h.hit k
  | none =>
    have h₁ := hm (h.attempt k)
    cases hon : Work.on make (l.attempt k) with
    | mk result l₁ =>
      rw [hon] at h₁
      cases result with
      | ok v =>
        rw [Work.once_of_ok hs hon]
        exact h₁.store v hg hi
      | error e =>
        rw [Work.once_of_error hs hon]
        exact h₁

end KeepsTallies

theorem Resolution.tallied {result : Except Error Resolved} (h : Resolution s files l result l')
    (ht : Tallied l) : Tallied l' := by
  have hattempt := ht.attempt Key.globalConfig
  cases h with
  | stored hr => exact ht.hit _
  | @unread path e l' hn hp he hl =>
    have hdepend := hattempt.depend path
    rcases hl with rfl | rfl
    · exact hdepend
    · exact hdepend.report rfl rfl fun _ => rfl
  | @read path r hn hp hr =>
    refine .settle (.report (hattempt.depend path) rfl rfl fun _ => rfl) r ?_
    simpa using hn
  | injected hn hp hi =>
    refine .settle (hattempt.hit Key.injectedConfig) _ ?_
    simpa using hn
  | fellBack hn hp hi =>
    have hreport : Tallied (((l.attempt Key.globalConfig).attempt Key.injectedConfig).report
        .noConfig) := (hattempt.attempt _).report rfl rfl fun _ => rfl
    refine .settle (hreport.store (k := Key.injectedConfig) fallback (by decide) (by decide)) _ ?_
    refine (Ledger.value?_store_of_ne _ _ injectedConfig_ne_globalConfig.symm).trans ?_
    simpa using hn

theorem globalConfig_keepsTallies : KeepsTallies (globalConfig s files) := by
  intro l h
  obtain ⟨result, l', hon, hr⟩ := globalConfig_on s files l
  rw [hon]
  exact hr.tallied h

theorem inject_keepsTallies (config : GlobalConfig) : KeepsTallies (inject config) := by
  intro l h
  obtain ⟨result, l', hon, hi⟩ := inject_on config l
  rw [hon]
  cases hi with
  | refused e => exact h
  | stored hg hempty hv =>
    exact (h.touch Key.injectedConfig).store _ (by decide) (by decide)

theorem imageWith_keepsTallies (name : String) (p : Profile) :
    KeepsTallies (imageWith s files name p) := by
  intro l h
  let k : Key := ⟨.image, name⟩
  cases hs : l.value? k with
  | some i =>
    rw [imageWith, Work.once_of_filled hs]
    exact h.hit k
  | none =>
    obtain ⟨result, l₁, hon, hr⟩ := globalConfig_on s files (l.attempt k)
    have h₁ : Tallied l₁ := hr.tallied (h.attempt k)
    cases result with
    | error e =>
      rw [imageWith, Work.once_of_error hs (Work.on_bind_error hon)]
      exact h₁
    | ok r =>
      -- The resolution has left the slot empty, so that the image is new when it is counted.
      have hgrows : Grows s files {} configKeys (l.attempt k) l₁ := hr.grows
      have hn : l₁.value? k = none := by
        rw [hgrows.frame (by simp [k, configKeys, Key.globalConfig, Key.injectedConfig]),
          Ledger.value?_attempt, hs]
      let i := Image.derive s r.config p
      have himage : Work.on (imageWith s files name p) l = (.ok i, fileImage name i l₁) :=
        Work.once_of_ok hs ((Work.on_bind_ok hon).trans rfl)
      rw [himage]
      exact h₁.fileImage i hn

theorem systemServerClasspath_keepsTallies : KeepsTallies (systemServerClasspath s files) :=
  .once (by decide) (by decide) (globalConfig_keepsTallies.bind fun _ => .orThrow _ _)

theorem bootClasspath_keepsTallies : KeepsTallies (bootClasspath s files) :=
  .once (by decide) (by decide) (globalConfig_keepsTallies.bind fun _ =>
    (imageWith_keepsTallies _ _).bind fun _ => .pure _)

theorem makeVars_keepsTallies : KeepsTallies (makeVars s files) :=
  bootClasspath_keepsTallies.bind fun _ => (imageWith_keepsTallies _ _).bind fun _ =>
    systemServerClasspath_keepsTallies.bind fun _ => .pure _

theorem exportMakeVars_keepsTallies {ρ : Type} (strict : ρ → String → String → ρ) (receiver : ρ) :
    KeepsTallies (exportMakeVars s files strict receiver) :=
  makeVars_keepsTallies.bind fun _ => .pure _

theorem loadConfig_keepsTallies (path : Path) : KeepsTallies (loadConfig files path) := by
  intro l h
  rw [loadConfig_on]
  split
  · exact h.report rfl rfl fun _ => rfl
  · exact h

def Uncounted (k : Key) : Prop := k ≠ Key.globalConfig ∧ k.kind ≠ .image

theorem stable_tallied : Stable Tallied Uncounted where
  touch k h := h.touch k
  hit k h := h.hit k
  attempt k h := h.attempt k
  store v hk h := h.store v hk.1 hk.2

end Build
end Preopt
