import Preopt.Proofs.Build.Tallies
import Preopt.Proofs.Session.Coherence
import Preopt.Proofs.Session.Success

/-! Counters, lines and slots of a session. After every request of a run they agree on how often a
config was resolved, an image derived and a computation started, whatever failed, was tried again or
was asked for by way of something else. Hence no variant is derived twice. -/

namespace Preopt

open Once

/-- An action gives a variant's name to no image but the variant's own. -/
def Action.SparesName (v : Variant) : Action → Prop
  | .ask (.customImage key p) => p.name = v.profile.name → key = (Key.image v).name
  | .ask _ | .script _ | .change _ => True

namespace Session

structure TalliesAgree (σ : Session) : Prop where
  configs : σ.ledger.counters.configs = if (σ.value? Key.globalConfig).isSome then 1 else 0
  resolutions : σ.ledger.events.countP (·.reads .info "Resolved dexpreopt global config") =
    if (σ.value? Key.globalConfig).isSome then 1 else 0
  images : σ.ledger.counters.images = UInt64.ofNat (Build.imageSlots σ.ledger).card
  derivations : σ.ledger.events.countP (·.reads .debug "Derived boot image config") =
    (Build.imageSlots σ.ledger).card
  computations : σ.ledger.counters.computations =
    UInt64.ofNat (σ.ledger.events.countP (·.reads .trace "Computing once value"))
  named (name : String) : σ.ledger.events.countP (Event.derives (· = name)) =
    (Build.imageSlotsNamed (· = name) σ.ledger).card

theorem talliesAgree_of_tallied {σ : Session} (h : Build.Tallied σ.ledger) : TalliesAgree σ := by
  have hresolved : σ.ledger.events.countP Event.isResolution =
      if (σ.value? Key.globalConfig).isSome then 1 else 0 := h.resolved
  have hderived : σ.ledger.events.countP (Event.derives fun _ => true) =
      (Build.imageSlots σ.ledger).card := by
    rw [h.derived, Build.imageSlotsNamed_true]
  constructor
  case configs =>
    rw [h.configs, hresolved]
    split <;> rfl
  case resolutions =>
    rw [← hresolved]
    exact List.countP_congr fun e _ => by rw [e.isResolution_eq_reads]
  case images => rw [h.images, hderived]
  case derivations =>
    rw [← hderived]
    exact List.countP_congr fun e _ => by rw [e.derives_eq_reads]
  case computations =>
    rw [h.computations]
    refine congrArg _ (List.countP_congr fun e _ => ?_)
    rw [e.isComputing_eq_reads]
  case named => exact fun name => h.derived _

theorem Request.work_keepsTallies {α : Type} (r : Request α) (s : Settings) (files : FileTree) :
    Build.KeepsTallies (r.work s files) := by
  cases r with
  | globalConfig => exact Build.globalConfig_keepsTallies
  | inject config => exact Build.inject_keepsTallies config
  | image v => exact Build.imageWith_keepsTallies _ _
  | customImage key p => exact Build.imageWith_keepsTallies key p
  | systemServerClasspath => exact Build.systemServerClasspath_keepsTallies
  | bootClasspath => exact Build.bootClasspath_keepsTallies
  | makeVars => exact Build.makeVars_keepsTallies
  | exportMakeVars strict receiver => exact Build.exportMakeVars_keepsTallies strict receiver
  | load path => exact Build.loadConfig_keepsTallies path
  | depend path => exact fun l h => h.depend path

theorem act_tallied {σ : Session} {a : Action} (hs : a.SparesBuiltIn) (hi : a.SparesImages)
    (h : Build.Tallied σ.ledger) : Build.Tallied (σ.act a).ledger := by
  cases a with
  | ask r => exact r.work_keepsTallies σ.settings σ.files h
  | script step =>
    refine Build.stable_tallied.after step (fun k hk => ⟨?_, ?_⟩) h
    · rintro rfl
      exact hs _ (by decide) hk
    · intro hkind
      rw [← Build.imageKey_eq hkind] at hk
      exact hi k.name hk
  | change files => exact h

theorem after_tallied {σ : Session} {run : List Action} (hs : ∀ a ∈ run, a.SparesBuiltIn)
    (hi : ∀ a ∈ run, a.SparesImages) (h : Build.Tallied σ.ledger) :
    Build.Tallied (σ.after run).ledger := by
  refine after_induction h fun τ hτ a ha => ?_
  exact act_tallied (hs a ha) (hi a ha) hτ

theorem profile_name_inj {v w : Variant} (h : v.profile.name = w.profile.name) : v = w := by
  revert h
  cases v <;> cases w <;> decide

theorem key_of_named {v : Variant} {α : Type} {r : Request α} (hr : (Action.ask r).SparesName v)
    {key : String} {p : Profile} (hp : r.supply.profile key p) (hname : p.name = v.profile.name) :
    key = (Key.image v).name := by
  cases r with
  | image w =>
    obtain ⟨rfl, rfl⟩ := hp
    rw [profile_name_inj hname]
  | customImage key' q =>
    obtain ⟨rfl, rfl⟩ := hp
    exact hr hname
  | bootClasspath | makeVars | exportMakeVars strict receiver =>
    obtain ⟨rfl, rfl⟩ := hp
    rw [profile_name_inj hname]
  | _ => exact hp.elim

theorem imageSlotsNamed_subset {σ : Session} {run : List Action} (empty : ∀ k, σ.value? k = none)
    (hi : ∀ a ∈ run, a.SparesImages) {v : Variant} (ho : ∀ a ∈ run, a.SparesName v) :
    Build.imageSlotsNamed (· = v.profile.name) (σ.after run).ledger ⊆ {Key.image v} := by
  intro k hk
  obtain ⟨hkind, i, hslot, hname⟩ := Build.mem_imageSlotsNamed.mp hk
  obtain ⟨τ, α, r, hfilled, p, config, hp, -, rfl⟩ :=
    derived_of_filled (fun a ha => hi a ha k.name) (empty _) hslot
  have hkey := key_of_named (ho _ hfilled.mem) hp (of_decide_eq_true hname)
  rw [← Build.imageKey_eq hkind, hkey, Finset.mem_singleton]
  cases v <;> rfl

/-- On a build whose slots are its own, the tallies agree after every run, and each variant was
derived once at most. -/
theorem tallies_agree (s : Settings) (files : FileTree) (run : List Action)
    (hs : ∀ a ∈ run, a.SparesBuiltIn) (hi : ∀ a ∈ run, a.SparesImages) :
    TalliesAgree ((start s files).after run) ∧
      ∀ v : Variant, (∀ a ∈ run, a.SparesName v) →
        ((start s files).after run).ledger.events.countP
          (Event.derives (· = v.profile.name)) ≤ 1 := by
  have htallied : Build.Tallied ((start s files).after run).ledger :=
    after_tallied hs hi Build.tallied_empty
  have hagree := talliesAgree_of_tallied htallied
  refine ⟨hagree, fun v ho => ?_⟩
  rw [hagree.named]
  exact Finset.card_le_card (imageSlotsNamed_subset (value?_start s files) hi ho)

theorem tallies_agree_retried :
    let settings : Settings := { globalConfig := some ⟨"config.yaml"⟩ }
    let mended : FileTree := { entries := [(["config.yaml"], some "BootJars: [a]".toUTF8)] }
    let run : List Action :=
      [.ask .makeVars, .change mended, .script (.insert ⟨.config, "own"⟩ Build.fallback),
        .ask (.image .default), .ask .bootClasspath, .ask .makeVars,
        .ask (.customImage "own" ⟨"own", "boot", false, true⟩)]
    (∀ a ∈ run, a.SparesBuiltIn) ∧ (∀ a ∈ run, a.SparesImages) ∧
      (∀ v : Variant, ∀ a ∈ run, a.SparesName v) ∧
      TalliesAgree ((start settings {}).after run) ∧
      ∀ v : Variant, ((start settings {}).after run).ledger.events.countP
        (Event.derives (· = v.profile.name)) ≤ 1 := by
  intro settings mended run
  have hs : ∀ a ∈ run, a.SparesBuiltIn := by
    simp [run, Action.SparesBuiltIn, Action.Spares, Step.fills, Key.builtIn, Key.image,
      Key.globalConfig, Key.injectedConfig, Key.systemServerClasspath, Key.bootClasspath]
  have hi : ∀ a ∈ run, a.SparesImages := by
    simp [run, Action.SparesImages, Action.Spares, Step.fills]
  have ho (v : Variant) : ∀ a ∈ run, a.SparesName v := by
    cases v <;> simp [run, Action.SparesName, Variant.profile]
  obtain ⟨hagree, honce⟩ := tallies_agree settings {} run hs hi
  exact ⟨hs, hi, ho, hagree, fun v => honce v (ho v)⟩

end Session
end Preopt
