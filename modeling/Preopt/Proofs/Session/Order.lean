import Mathlib.Algebra.BigOperators.Group.List.Basic
import Preopt.Proofs.Build.Accounts
import Preopt.Proofs.Session.Foretold

/-! The order of requests makes no difference. A request for a built-in value is answered from the
prospect, fills slots that it alone decides on with values that the prospect decides on, and adds
its own price to the balance. Whichever came first, the sums and the slots are the same in the
end. -/

namespace Preopt

open Once

namespace Session

def Request.IsBuiltIn {α : Type} : Request α → Prop
  | .customImage _ _ | .inject _ | .load _ | .depend _ => False
  | _ => True

theorem Request.IsBuiltIn.isDerivation {α : Type} {r : Request α} (h : r.IsBuiltIn) :
    r.IsDerivation := by
  cases r with
  | customImage key p | inject config | load path | depend path => exact h.elim
  | _ => trivial

theorem Request.IsBuiltIn.orderly {α : Type} {r : Request α} (h : r.IsBuiltIn) :
    (Action.ask r).Orderly := by
  cases r with
  | customImage key p => exact h.elim
  | _ => trivial

def Request.slots (s : Settings) {α : Type} : Request α → List Key
  | .globalConfig => Build.configSlots s
  | .image v => ⟨.image, (Key.image v).name⟩ :: Build.configSlots s
  | .customImage key _ => ⟨.image, key⟩ :: Build.configSlots s
  | .systemServerClasspath => Key.systemServerClasspath :: Build.configSlots s
  | .bootClasspath => Key.bootClasspath :: Build.bootSlots s
  | .makeVars | .exportMakeVars _ _ => Build.makeVarsSlots s
  | .inject _ | .load _ | .depend _ => []

def Request.lookups {α : Type} : Request α → Nat
  | .makeVars | .exportMakeVars _ _ => 3
  | .inject _ | .load _ | .depend _ => 0
  | _ => 1

theorem Request.work_costs {s : Settings} {files : FileTree} {α : Type} {r : Request α}
    (hr : r.IsDerivation) (l : Ledger) :
    Build.Costs s (r.slots s) (r.lookups • Amounts.lookup) (r.work s files) l := by
  have hone : 1 • Amounts.lookup = Amounts.lookup := one_nsmul _
  cases r with
  | globalConfig => exact hone ▸ Build.globalConfig_costs l
  | image v => exact hone ▸ Build.imageWith_costs _ _ l
  | customImage key p => exact hone ▸ Build.imageWith_costs key p l
  | systemServerClasspath => exact hone ▸ Build.systemServerClasspath_costs l
  | bootClasspath => exact hone ▸ Build.bootClasspath_costs l
  | makeVars => exact Build.makeVars_costs l
  | exportMakeVars strict receiver => exact Build.exportMakeVars_costs strict receiver l
  | inject config | load path | depend path => exact hr.elim

def Request.fills (s : Settings) (o : Except Error Resolved) {α : Type} (r : Request α) :
    List Key :=
  match o with
  | .ok _ => r.slots s
  | .error _ => []

def Request.price (o : Except Error Resolved) {α : Type} (r : Request α) : Amounts :=
  match o with
  | .ok _ => r.lookups • Amounts.lookup
  | .error _ => (r.attempts, r.attempts, 0, 0)

def Request.Answers (s : Settings) (o : Except Error Resolved) {α : Type} (r : Request α) :
    Except Error α → Prop
  | .ok a => ∃ (config : Resolved) (made : String → Profile → Prop),
    o = .ok config ∧ r.Yields s made config a
  | .error e => o = .error e

theorem Request.Yields.unique {s : Settings} {made made' : String → Profile → Prop}
    {config : Resolved} {α : Type} {r : Request α} (hr : r.IsBuiltIn) {a a' : α}
    (h : r.Yields s made config a) (h' : r.Yields s made' config a') : a = a' := by
  cases r with
  | globalConfig => exact h.trans h'.symm
  | image v => exact h.trans h'.symm
  | systemServerClasspath => exact Except.ok.inj (h.symm.trans h')
  | bootClasspath => exact h.trans h'.symm
  | makeVars =>
    obtain ⟨v, hv, rfl⟩ := h
    obtain ⟨v', hv', rfl⟩ := h'
    obtain rfl : v = v' := Except.ok.inj (hv.symm.trans hv')
    rfl
  | exportMakeVars strict receiver =>
    obtain ⟨v, hv, rfl⟩ := h
    obtain ⟨v', hv', rfl⟩ := h'
    obtain rfl : v = v' := Except.ok.inj (hv.symm.trans hv')
    rfl
  | customImage key p | inject config | load path | depend path => exact hr.elim

theorem Request.Answers.unique {s : Settings} {o : Except Error Resolved} {α : Type}
    {r : Request α} (hr : r.IsBuiltIn) {result result' : Except Error α}
    (h : r.Answers s o result) (h' : r.Answers s o result') : result = result' := by
  cases result with
  | error e =>
    cases result' with
    | error e' => exact congrArg _ (Except.error.inj (h.symm.trans h'))
    | ok a' =>
      obtain ⟨config, made, ho, -⟩ := h'
      cases ho.symm.trans h
  | ok a =>
    obtain ⟨config, made, ho, hy⟩ := h
    cases result' with
    | error e' => cases ho.symm.trans h'
    | ok a' =>
      obtain ⟨config', made', ho', hy'⟩ := h'
      obtain rfl : config = config' := Except.ok.inj (ho.symm.trans ho')
      exact congrArg _ (hy.unique hr hy')

end Session

def Build.expected (s : Settings) (config : Resolved) : (k : Key) → Option k.Value
  | ⟨.config, _⟩ => some config
  | ⟨.list, name⟩ =>
    if name = Key.systemServerClasspath.name then
      (Classpath.systemServer config.config).toOption
    else
      some (Classpath.boot config.config (Image.derive s config.config Variant.default.profile))
  | ⟨.image, name⟩ =>
    (Variant.all.find? fun v => (Key.image v).name = name).map fun v =>
      Image.derive s config.config v.profile
  | ⟨.text, _⟩ | ⟨.number, _⟩ => none

def Action.Derives : Action → Prop
  | .ask r => r.IsBuiltIn
  | .script _ | .change _ => False

def Action.fills (s : Settings) (o : Except Error Resolved) : Action → List Key
  | .ask r => r.fills s o
  | .script _ | .change _ => []

def Action.price (o : Except Error Resolved) : Action → Amounts
  | .ask r => r.price o
  | .script _ | .change _ => 0

theorem Action.exists_of_mem_fills {s : Settings} {o : Except Error Resolved} {a : Action}
    {k : Key} (hk : k ∈ a.fills s o) : ∃ config, o = .ok config := by
  cases o with
  | ok config => exact ⟨config, rfl⟩
  | error e => cases a <;> cases hk

theorem Action.Derives.orderly {a : Action} (h : a.Derives) : a.Orderly := by
  cases a with
  | ask r => exact Session.Request.IsBuiltIn.orderly h
  | script step => exact h.elim
  | change files => exact h.elim

namespace Session

theorem prospect_after {σ : Session} {run : List Action} (hrun : ∀ a ∈ run, a.Derives) :
    (σ.after run).prospect = σ.prospect := by
  induction run generalizing σ with
  | nil => rfl
  | cons a rest ih =>
    have ha := hrun a List.mem_cons_self
    cases a with
    | ask r =>
      have hrest := ih (σ := (σ.ask r).2) fun b hb => hrun b (List.mem_cons_of_mem _ hb)
      exact hrest.trans (ask_prospect σ (Request.IsBuiltIn.isDerivation ha))
    | script step => exact ha.elim
    | change files => exact ha.elim

namespace Driven

variable {σ : Session} (h : Driven σ)
include h

theorem answers {α : Type} {r : Request α} (hr : r.IsBuiltIn) :
    r.Answers σ.settings σ.prospect (σ.ask r).1 := by
  cases hresult : (σ.ask r).1 with
  | error e => exact prospect_of_error h.sound hr.isDerivation hresult
  | ok a => exact h.yields hr.isDerivation hr.orderly hresult

theorem ask_spends {α : Type} {r : Request α} (hr : r.IsBuiltIn) :
    Build.Spends σ.settings (r.fills σ.settings σ.prospect) (r.price σ.prospect) σ.ledger
      (σ.ask r).2.ledger := by
  have hanswers := h.answers hr
  have hon := on_ask σ r
  generalize (σ.ask r).1 = result at hanswers hon
  cases result with
  | error e =>
    rw [show σ.prospect = _ from hanswers]
    exact (Request.work_inVain hr.isDerivation h.sound hon).spends
  | ok a =>
    obtain ⟨config, made, hp, -⟩ := hanswers
    rw [hp]
    exact Request.work_costs hr.isDerivation σ.ledger a _ hon

theorem ask_dependencies {α : Type} {r : Request α} (hr : r.IsBuiltIn) :
    (σ.ask r).2.ledger.dependencies = Build.dues σ.settings σ.ledger := by
  cases hresult : (σ.ask r).1 with
  | ok a =>
    obtain ⟨config, -, hconfig, -⟩ := h.answer hr.isDerivation hr.orderly hresult
    rw [← (h.ask_spends hr).dues]
    exact (Build.dues_of_resolved hconfig).symm
  | error e =>
    have hon := on_ask σ r
    rw [hresult] at hon
    obtain ⟨hn, path, hp, -, hf⟩ := Request.work_inVain hr.isDerivation h.sound hon
    exact hf.dependencies.trans (Build.dues_of_file hn hp).symm

theorem ask_after {before : List Action} (hbefore : ∀ a ∈ before, a.Derives) {α : Type}
    {r : Request α} (hr : r.IsBuiltIn) : ((σ.after before).ask r).1 = (σ.ask r).1 := by
  have hdriven := h.after fun a ha => (hbefore a ha).orderly
  have hanswers := hdriven.answers hr
  rw [prospect_after hbefore, settings_after] at hanswers
  exact hanswers.unique hr (h.answers hr)

section Run

variable {run : List Action} (hrun : ∀ a ∈ run, a.Derives)
include hrun

theorem history_eq : σ.history run = run.map σ.deed := by
  induction run generalizing σ with
  | nil => rfl
  | cons a rest ih =>
    have ha := hrun a List.mem_cons_self
    have hrest : ∀ b ∈ rest, b.Derives := fun b hb => hrun b (List.mem_cons_of_mem _ hb)
    have hafter : Driven (σ.after [a]) := h.after (by simpa using ha.orderly)
    rw [history, List.map_cons, show σ.act a = σ.after [a] from rfl, ih hafter hrest]
    refine congrArg _ (List.map_congr_left fun b hb => ?_)
    cases b with
    | ask r => exact congrArg (Deed.asked r) (h.ask_after (by simpa using ha) (hrest _ hb))
    | script step => exact (hrest _ hb).elim
    | change files => exact (hrest _ hb).elim

theorem answer_eq {α : Type} {r : Request α} {result : Except Error α}
    (hmem : .asked r result ∈ σ.history run) : result = (σ.ask r).1 := by
  obtain ⟨before, later, rfl, rfl⟩ := asked_of_history hmem
  have hr : r.IsBuiltIn := hrun (.ask r) (List.mem_append_right _ List.mem_cons_self)
  exact h.ask_after (fun a ha => hrun a (List.mem_append_left _ ha)) hr

theorem after_spends :
    Build.Spends σ.settings (run.flatMap (Action.fills σ.settings σ.prospect))
      (run.map (Action.price σ.prospect)).sum σ.ledger (σ.after run).ledger := by
  induction run generalizing σ with
  | nil => exact .refl _
  | cons a rest ih =>
    have ha := hrun a List.mem_cons_self
    cases a with
    | ask r =>
      have hask := h.ask_spends (r := r) ha
      have hrest := ih (h.ask (Request.IsBuiltIn.orderly ha))
        fun b hb => hrun b (List.mem_cons_of_mem _ hb)
      rw [ask_prospect σ (Request.IsBuiltIn.isDerivation ha)] at hrest
      exact (hask.mono (List.subset_append_left _ _)).trans
        (hrest.mono (List.subset_append_right _ _))
    | script step => exact ha.elim
    | change files => exact ha.elim

end Run

section Slots

variable {config : Resolved} (hconfig : σ.value? Key.globalConfig = some config)
include hconfig

theorem expected_configSlots :
    ∀ k ∈ Build.configSlots σ.settings, σ.value? k = Build.expected σ.settings config k := by
  rw [Build.configSlots]
  cases hp : σ.settings.globalConfig with
  | some path => exact List.forall_mem_singleton.mpr hconfig
  | none =>
    obtain ⟨files, given, hd⟩ := h.derived (by decide) hconfig
    have hinjected : σ.value? Key.injectedConfig = some config := (hd.1 rfl).2 hp
    exact List.forall_mem_cons.mpr ⟨hconfig, List.forall_mem_singleton.mpr hinjected⟩

theorem expected_image {v : Variant} {i : Image}
    (hi : σ.value? ⟨.image, (Key.image v).name⟩ = some i) :
    ∀ k ∈ ⟨.image, (Key.image v).name⟩ :: Build.configSlots σ.settings,
      σ.value? k = Build.expected σ.settings config k := by
  obtain ⟨config', hconfig', rfl⟩ := h.variant hi
  obtain rfl : config = config' := Option.some.inj (hconfig.symm.trans hconfig')
  refine List.forall_mem_cons.mpr ⟨hi.trans ?_, h.expected_configSlots hconfig⟩
  cases v <;> rfl

theorem expected_systemServer {v : List String}
    (hv : σ.value? Key.systemServerClasspath = some v) :
    ∀ k ∈ Key.systemServerClasspath :: Build.configSlots σ.settings,
      σ.value? k = Build.expected σ.settings config k := by
  obtain ⟨files, given, hd⟩ := h.derived (by decide) hv
  obtain ⟨config', hconfig', hserver⟩ := hd.1 rfl
  obtain rfl : config = config' := Option.some.inj (hconfig.symm.trans hconfig')
  refine List.forall_mem_cons.mpr ⟨hv.trans ?_, h.expected_configSlots hconfig⟩
  exact (congrArg Except.toOption hserver).symm

theorem expected_boot {v : List String} (hv : σ.value? Key.bootClasspath = some v) :
    ∀ k ∈ Key.bootClasspath :: Build.bootSlots σ.settings,
      σ.value? k = Build.expected σ.settings config k := by
  obtain ⟨config', hconfig', rfl⟩ := h.boot hv
  obtain rfl : config = config' := Option.some.inj (hconfig.symm.trans hconfig')
  obtain ⟨files, given, hd⟩ := h.derived (by decide) hv
  obtain ⟨-, i, -, hi, -⟩ := hd.2 rfl
  exact List.forall_mem_cons.mpr ⟨hv, h.expected_image (v := .default) hconfig hi⟩

theorem expected_of_shows {files : FileTree} {α : Type} {r : Request α} {a : α}
    (hr : r.IsBuiltIn) (hs : r.Shows files σ.ledger a) :
    ∀ k ∈ r.slots σ.settings, σ.value? k = Build.expected σ.settings config k := by
  have hvars {vars} (hv : Build.ShowsVars σ.ledger vars) :
      ∀ k ∈ Build.makeVarsSlots σ.settings, σ.value? k = Build.expected σ.settings config k := by
    obtain ⟨boot, i, systemServer, hboot, -, hserver, -⟩ := hv
    exact List.forall_mem_cons.mpr ⟨h.expected_systemServer hconfig hserver _ List.mem_cons_self,
      h.expected_boot hconfig hboot⟩
  cases r with
  | globalConfig => exact h.expected_configSlots hconfig
  | image v => exact h.expected_image hconfig hs
  | systemServerClasspath => exact h.expected_systemServer hconfig hs
  | bootClasspath => exact h.expected_boot hconfig hs
  | makeVars => exact hvars hs
  | exportMakeVars strict receiver =>
    obtain ⟨vars, hv, -⟩ := hs
    exact hvars hv
  | customImage key p | inject config | load path | depend path => exact hr.elim

end Slots

section Outcome

variable {run : List Action} (hrun : ∀ a ∈ run, a.Derives)
include hrun

theorem expected_of_fills {config : Resolved} (hp : σ.prospect = .ok config) {a : Action}
    (ha : a ∈ run) {k : Key} (hk : k ∈ a.fills σ.settings σ.prospect) :
    (σ.after run).value? k = Build.expected σ.settings config k := by
  have hafter : Driven (σ.after run) := h.after fun b hb => (hrun b hb).orderly
  cases a with
  | ask r =>
    have hr : r.IsBuiltIn := hrun _ ha
    obtain ⟨before, later, rfl⟩ := List.append_of_mem ha
    have hbefore : ∀ b ∈ before, b.Derives := fun b hb => hrun b (List.mem_append_left _ hb)
    have hdriven : Driven (σ.after before) := h.after fun b hb => (hbefore b hb).orderly
    have hprospect : (σ.after before).prospect = .ok config := (prospect_after hbefore).trans hp
    obtain ⟨answer, hanswer⟩ := hdriven.exists_answer hr.isDerivation hprospect
    have hmem := deed_mem_history σ before (.ask r) later
    rw [deed, hanswer] at hmem
    obtain ⟨files, hshows⟩ := shows_of_history hmem
    obtain ⟨config', -, hconfig', -⟩ := hdriven.answer hr.isDerivation hr.orderly hanswer
    have hkept : (σ.after (before ++ .ask r :: later)).value? Key.globalConfig = some config' := by
      rw [after_append]
      exact after_keeps hconfig' later
    have hresolved := (prospect_after hrun).trans hp
    rw [prospect, Build.prospect_of_resolved hkept] at hresolved
    obtain rfl := Except.ok.inj hresolved
    rw [hp] at hk
    rw [← settings_after σ (before ++ .ask r :: later)] at hk ⊢
    exact hafter.expected_of_shows hkept hr hshows k hk
  | script step => cases hk
  | change files => cases hk

/-- The last request, whichever it is, leaves no dependency due. -/
theorem dependencies_after (hne : run ≠ []) :
    (σ.after run).ledger.dependencies = Build.dues σ.settings σ.ledger := by
  obtain rfl | ⟨before, last, rfl⟩ := List.eq_nil_or_concat run
  · contradiction
  · rw [List.concat_eq_append] at hrun ⊢
    have hbefore : ∀ a ∈ before, a.Derives := fun a ha => hrun a (List.mem_append_left _ ha)
    have hlast : last.Derives := hrun last (by simp)
    have hdriven := h.after fun a ha => (hbefore a ha).orderly
    cases last with
    | ask r =>
      have hask := hdriven.ask_dependencies (r := r) hlast
      rw [settings_after, (h.after_spends hbefore).dues] at hask
      rw [after_append]
      exact hask
    | script step => exact hlast.elim
    | change files => exact hlast.elim

end Outcome

end Driven

structure SameOutcome (σ : Session) (run run' : List Action) : Prop where
  answers : (σ.history run).Perm (σ.history run')
  answer {α : Type} {r : Request α} {result result' : Except Error α} :
    .asked r result ∈ σ.history run → .asked r result' ∈ σ.history run' → result = result'
  value? (k : Key) : (σ.after run).value? k = (σ.after run').value? k
  dependencies : (σ.after run).ledger.dependencies = (σ.after run').ledger.dependencies
  counters : (σ.after run).ledger.counters = (σ.after run').ledger.counters

namespace Driven

variable {σ : Session} (h : Driven σ) {run run' : List Action}
  (hrun : ∀ a ∈ run, a.Derives) (hrun' : ∀ a ∈ run', a.Derives) (hperm : run.Perm run')
include h hrun hrun' hperm

theorem value?_of_perm (k : Key) : (σ.after run).value? k = (σ.after run').value? k := by
  have hfills := (hperm.flatMap_right (Action.fills σ.settings σ.prospect)).mem_iff (a := k)
  by_cases hk : k ∈ run.flatMap (Action.fills σ.settings σ.prospect)
  · obtain ⟨a, ha, hka⟩ := List.mem_flatMap.mp hk
    obtain ⟨config, hp⟩ := Action.exists_of_mem_fills hka
    rw [h.expected_of_fills hrun hp ha hka,
      h.expected_of_fills hrun' hp (hperm.mem_iff.mp ha) hka]
  · -- a slot that no request fills holds what it held before
    have hkept : (σ.after run).value? k = σ.value? k := (h.after_spends hrun).frame hk
    have hkept' : (σ.after run').value? k = σ.value? k :=
      (h.after_spends hrun').frame (mt hfills.mpr hk)
    rw [hkept, hkept']

theorem counters_of_perm :
    (σ.after run).ledger.counters = (σ.after run').ledger.counters := by
  have hfilled : (σ.after run).ledger.filled = (σ.after run').ledger.filled :=
    Ledger.filled_of_same (h.value?_of_perm hrun hrun' hperm)
  have hprice := (hperm.map (Action.price σ.prospect)).sum_eq
  have hbalance : Build.balance σ.settings (σ.after run).ledger =
      Build.balance σ.settings (σ.after run').ledger := by
    rw [(h.after_spends hrun).balance, (h.after_spends hrun').balance, hprice]
  rw [Build.balance, Build.balance, hfilled] at hbalance
  exact Counters.amounts_injective (sub_left_inj.mp hbalance)

theorem dependencies_of_perm :
    (σ.after run).ledger.dependencies = (σ.after run').ledger.dependencies := by
  by_cases hne : run = []
  · subst hne
    rw [hperm.nil_eq]
  · have hne' : run' ≠ [] := fun h' => hne (h' ▸ hperm).eq_nil
    rw [h.dependencies_after hrun hne, h.dependencies_after hrun' hne']

theorem sameOutcome : SameOutcome σ run run' where
  answers := by
    rw [h.history_eq hrun, h.history_eq hrun']
    exact hperm.map _
  answer hmem hmem' := (h.answer_eq hrun hmem).trans (h.answer_eq hrun' hmem').symm
  value? := h.value?_of_perm hrun hrun' hperm
  dependencies := h.dependencies_of_perm hrun hrun' hperm
  counters := h.counters_of_perm hrun hrun' hperm

end Driven

/-- Whatever a fresh build was asked first, built-in values can be asked for in any order. -/
theorem order_makes_no_difference (s : Settings) (files : FileTree) (first run run' : List Action)
    (hfirst : ∀ a ∈ first, a.Orderly) (hrun : ∀ a ∈ run, a.Derives) (hperm : run.Perm run') :
    SameOutcome ((start s files).after first) run run' := by
  have hdriven : Driven ((start s files).after first) := ⟨s, files, first, hfirst, rfl⟩
  exact hdriven.sameOutcome hrun (fun a ha => hrun a (hperm.mem_iff.mpr ha)) hperm

theorem order_makes_no_difference_backwards :
    let config : GlobalConfig := { artApexJars := ["core-oj"], bootJars := ["core-oj", "ext"] }
    let first : List Action := [.ask (.inject config)]
    let run : List Action :=
      [.ask .globalConfig, .ask (.image .art), .ask .makeVars, .ask .makeVars]
    (∀ a ∈ first, a.Orderly) ∧ (∀ a ∈ run, a.Derives) ∧ run.Perm run.reverse ∧
      SameOutcome ((start {} {}).after first) run run.reverse := by
  intro config first run
  have hfirst : ∀ a ∈ first, a.Orderly := List.forall_mem_singleton.mpr trivial
  have hrun : ∀ a ∈ run, a.Derives := by
    simp [run, Action.Derives, Request.IsBuiltIn]
  have hperm : run.Perm run.reverse := (List.reverse_perm run).symm
  exact ⟨hfirst, hrun, hperm, order_makes_no_difference {} {} first run _ hfirst hrun hperm⟩

end Session
end Preopt
