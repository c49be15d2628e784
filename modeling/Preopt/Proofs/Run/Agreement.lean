import Preopt.Proofs.Session.Foretold
import Preopt.Run

/-! The program and the library. A run of a command prints what a fresh build of the loaded and
overridden settings answers, and the totals of that build last of all it reports. If the settings
cannot be loaded or the build does not answer, it prints nothing and says which of the two failed.
-/

namespace Preopt

open Once

def Event.IsTotal : Event → Prop
  | .lookupsMade .. | .valuesDerived .. => True
  | _ => False

namespace Run

open CommandLine (Command Given)

def varLine (name value : String) : String := name ++ " := " ++ value ++ "\n"

inductive Answered (σ : Session) : Command → String → Session → Prop
  | makeVars {boot locations servers modules : String} {τ : Session} :
    σ.ask .makeVars = (.ok [("PRODUCT_BOOTCLASSPATH", boot),
      ("PRODUCT_DEX2OAT_BOOTCLASSPATH", locations), ("PRODUCT_SYSTEM_SERVER_CLASSPATH", servers),
      ("DEXPREOPT_BOOT_JARS_MODULES", modules)], τ) →
    Answered σ .makeVars
      (String.join [varLine "PRODUCT_BOOTCLASSPATH" boot,
        varLine "PRODUCT_DEX2OAT_BOOTCLASSPATH" locations,
        varLine "PRODUCT_SYSTEM_SERVER_CLASSPATH" servers,
        varLine "DEXPREOPT_BOOT_JARS_MODULES" modules]) τ
  | bootImage {v : Variant} {i : Image} {τ : Session} :
    σ.ask (.image v) = (.ok i, τ) → Answered σ (.bootImage v) i.print τ
  | systemServerClasspath {jars : List String} {τ : Session} :
    σ.ask .systemServerClasspath = (.ok jars, τ) →
    Answered σ .systemServerClasspath (String.join (jars.map (· ++ "\n"))) τ
  | bootClasspath {jars : List String} {τ : Session} :
    σ.ask .bootClasspath = (.ok jars, τ) →
    Answered σ .bootClasspath (String.join (jars.map (· ++ "\n"))) τ

inductive Refused (σ : Session) : Command → String → Error → Session → Prop
  | makeVars {e : Error} {τ : Session} : σ.ask .makeVars = (.error e, τ) →
    Refused σ .makeVars "Failed to resolve make variables" e τ
  | bootImage {v : Variant} {e : Error} {τ : Session} : σ.ask (.image v) = (.error e, τ) →
    Refused σ (.bootImage v) ("Failed to resolve " ++ v.name ++ " boot image config") e τ
  | systemServerClasspath {e : Error} {τ : Session} :
    σ.ask .systemServerClasspath = (.error e, τ) →
    Refused σ .systemServerClasspath "Failed to resolve system server classpath" e τ
  | bootClasspath {e : Error} {τ : Session} : σ.ask .bootClasspath = (.error e, τ) →
    Refused σ .bootClasspath "Failed to resolve boot classpath" e τ

section Resolve

variable {σ τ : Session} {c : Command}

theorem of_map_ok {α : Type} {p : Except Error α × Session} {print : α → String}
    {out : String} (h : (p.1.map print, p.2) = (.ok out, τ)) :
    ∃ a, p = (.ok a, τ) ∧ out = print a := by
  obtain ⟨result, τ'⟩ := p
  cases result with
  | ok a =>
    cases h
    exact ⟨a, rfl, rfl⟩
  | error e => cases h

theorem of_map_error {α : Type} {p : Except Error α × Session} {print : α → String}
    {e : Error} (h : (p.1.map print, p.2) = (.error e, τ)) : p = (.error e, τ) := by
  obtain ⟨result, τ'⟩ := p
  cases result with
  | ok a => cases h
  | error e' =>
    cases h
    rfl

theorem answered_of_resolve {out : String} (h : resolve σ c = (.ok out, τ)) :
    Answered σ c out τ := by
  cases c with
  | makeVars =>
    obtain ⟨vars, hask, rfl⟩ := of_map_ok (p := σ.ask .makeVars) h
    obtain ⟨boot, image, servers, -, -, -, rfl⟩ := Session.ask_shows (congrArg Prod.fst hask)
    exact .makeVars hask
  | bootImage v =>
    obtain ⟨i, hask, rfl⟩ := of_map_ok (p := σ.ask (.image v)) h
    exact .bootImage hask
  | systemServerClasspath =>
    obtain ⟨jars, hask, rfl⟩ := of_map_ok (p := σ.ask .systemServerClasspath) h
    exact .systemServerClasspath hask
  | bootClasspath =>
    obtain ⟨jars, hask, rfl⟩ := of_map_ok (p := σ.ask .bootClasspath) h
    exact .bootClasspath hask

theorem refused_of_resolve {e : Error} (h : resolve σ c = (.error e, τ)) :
    Refused σ c (purpose c) e τ := by
  cases c with
  | makeVars => exact .makeVars (of_map_error h)
  | bootImage v => exact .bootImage (of_map_error h)
  | systemServerClasspath => exact .systemServerClasspath (of_map_error h)
  | bootClasspath => exact .bootClasspath (of_map_error h)

theorem Answered.resolve_eq {out : String} (h : Answered σ c out τ) :
    resolve σ c = (.ok out, τ) := by
  cases h with
  | makeVars hask | bootImage hask | systemServerClasspath hask | bootClasspath hask =>
    rw [resolve, hask]
    rfl

theorem answered_or_refused (σ : Session) (c : Command) :
    (∃ out τ, Answered σ c out τ) ∨ ∃ e τ, Refused σ c (purpose c) e τ := by
  cases h : resolve σ c with
  | mk result τ =>
    cases result with
    | ok out => exact .inl ⟨out, τ, answered_of_resolve h⟩
    | error e => exact .inr ⟨e, τ, refused_of_resolve h⟩

variable {text : String} {e : Error}

theorem Refused.resolve_eq (h : Refused σ c text e τ) : resolve σ c = (.error e, τ) := by
  cases h with
  | makeVars hask | bootImage hask | systemServerClasspath hask | bootClasspath hask =>
    rw [resolve, hask]
    rfl

theorem Refused.not_answered (h : Refused σ c text e τ) (out : String) (τ' : Session) :
    ¬ Answered σ c out τ' := by
  intro h'
  cases h.resolve_eq.symm.trans h'.resolve_eq

theorem Refused.exists_request (h : Refused σ c text e τ) :
    ∃ (α : Type) (r : Session.Request α), r.IsDerivation ∧ σ.ask r = (.error e, τ) := by
  cases h with
  | makeVars hask | bootImage hask | systemServerClasspath hask | bootClasspath hask =>
    refine ⟨_, _, ?_, hask⟩
    trivial

end Resolve

def totals (c : Counters) : List Event :=
  [.lookupsMade c.computations.toNat c.hits.toNat c.hitPercent,
    .valuesDerived c.configs.toNat c.images.toNat]

section Events

theorem reportTotals_events (σ : Session) :
    σ.reportTotals.ledger.events = σ.ledger.events ++ totals σ.ledger.counters := by
  change (σ.ledger.events ++ [_]) ++ [_] = _
  rw [List.append_assoc]
  rfl

theorem Refused.no_totals {s : Settings} {files : FileTree} {c : Command} {text : String}
    {e : Error} {τ : Session} (h : Refused (.start s files) c text e τ) :
    ∀ event ∈ τ.ledger.events, ¬ event.IsTotal := by
  obtain ⟨α, r, hr, hask⟩ := h.exists_request
  have hon := Session.on_ask (.start s files) r
  rw [hask] at hon
  obtain ⟨-, path, -, -, hvain⟩ :=
    Session.Request.work_inVain hr (Session.sound_start s files) hon
  obtain ⟨more, hmore, hevents⟩ := hvain.events
  rw [hmore]
  intro event hevent
  rcases hevents event hevent with rfl | ⟨name, rfl⟩
  · exact id
  · exact id

theorem load_no_totals (files : FileTree) (file : Option Path) (env : List (String × String)) :
    ∀ event ∈ (Settings.load files file env).2, ¬ event.IsTotal := by
  have hloading : ∀ event ∈ file.toList.map Event.settingsLoading, ¬ event.IsTotal :=
    List.forall_mem_map.mpr fun path _ => id
  rw [Settings.load]
  split
  · exact List.forall_mem_append.mpr ⟨hloading, List.forall_mem_singleton.mpr id⟩
  · exact hloading

end Events

structure Faithful (loaded : Option Settings) (fresh : Settings → Session) (c : Command)
    (o : Outcome) : Prop where
  succeeds_iff : o.ending.status = 0 ↔
    ∃ s out τ, loaded = some s ∧ Answered (fresh s) c out τ
  success {s : Settings} {out : String} {τ : Session} : loaded = some s →
    Answered (fresh s) c out τ →
    o.ending = .done ∧ o.output = out ∧ ∃ before, o.events = before ++ totals τ.ledger.counters
  failure : o.ending.status ≠ 0 →
    o.ending.status = 1 ∧ o.output = "" ∧ (∀ event ∈ o.events, ¬ event.IsTotal) ∧
      ((loaded = none ∧ ∃ rest, o.ending = .failed ("Failed to load build settings" :: rest)) ∨
        ∃ s text e τ, loaded = some s ∧ Refused (fresh s) c text e τ ∧
          o.ending = .failed (text :: causes e))

section Execute

def opening (files : FileTree) (env : List (String × String)) (g : Given) : List Event :=
  ((g.value? .logDir).map Path.mk).toList.map (.loggingStarted · g.verbose) ++ [.started] ++
    (Settings.load files ((g.value? .settings).map Path.mk) env).2

def shown (files : FileTree) (env : List (String × String)) (g : Given) (events : List Event) :
    List Event :=
  (opening files env g ++ events).filter (isShown g.verbose)

theorem shown_no_totals {files : FileTree} {env : List (String × String)} {g : Given}
    {events : List Event} (h : ∀ event ∈ events, ¬ event.IsTotal) :
    ∀ event ∈ shown files env g events, ¬ event.IsTotal := by
  intro event hevent
  rcases List.mem_append.mp (List.mem_filter.mp hevent).1 with hopening | hevents
  · rcases List.mem_append.mp hopening with hstart | hload
    · rcases List.mem_append.mp hstart with hlog | hstarted
      · obtain ⟨dir, -, rfl⟩ := List.mem_map.mp hlog
        exact id
      · obtain rfl := List.mem_singleton.mp hstarted
        exact id
    · exact load_no_totals _ _ _ event hload
  · exact h event hevents

theorem shown_totals (files : FileTree) (env : List (String × String)) (g : Given) (σ : Session) :
    ∃ before, shown files env g σ.reportTotals.ledger.events =
      before ++ totals σ.ledger.counters := by
  rw [shown, reportTotals_events, ← List.append_assoc, List.filter_append]
  exact ⟨_, rfl⟩

variable {files files' : FileTree} {env : List (String × String)} {date : String} {g : Given}
  {c : Command} (hlog : prepared files ((g.value? .logDir).map Path.mk) date = .ok files')
include hlog

theorem execute_eq : execute files env date g c =
    match (Settings.load files' ((g.value? .settings).map Path.mk) env).1 with
    | none =>
      { ending := .failed ["Failed to load build settings", "Build settings error"]
        events := shown files' env g []
        files := files' }
    | some s =>
      match resolve (.start (overridden s g) files') c with
      | (.error e, session) =>
        { ending := .failed (purpose c :: causes e)
          events := shown files' env g session.ledger.events
          files := files' }
      | (.ok output, session) =>
        { ending := .done
          output := output
          events := shown files' env g session.reportTotals.ledger.events
          files := files' } := by
  simp only [execute, hlog]
  rfl

theorem execute_faithful :
    Faithful (Settings.load files' ((g.value? .settings).map Path.mk) env).1
      (fun s => .start (overridden s g) files') c (execute files env date g c) := by
  rw [execute_eq hlog]
  cases hload : (Settings.load files' ((g.value? .settings).map Path.mk) env).1 with
  | none =>
    constructor
    case succeeds_iff => simp [Ending.status]
    case success => simp
    case failure =>
      intro _
      exact ⟨rfl, rfl, shown_no_totals (by simp), .inl ⟨rfl, _, rfl⟩⟩
  | some s =>
    rcases answered_or_refused (.start (overridden s g) files') c with
      ⟨out, τ, hanswered⟩ | ⟨e, τ, hrefused⟩
    · have hresolve := hanswered.resolve_eq
      simp only [hresolve]
      constructor
      case succeeds_iff => exact iff_of_true rfl ⟨s, out, τ, rfl, hanswered⟩
      case success =>
        intro s' out' τ' hs' h'
        obtain rfl := Option.some.inj hs'
        obtain ⟨hout, rfl⟩ := Prod.mk.inj (hresolve.symm.trans h'.resolve_eq)
        exact ⟨rfl, Except.ok.inj hout, shown_totals _ _ _ _⟩
      case failure => exact fun h => absurd rfl h
    · have hresolve := hrefused.resolve_eq
      simp only [hresolve]
      constructor
      case succeeds_iff =>
        refine iff_of_false Nat.one_ne_zero ?_
        rintro ⟨s', out, τ', hs', h'⟩
        obtain rfl := Option.some.inj hs'
        exact hrefused.not_answered out τ' h'
      case success =>
        intro s' out τ' hs' h'
        obtain rfl := Option.some.inj hs'
        exact absurd h' (hrefused.not_answered out τ')
      case failure =>
        exact fun _ => ⟨rfl, rfl, shown_no_totals hrefused.no_totals,
          .inr ⟨s, _, e, τ, rfl, hrefused, rfl⟩⟩

end Execute

section Classpath

variable {σ : Session} (hσ : σ.Driven)
include hσ

theorem vars_of_boot {jars : List String} (h : (σ.ask .bootClasspath).1 = .ok jars) :
    ∃ locations servers modules, (σ.ask .makeVars).1 =
      .ok [("PRODUCT_BOOTCLASSPATH", ":".intercalate jars),
        ("PRODUCT_DEX2OAT_BOOTCLASSPATH", locations),
        ("PRODUCT_SYSTEM_SERVER_CLASSPATH", servers),
        ("DEXPREOPT_BOOT_JARS_MODULES", modules)] := by
  obtain ⟨config, made, hp, rfl⟩ := hσ.yields (r := .bootClasspath) trivial trivial h
  obtain ⟨vars, -, hvars, servers, -, rfl⟩ := hσ.ask_eq (r := .makeVars) trivial trivial hp
  exact ⟨_, _, _, hvars⟩

theorem boot_of_vars {vars : List (String × String)} (h : (σ.ask .makeVars).1 = .ok vars) :
    ∃ jars, (σ.ask .bootClasspath).1 = .ok jars := by
  obtain ⟨config, made, hp, -⟩ := hσ.yields (r := .makeVars) trivial trivial h
  exact hσ.exists_answer (r := .bootClasspath) trivial hp

end Classpath

structure PrintsOneClasspath (loaded : Option Settings) (fresh : Settings → Session)
    (o o' : Outcome) : Prop where
  succeed_together : o.ending.status = 0 ↔ o'.ending.status = 0
  joined : o.ending.status = 0 → ∃ s jars rest, loaded = some s ∧
    ((fresh s).ask .bootClasspath).1 = .ok jars ∧ o.output = String.join (jars.map (· ++ "\n")) ∧
    o'.output = varLine "PRODUCT_BOOTCLASSPATH" (":".intercalate jars) ++ rest

theorem Faithful.printsOneClasspath {loaded : Option Settings} {fresh : Settings → Session}
    {o o' : Outcome} (hfresh : ∀ s, (fresh s).Driven) (h : Faithful loaded fresh .bootClasspath o)
    (h' : Faithful loaded fresh .makeVars o') : PrintsOneClasspath loaded fresh o o' := by
  have hvars {s : Settings} {jars : List String} (hs : loaded = some s)
      (hjars : ((fresh s).ask .bootClasspath).1 = .ok jars) :
      o'.ending.status = 0 ∧
        ∃ rest, o'.output = varLine "PRODUCT_BOOTCLASSPATH" (":".intercalate jars) ++ rest := by
    obtain ⟨locations, servers, modules, hask⟩ := vars_of_boot (hfresh s) hjars
    obtain ⟨hending, houtput, -⟩ := h'.success hs (.makeVars (Prod.ext hask rfl))
    refine ⟨hending ▸ rfl, _, houtput.trans (String.join_cons ..)⟩
  constructor
  case succeed_together =>
    constructor
    · intro hzero
      obtain ⟨s, out, τ, hs, hanswered⟩ := h.succeeds_iff.mp hzero
      cases hanswered with
      | bootClasspath hask => exact (hvars hs (congrArg Prod.fst hask)).1
    · intro hzero
      obtain ⟨s, out, τ, hs, hanswered⟩ := h'.succeeds_iff.mp hzero
      cases hanswered with
      | makeVars hask =>
        obtain ⟨jars, hjars⟩ := boot_of_vars (hfresh s) (congrArg Prod.fst hask)
        exact h.succeeds_iff.mpr ⟨s, _, _, hs, .bootClasspath (Prod.ext hjars rfl)⟩
  case joined =>
    intro hzero
    obtain ⟨s, out, τ, hs, hanswered⟩ := h.succeeds_iff.mp hzero
    obtain ⟨-, houtput, -⟩ := h.success hs hanswered
    cases hanswered with
    | bootClasspath hask =>
      obtain ⟨-, rest, hrest⟩ := hvars hs (congrArg Prod.fst hask)
      exact ⟨s, _, rest, hs, congrArg Prod.fst hask, houtput, hrest⟩

end Run
end Preopt
