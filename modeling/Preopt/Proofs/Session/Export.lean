import Preopt.Proofs.Assoc
import Preopt.Proofs.Session.Runs

/-! Calls on a receiver of make variables. All derivations are made before the first call, so that a
failing one leaves the receiver as it was, and the calls that follow cannot fail. What a map holds
besides the variables is neither changed nor moved, and a second export finds its own values. -/

namespace Preopt

open Once

/-- Work that calls a receiver as it goes. Like what it wrote to the ledger, a call that was made
before a failure stays made. -/
abbrev Calling (ρ : Type) := ExceptT Error (StateM (ρ × Ledger))

namespace Calling

variable {ρ α β : Type}

def on (m : Calling ρ α) (receiver : ρ) (l : Ledger) : Except Error α × ρ × Ledger :=
  m.run.run (receiver, l)

def ofWork (m : Work Error α) : Calling ρ α :=
  ExceptT.mk fun state => ((Work.on m state.2).1, state.1, (Work.on m state.2).2)

def call (strict : ρ → String → String → ρ) (name value : String) : Calling ρ Unit :=
  modify fun state => (strict state.1 name value, state.2)

theorem on_ofWork_bind (m : Work Error α) (f : α → Calling ρ β) (receiver : ρ) (l : Ledger) :
    on (ofWork m >>= f) receiver l =
      match Work.on m l with
      | (.ok a, l') => on (f a) receiver l'
      | (.error e, l') => (.error e, receiver, l') := by
  change (ExceptT.bindCont f (Work.on m l).1).run (receiver, (Work.on m l).2) = _
  obtain ⟨result, l'⟩ := Work.on m l
  cases result <;> rfl

end Calling

namespace Build

def exportTo (s : Settings) (files : FileTree) {ρ : Type} (strict : ρ → String → String → ρ) :
    Calling ρ Unit := do
  let boot ← Calling.ofWork (bootClasspath s files)
  let image ← Calling.ofWork (image s files .default)
  let systemServer ← Calling.ofWork (systemServerClasspath s files)
  Calling.call strict "PRODUCT_BOOTCLASSPATH" (MakeVars.joined boot)
  Calling.call strict "PRODUCT_DEX2OAT_BOOTCLASSPATH" (MakeVars.joined image.dexLocations)
  Calling.call strict "PRODUCT_SYSTEM_SERVER_CLASSPATH" (MakeVars.joined systemServer)
  Calling.call strict "DEXPREOPT_BOOT_JARS_MODULES" (MakeVars.joined image.modules)

variable {s : Settings} {files : FileTree}

theorem exportTo_on {ρ : Type} (strict : ρ → String → String → ρ) (receiver : ρ) (l : Ledger) :
    (exportTo s files strict).on receiver l =
      match Work.on (makeVars s files) l with
      | (.ok vars, l') => (.ok (), MakeVars.send strict receiver vars, l')
      | (.error e, l') => (.error e, receiver, l') := by
  rw [exportTo, Calling.on_ofWork_bind, makeVars, Work.on_bind]
  obtain ⟨e | boot, l₁⟩ := Work.on (bootClasspath s files) l
  · rfl
  · dsimp only
    rw [Calling.on_ofWork_bind, Work.on_bind]
    obtain ⟨e | image, l₂⟩ := Work.on (image s files .default) l₁
    · rfl
    · dsimp only
      rw [Calling.on_ofWork_bind, Work.on_bind]
      obtain ⟨e | systemServer, l₃⟩ := Work.on (systemServerClasspath s files) l₂
      · rfl
      · rfl

theorem makeVars_of_shown (s : Settings) (files : FileTree) {l : Ledger}
    {vars : List (String × String)} (h : ShowsVars l vars) :
    ∃ l', Work.on (makeVars s files) l = (.ok vars, l') := by
  obtain ⟨boot, i, systemServer, hboot, himage, hserver, rfl⟩ := h
  let l₁ := l.hit Key.bootClasspath
  let l₂ := l₁.hit (Key.image .default)
  have hboot : Work.on (bootClasspath s files) l = (.ok boot, l₁) := Work.once_of_filled hboot
  have himage : Work.on (image s files .default) l₁ = (.ok i, l₂) := by
    refine Work.once_of_filled (k := Key.image .default) ?_
    rw [Ledger.value?_hit, himage]
  have hserver : Work.on (systemServerClasspath s files) l₂ =
      (.ok systemServer, l₂.hit Key.systemServerClasspath) := by
    refine Work.once_of_filled ?_
    rw [Ledger.value?_hit, Ledger.value?_hit, hserver]
  -- Every slot answers from what it holds, so that nothing is derived again.
  refine ⟨l₂.hit Key.systemServerClasspath, ?_⟩
  rw [makeVars, Work.on_bind_ok hboot, Work.on_bind_ok himage, Work.on_bind_ok hserver]
  rfl

end Build

namespace MakeVars

def names : List String :=
  ["PRODUCT_BOOTCLASSPATH", "PRODUCT_DEX2OAT_BOOTCLASSPATH", "PRODUCT_SYSTEM_SERVER_CLASSPATH",
    "DEXPREOPT_BOOT_JARS_MODULES"]

def record (calls : List (String × String)) (name value : String) : List (String × String) :=
  calls ++ [(name, value)]

theorem send_record (before vars : List (String × String)) :
    send record before vars = before ++ vars := by
  induction vars generalizing before with
  | nil => simp [send]
  | cons v vars ih =>
    change send record (before ++ [v]) vars = _
    rw [ih, List.append_assoc, List.singleton_append]

end MakeVars

namespace Session

def exportTo (σ : Session) {ρ : Type} (strict : ρ → String → String → ρ) (receiver : ρ) :
    Except Error Unit × ρ × Session :=
  let (result, receiver', l) := (Build.exportTo σ.settings σ.files strict).on receiver σ.ledger
  (result, receiver', { σ with ledger := l })

def calls (σ : Session) : List (String × String) := (σ.exportTo MakeVars.record []).2.1

structure AllOrNothing (σ : Session) {ρ : Type} (strict : ρ → String → String → ρ)
    (receiver : ρ) : Prop where
  received : (σ.exportTo strict receiver).2.1 = MakeVars.send strict receiver σ.calls
  nothing : σ.calls = [] ↔ ∃ e, (σ.exportTo strict receiver).1 = .error e
  all : (σ.exportTo strict receiver).1 = .ok () →
    ∃ (boot : List String) (image : Image) (systemServer : List String),
      (σ.exportTo strict receiver).2.2.value? Key.bootClasspath = some boot ∧
      (σ.exportTo strict receiver).2.2.value? (Key.image .default) = some image ∧
      (σ.exportTo strict receiver).2.2.value? Key.systemServerClasspath = some systemServer ∧
      σ.calls =
        [("PRODUCT_BOOTCLASSPATH", MakeVars.joined boot),
          ("PRODUCT_DEX2OAT_BOOTCLASSPATH", MakeVars.joined image.dexLocations),
          ("PRODUCT_SYSTEM_SERVER_CLASSPATH", MakeVars.joined systemServer),
          ("DEXPREOPT_BOOT_JARS_MODULES", MakeVars.joined image.modules)]
  requested : σ.ask (.exportMakeVars strict receiver) =
    ((σ.exportTo strict receiver).1.map fun _ => (σ.exportTo strict receiver).2.1,
      (σ.exportTo strict receiver).2.2)

structure Framed (σ : Session) (entries : List (String × String)) : Prop where
  unchanged {e : Error} : (σ.exportTo Assoc.put entries).1 = .error e →
    (σ.exportTo Assoc.put entries).2.1 = entries
  keys : (σ.exportTo Assoc.put entries).1 = .ok () →
    Assoc.keys (σ.exportTo Assoc.put entries).2.1 =
      Assoc.keys entries ++ MakeVars.names.filter (· ∉ Assoc.keys entries)
  distinct : (Assoc.keys entries).Nodup →
    (Assoc.keys (σ.exportTo Assoc.put entries).2.1).Nodup
  held {name value : String} : (σ.exportTo Assoc.put entries).1 = .ok () →
    (name, value) ∈ σ.calls →
    Assoc.get? (σ.exportTo Assoc.put entries).2.1 name = some value
  other {name value : String} {n : Nat} : name ∉ MakeVars.names →
    entries[n]? = some (name, value) →
    (σ.exportTo Assoc.put entries).2.1[n]? = some (name, value)
  other_value {name : String} : name ∉ MakeVars.names →
    Assoc.get? (σ.exportTo Assoc.put entries).2.1 name = Assoc.get? entries name
  again (run : List Action) : (σ.exportTo Assoc.put entries).1 = .ok () →
    let σ' := (σ.exportTo Assoc.put entries).2.2.after run
    let entries' := (σ.exportTo Assoc.put entries).2.1
    (σ'.exportTo Assoc.put entries').1 = .ok () ∧
      (σ'.exportTo Assoc.put entries').2.1 = entries'

section Export

variable {σ : Session} {ρ : Type} (strict : ρ → String → String → ρ) (receiver : ρ)

theorem on_makeVars {result : Except Error (List (String × String))}
    (h : (σ.ask .makeVars).1 = result) :
    Work.on (Build.makeVars σ.settings σ.files) σ.ledger =
      (result, (σ.ask .makeVars).2.ledger) := by
  rw [← h]
  exact on_ask σ .makeVars

theorem exportTo_of_ok {vars : List (String × String)} (h : (σ.ask .makeVars).1 = .ok vars) :
    σ.exportTo strict receiver =
      (.ok (), MakeVars.send strict receiver vars, (σ.ask .makeVars).2) := by
  rw [exportTo, Build.exportTo_on, on_makeVars h]
  rfl

theorem exportTo_of_error {e : Error} (h : (σ.ask .makeVars).1 = .error e) :
    σ.exportTo strict receiver = (.error e, receiver, (σ.ask .makeVars).2) := by
  rw [exportTo, Build.exportTo_on, on_makeVars h]
  rfl

theorem calls_of_ok {vars : List (String × String)} (h : (σ.ask .makeVars).1 = .ok vars) :
    σ.calls = vars := by
  rw [calls, exportTo_of_ok MakeVars.record [] h]
  exact MakeVars.send_record [] vars

theorem calls_of_error {e : Error} (h : (σ.ask .makeVars).1 = .error e) : σ.calls = [] := by
  rw [calls, exportTo_of_error MakeVars.record [] h]

theorem ask_exportMakeVars_of_ok {vars : List (String × String)}
    (h : (σ.ask .makeVars).1 = .ok vars) :
    σ.ask (.exportMakeVars strict receiver) =
      (.ok (MakeVars.send strict receiver vars), (σ.ask .makeVars).2) :=
  perform_of_on (Work.on_bind_ok (on_makeVars h))

theorem ask_exportMakeVars_of_error {e : Error} (h : (σ.ask .makeVars).1 = .error e) :
    σ.ask (.exportMakeVars strict receiver) = (.error e, (σ.ask .makeVars).2) :=
  perform_of_on (Work.on_bind_error (on_makeVars h))

theorem allOrNothing (σ : Session) : AllOrNothing σ strict receiver := by
  cases h : (σ.ask .makeVars).1 with
  | error e =>
    have hexport := exportTo_of_error strict receiver h
    have hcalls := calls_of_error h
    constructor
    case received => rw [hexport, hcalls]; rfl
    case nothing => exact iff_of_true hcalls ⟨e, by rw [hexport]⟩
    case all =>
      intro hok
      rw [hexport] at hok
      cases hok
    case requested => rw [ask_exportMakeVars_of_error strict receiver h, hexport]; rfl
  | ok vars =>
    have hexport := exportTo_of_ok strict receiver h
    have hcalls := calls_of_ok h
    obtain ⟨boot, image, systemServer, hboot, himage, hserver, hvars⟩ := ask_shows h
    constructor
    case received => rw [hexport, hcalls]
    case nothing =>
      refine iff_of_false ?_ ?_
      · rw [hcalls, hvars]
        exact List.cons_ne_nil _ _
      · rintro ⟨e, he⟩
        rw [hexport] at he
        cases he
    case all =>
      intro _
      rw [hexport]
      exact ⟨boot, image, systemServer, hboot, himage, hserver, hcalls.trans hvars⟩
    case requested => rw [ask_exportMakeVars_of_ok strict receiver h, hexport]; rfl

end Export

section Map

variable {σ : Session} {vars entries : List (String × String)}

theorem names_of_makeVars (h : (σ.ask .makeVars).1 = .ok vars) :
    vars.map Prod.fst = MakeVars.names := by
  obtain ⟨boot, image, systemServer, -, -, -, rfl⟩ := ask_shows h
  rfl

theorem names_nodup : MakeVars.names.Nodup := by decide

theorem makeVars_after (h : (σ.ask .makeVars).1 = .ok vars) (run : List Action) :
    (((σ.ask .makeVars).2.after run).ask .makeVars).1 = .ok vars := by
  let σ' := (σ.ask .makeVars).2.after run
  have hshown : (Request.makeVars).Shows σ.files (σ.ask .makeVars).2.ledger vars := ask_shows h
  have hlater : Build.ShowsVars σ'.ledger vars :=
    Request.Shows.mono (r := .makeVars) (fun hv => after_keeps hv run) hshown
  obtain ⟨l, hon⟩ := Build.makeVars_of_shown σ'.settings σ'.files hlater
  have hask : σ'.ask .makeVars = _ := perform_of_on hon
  rw [hask]

theorem get?_send_put (h : (vars.map Prod.fst).Nodup) {v : String × String} (hv : v ∈ vars) :
    Assoc.get? (MakeVars.send Assoc.put entries vars) v.1 = some v.2 := by
  have hvalue : ∀ v ∈ vars, ∀ v' ∈ vars, v.1 = v'.1 → v.2 = v'.2 := by
    intro v hv v' hv' hname
    rw [List.inj_on_of_nodup_map h hv hv' hname]
  exact Assoc.get?_foldl_put hvalue hv

theorem framed_of_error {e : Error} (h : (σ.ask .makeVars).1 = .error e) :
    Framed σ entries := by
  have hexport := exportTo_of_error Assoc.put entries h
  have hfails : (σ.exportTo Assoc.put entries).1 ≠ .ok () := by
    rw [hexport]
    rintro ⟨⟩
  constructor
  case unchanged => exact fun _ => by rw [hexport]
  case keys => exact fun hok => absurd hok hfails
  case distinct => exact fun hn => by rwa [hexport]
  case held => exact fun hok => absurd hok hfails
  case other => exact fun _ hentry => by rwa [hexport]
  case other_value => exact fun _ => by rw [hexport]
  case again => exact fun run hok => absurd hok hfails

theorem framed_of_ok (h : (σ.ask .makeVars).1 = .ok vars) : Framed σ entries := by
  have hexport := exportTo_of_ok Assoc.put entries h
  have hnames := names_of_makeVars h
  have hnodup : (vars.map Prod.fst).Nodup := hnames ▸ names_nodup
  constructor
  case unchanged =>
    intro e he
    rw [hexport] at he
    cases he
  case keys =>
    intro _
    rw [hexport, ← hnames]
    exact Assoc.keys_foldl_put_of_nodup hnodup
  case distinct =>
    intro hn
    rw [hexport]
    exact Assoc.nodup_keys_foldl_put hn
  case held =>
    intro name value _ hcall
    rw [calls_of_ok h] at hcall
    rw [hexport]
    exact get?_send_put hnodup hcall
  case other =>
    intro name value n hname hentry
    rw [hexport]
    exact Assoc.getElem?_foldl_put_of_notMem (hnames ▸ hname) hentry
  case other_value =>
    intro name hname
    rw [hexport]
    exact Assoc.get?_foldl_put_of_notMem (hnames ▸ hname)
  case again =>
    intro run _ σ' entries'
    have hlater : (σ'.ask .makeVars).1 = .ok vars := by
      have hafter := makeVars_after h run
      rwa [show σ' = (σ.ask .makeVars).2.after run from congrArg (after · run) (by rw [hexport])]
    have hentries : entries' = MakeVars.send Assoc.put entries vars := by
      rw [show entries' = (σ.exportTo Assoc.put entries).2.1 from rfl, hexport]
    rw [exportTo_of_ok Assoc.put entries' hlater]
    refine ⟨rfl, Assoc.foldl_put_of_get? fun v hv => ?_⟩
    rw [hentries]
    exact get?_send_put hnodup hv

theorem framed (σ : Session) (entries : List (String × String)) : Framed σ entries := by
  cases h : (σ.ask .makeVars).1 with
  | error e => exact framed_of_error h
  | ok vars => exact framed_of_ok h

end Map

/-- An export is all or nothing to any receiver, and a map keeps whatever else it holds. -/
theorem export_framed (σ : Session) :
    (∀ {ρ : Type} (strict : ρ → String → String → ρ) (receiver : ρ),
      AllOrNothing σ strict receiver) ∧
    ∀ entries : List (String × String), Framed σ entries :=
  ⟨fun strict receiver => allOrNothing strict receiver σ, framed σ⟩

/-- A variable that is there already keeps its place before another entry. -/
example : ((start {} {}).exportTo Assoc.put
      [("DEXPREOPT_BOOT_JARS_MODULES", "old"), ("OTHER", "x")]).2.1 =
    [("DEXPREOPT_BOOT_JARS_MODULES", ""), ("OTHER", "x"), ("PRODUCT_BOOTCLASSPATH", ""),
      ("PRODUCT_DEX2OAT_BOOTCLASSPATH", ""), ("PRODUCT_SYSTEM_SERVER_CLASSPATH", "")] := by
  decide

end Session
end Preopt
