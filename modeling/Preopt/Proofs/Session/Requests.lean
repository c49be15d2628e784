import Preopt.Proofs.Build.Derivation
import Preopt.Session

/-! What requests on a session store and return. Whatever the request, slots grow as its own
supplies allow, and an answer shows values that stand in slots. -/

namespace Preopt.Session

open Once

theorem perform_of_on {σ : Session} {α : Type} {m : Work Error α} {result : Except Error α}
    {l : Ledger} (h : Work.on m σ.ledger = (result, l)) :
    σ.perform m = (result, { σ with ledger := l }) := by
  rw [Work.on] at h
  rw [perform, h]

theorem on_ask (σ : Session) {α : Type} (r : Request α) :
    Work.on (r.work σ.settings σ.files) σ.ledger = ((σ.ask r).1, (σ.ask r).2.ledger) :=
  rfl

def Request.IsDerivation {α : Type} : Request α → Prop
  | .inject _ | .load _ | .depend _ => False
  | _ => True

def Request.supply {α : Type} : Request α → Build.Supply
  | .inject config => { config := (· = config) }
  | .image v => { profile := fun name p => name = (Key.image v).name ∧ p = v.profile }
  | .customImage key p => { profile := fun name p' => name = key ∧ p' = p }
  | .bootClasspath | .makeVars | .exportMakeVars _ _ =>
    { profile := fun name p => name = (Key.image .default).name ∧ p = Variant.default.profile }
  | .globalConfig | .systemServerClasspath | .load _ | .depend _ => {}

/-- An answer in terms of what the slots hold after it. -/
def Request.Shows (files : FileTree) (l : Ledger) {α : Type} : Request α → α → Prop
  | .globalConfig, r => l.value? Key.globalConfig = some r
  | .inject config, _ =>
    l.value? Key.injectedConfig = some (⟨config, none, .injected⟩ : Resolved)
  | .image v, i => l.value? ⟨.image, (Key.image v).name⟩ = some i
  | .customImage key _, i => l.value? ⟨.image, key⟩ = some i
  | .systemServerClasspath, v => l.value? Key.systemServerClasspath = some v
  | .bootClasspath, v => l.value? Key.bootClasspath = some v
  | .makeVars, vars => Build.ShowsVars l vars
  | .exportMakeVars strict receiver, sent =>
    ∃ vars, Build.ShowsVars l vars ∧ sent = MakeVars.send strict receiver vars
  | .load path, pair => Build.contents files path = .ok pair
  | .depend _, _ => True

theorem Request.Shows.mono {files : FileTree} {l l' : Ledger}
    (keeps : ∀ {k : Key} {v : k.Value}, l.value? k = some v → l'.value? k = some v) {α : Type}
    {r : Request α} {a : α} (h : r.Shows files l a) : r.Shows files l' a := by
  have hvars {vars} : Build.ShowsVars l vars → Build.ShowsVars l' vars := by
    rintro ⟨boot, image, systemServer, hb, hi, hv, hvars⟩
    exact ⟨boot, image, systemServer, keeps hb, keeps hi, keeps hv, hvars⟩
  cases r with
  | makeVars => exact hvars h
  | exportMakeVars strict receiver =>
    obtain ⟨vars, hv, hsent⟩ := h
    exact ⟨vars, hvars hv, hsent⟩
  | load path => exact h
  | depend path => trivial
  | _ => exact keeps h

theorem Request.work_ensures {α : Type} (r : Request α) (s : Settings) (files : FileTree)
    (l : Ledger) : ∃ ks, Work.Ensures (Build.Grows s files r.supply ks)
      (fun a l' => r.Shows files l' a) (r.work s files) l := by
  cases r with
  | globalConfig => exact ⟨_, Build.globalConfig_ensures l⟩
  | inject config => exact ⟨_, Build.inject_ensures rfl l⟩
  | image v => exact ⟨_, Build.imageWith_ensures (by exact ⟨rfl, rfl⟩) l⟩
  | customImage key p => exact ⟨_, Build.imageWith_ensures (by exact ⟨rfl, rfl⟩) l⟩
  | systemServerClasspath => exact ⟨_, Build.systemServerClasspath_ensures l⟩
  | bootClasspath => exact ⟨_, Build.bootClasspath_ensures (by exact ⟨rfl, rfl⟩) l⟩
  | makeVars => exact ⟨_, Build.makeVars_ensures (by exact ⟨rfl, rfl⟩) l⟩
  | exportMakeVars strict receiver =>
    exact ⟨_, Build.exportMakeVars_ensures strict receiver (by exact ⟨rfl, rfl⟩) l⟩
  | load path => exact ⟨[], Build.loadConfig_ensures path l⟩
  | depend path => exact ⟨[], .of_on rfl (.depend path) fun _ _ => trivial⟩

end Preopt.Session
