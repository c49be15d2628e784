import Preopt.Context
import Preopt.Proofs.Once.Alike

/-! Requests go alike on alike ledgers: none can tell how often others failed before it. -/

namespace Preopt.Build

open Once

variable (s : Settings) (files : FileTree)

theorem orThrow_respects {ε α : Type} (wrap : ε → Error) (outcome : Except ε α) :
    Work.Respects (orThrow wrap outcome) := by
  cases outcome with
  | ok a => exact .pure a
  | error e => exact .throw _

theorem loadConfig_respects (path : Path) : Work.Respects (loadConfig files path) :=
  .bind (orThrow_respects _ _) fun _ => .bind (orThrow_respects _ _) fun _ =>
    .bind (.update fun h => h.report _) fun _ => .pure _

theorem fromFile_respects (path : Path) : Work.Respects (fromFile files path) :=
  .bind (.update fun h => h.depend path) fun _ => .bind (loadConfig_respects files path) fun _ =>
    .bind (orThrow_respects _ _) fun _ => .pure _

theorem fromInjection_respects : Work.Respects fromInjection :=
  .once (.bind (.update fun h => h.report _) fun _ => .pure _)

theorem globalConfig_respects : Work.Respects (globalConfig s files) := by
  refine .once (.get_bind (fun l => ?_) fun l l' h => by rw [h.contains])
  have hrest (r : Resolved) : Work.Respects (do
      Work.update (·.count .addConfig)
      Work.update (·.report (.configResolved r.source r.config.bootJars.length
        r.config.artApexJars.length r.config.disablePreopt))
      return r : Work Error Resolved) :=
    .bind (.update fun h => h.count _ fun _ => rfl) fun _ =>
      .bind (.update fun h => h.report _) fun _ => .pure r
  simp only
  split
  · exact .bind (fromFile_respects files _) hrest
  · exact .bind fromInjection_respects hrest

theorem inject_respects (config : GlobalConfig) : Work.Respects (inject config) := by
  refine .get_bind (fun l => ?_) fun l l' h => by rw [h.contains]
  split
  · exact .throw _
  · refine .bind (orThrow_respects _ _) fun _ => .bind (.insert _ _) fun stored => ?_
    cases stored with
    | true => exact .pure _
    | false => exact .throw _

theorem imageWith_respects (name : String) (p : Profile) :
    Work.Respects (imageWith s files name p) :=
  .once (.bind (globalConfig_respects s files) fun _ =>
    .bind (.update fun h => h.count _ fun _ => rfl) fun _ =>
      .bind (.update fun h => h.report _) fun _ => .pure _)

theorem systemServerClasspath_respects : Work.Respects (systemServerClasspath s files) :=
  .once (.bind (globalConfig_respects s files) fun _ => orThrow_respects _ _)

theorem bootClasspath_respects : Work.Respects (bootClasspath s files) :=
  .once (.bind (globalConfig_respects s files) fun _ =>
    .bind (imageWith_respects s files _ _) fun _ => .pure _)

theorem makeVars_respects : Work.Respects (makeVars s files) :=
  .bind (bootClasspath_respects s files) fun _ =>
    .bind (imageWith_respects s files _ _) fun _ =>
      .bind (systemServerClasspath_respects s files) fun _ => .pure _

theorem exportMakeVars_respects {ρ : Type} (strict : ρ → String → String → ρ) (receiver : ρ) :
    Work.Respects (exportMakeVars s files strict receiver) :=
  .bind (makeVars_respects s files) fun _ => .pure _

end Preopt.Build
