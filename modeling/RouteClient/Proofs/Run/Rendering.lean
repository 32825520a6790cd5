import RouteClient.Proofs.Outcome
import RouteClient.Run.Generate

/-!
# Rendering the modules of a run

A run renders each module by itself and collects the files in the order of the plan. It comes to the
same files and the same failure as generating them one after the other (`Run.renderModules_eq`).
-/

namespace RouteClient

namespace Run

/-- Collecting what was rendered stops where a traversal does. -/
theorem collect_map {α : Type} (render : α → Except Failure SourceFile) (items : List α)
    (code : SourceFiles) :
    collect code (items.map render) =
      (items.mapM render).map fun files => SourceFiles.mk (code.files ++ files) := by
  induction items generalizing code with
  | nil => simp [collect, pure, Except.pure, Except.map]
  | cons item items ih =>
      rw [List.map_cons, collect, List.mapM_cons]
      cases render item with
      | error failure => rfl
      | ok file =>
          simp only [bind, Except.bind, ih, SourceFiles.add]
          cases items.mapM render with
          | error failure => rfl
          | ok files => simp [pure, Except.pure, Except.map]

/-- Rendering modules one by one gives what generating gives. -/
theorem renderModules_eq (s : Settings) (routes : List Route) :
    renderModules s routes = (do s.validate; generate s routes) := by
  have collected (plan : ModulePlan) : collect {} (plan.map (ModuleUnit.file s)) =
      (plan.mapM (ModuleUnit.file s)).map SourceFiles.mk := by
    rw [collect_map]
    rfl
  unfold renderModules generate ModulePlan.files
  simp only [collected]
  cases s.validate with
  | error failure => rfl
  | ok done =>
      cases ModulePlan.ofRoutes routes with
      | error failure => rfl
      | ok plan =>
          cases made : plan.mapM (ModuleUnit.file s) <;>
            simp [bind, Except.bind, Except.map, made]

/-- Modules are rendered when the settings are valid and the routes can be generated. -/
theorem renderModules_eq_ok {s : Settings} {routes : List Route} {code : SourceFiles} :
    renderModules s routes = .ok code ↔ s.validate = .ok () ∧ generate s routes = .ok code := by
  rw [renderModules_eq, Outcome.bind_eq_ok]
  exact ⟨fun ⟨_, valid, made⟩ => ⟨valid, made⟩, fun ⟨valid, made⟩ => ⟨(), valid, made⟩⟩

variable {plan : RunPlan} {loaded : List Route} {p : Prepared}

/-- What is prepared are the files that are generated for the routes that are not left out. -/
theorem prepareFrom_eq_ok : prepareFrom plan loaded = .ok p ↔
    ∃ code, plan.settings.validate = .ok () ∧
      generate plan.settings (remaining plan.exclude loaded) = .ok code ∧
        p = ⟨plan, loaded.length, remaining plan.exclude loaded, code⟩ := by
  simp only [prepareFrom, liftFailure, Outcome.bind_eq_ok, Outcome.mapError_eq_ok,
    renderModules_eq_ok, and_assoc]
  apply exists_congr
  intro code
  apply and_congr_right
  intro _
  apply and_congr_right
  intro _
  exact ⟨fun same => (Except.ok.inj same).symm, fun same => congrArg Except.ok same.symm⟩

/-- A run is prepared when its options are resolved, its inputs are loaded and its files are
generated. -/
theorem prepare_eq_ok {options : GenerateOptions} {cwd : String} {root : FileNode} :
    prepare options cwd root = .ok p ↔ ∃ plan loaded, RunPlan.resolve options cwd root = .ok plan ∧
      loadRoutes root plan.inputs = .ok loaded ∧ prepareFrom plan loaded = .ok p := by
  simp only [prepare, Outcome.bind_eq_ok]
  exact ⟨fun ⟨plan, resolved, loaded, loads, made⟩ => ⟨plan, loaded, resolved, loads, made⟩,
    fun ⟨plan, loaded, resolved, loads, made⟩ => ⟨plan, resolved, loaded, loads, made⟩⟩

/-- What a run has prepared is generated from its routes. -/
theorem generate_of_prepare {options : GenerateOptions} {cwd : String} {root : FileNode}
    (prepared : prepare options cwd root = .ok p) :
    generate p.plan.settings p.routes = .ok p.code := by
  obtain ⟨plan, loaded, _, _, made⟩ := prepare_eq_ok.mp prepared
  obtain ⟨code, _, generated, rfl⟩ := prepareFrom_eq_ok.mp made
  exact generated

end Run

end RouteClient
