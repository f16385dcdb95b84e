import Harvest.Extraction

/-!
# A run

A run extracts the configured entities. An entity that fails gets a result that tells
so, and the others are extracted all the same. At the end the report is saved.
-/

namespace Harvest.Run

/-- Extracts an entity; an error becomes its result. -/
def resultOf (c : RunContext) (e : EntityOptions) : Program services TaskResult :=
  (Extraction.extract c e).run.bind fun
    | .ok result => .done result
    | .error error =>
      (Program.request (S := services) (.tellFailure e.name error)).bind fun _ =>
        .done (TaskResult.failure e.name error.message)

/-- The results of entities that are extracted one after the other. -/
def resultsOf (c : RunContext) : List EntityOptions → Program services (List TaskResult)
  | [] => .done []
  | e :: rest =>
    (resultOf c e).bind fun result =>
      (resultsOf c rest).bind fun results => .done (result :: results)

/-- Saves the report of the results of a run that was begun at some time. -/
def conclude (c : RunContext) (begun : Float) (results : List TaskResult) :
    Engine (List TaskResult) := do
  let ended ← Engine.clock
  Engine.saveReport c.configuration.output.directory
    ⟨c.run, c.settings.operation, results, ended - begun⟩
  pure results

/-- Extracts all entities and saves the report. -/
def execute (c : RunContext) : Engine (List TaskResult) := do
  let begun ← Engine.clock
  let results ← Engine.ofTotal (resultsOf c c.configuration.entities)
  conclude c begun results

/-- The context of a run. A database is needed where a catalog is attached. -/
def contextOf (configuration : Configuration) (run : String) (attached : Bool) (patience : Nat) :
    Except ConfigFault RunContext :=
  (Settings.ofOptions configuration.extract).map fun settings =>
    { run, configuration, settings, patience,
      database := if attached then configuration.catalog.map CatalogOptions.database else none }

end Harvest.Run
