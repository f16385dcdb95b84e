import Harvest.CommandLine.Program
import Harvest.Proofs.Disk.Joining
import Harvest.Proofs.Extraction.Publishing
import Harvest.Proofs.Report
import Harvest.Proofs.Staging.Calls
import Harvest.Proofs.Text.Digits

/-!
# Entities that keep apart

Two entities write the same file just if their names lead to the same directory of the output, and
register the same table just if their names are the same but for the case of letters. A
configuration is not checked for that. If no two entities of it do (`Configuration.Apart`), then
they can be extracted at the same time: each file has the rows of its own entity, and each table is
asked for by its own entity (`Run.entities_keep_apart`).
-/

namespace Harvest

open Program (Trace Exchange)
open Disk (Place)
open Disk.Memory (lead)
open Local (Places State Crew outputPlace)

section Naming

theorem Text.allDigits_padded (width n : Nat) : AllDigits (padded width n) := by
  refine AllDigits.append (fun c hc => ?_) (allDigits_digits n)
  rw [List.eq_of_mem_replicate hc]
  exact ⟨0, rfl⟩

theorem Text.AllDigits.slash_not_mem {s : List Char} (h : AllDigits s) : '/' ∉ s := by
  intro hslash
  obtain ⟨d, hd⟩ := h '/' hslash
  cases hd

theorem Calendar.slash_not_mem_fieldText (t : DateTime) (f : Field) : '/' ∉ fieldText t f := by
  cases f with
  | year =>
    rw [fieldText, yearText]
    split
    · exact (Text.allDigits_padded _ _).slash_not_mem
    · refine fun h => (List.mem_cons.1 h).elim (fun hsign => ?_)
        (Text.allDigits_padded _ _).slash_not_mem
      split at hsign <;> cases hsign
  | _ => exact (Text.allDigits_padded _ _).slash_not_mem

/-- The name of a run is a part of one name of a path. -/
theorem CommandLine.slash_not_mem_runName (t : DateTime) : '/' ∉ (runName t).toList := by
  rw [runName, String.toList_ofList]
  intro h
  obtain ⟨item, hitem, hmem⟩ := List.mem_flatMap.1 h
  cases item with
  | field f => exact Calendar.slash_not_mem_fieldText t f hmem
  | literal c =>
    obtain rfl := List.mem_singleton.1 hmem
    simp [runPattern, Watermark.dateDigits] at hitem

/-- The file of an entity lies below the directory of its name. -/
theorem Local.outputPlace_eq (places : Places) (home : Place) (entity : String) {run : String}
    (hrun : '/' ∉ run.toList) :
    outputPlace places home entity run =
      (if places.compressed then "part-00000.csv.gz" else "part-00000.csv") ::
        ("run_id=" ++ run) :: lead home (Path.join places.output entity) := by
  have hne (other : String) (h : other.toList.head? ≠ some 'r') : "run_id=" ++ run ≠ other := by
    rintro rfl
    simp at h
  have hdirectory : Path.IsPlain ("run_id=" ++ run) :=
    ⟨by simpa using hrun, hne "." (by decide), hne ".." (by decide)⟩
  have hfile : Path.IsPlain (if places.compressed then "part-00000.csv.gz" else "part-00000.csv") ∧
      (if places.compressed then "part-00000.csv.gz" else "part-00000.csv") ≠ "" := by
    cases places.compressed <;> exact ⟨⟨by decide, by decide, by decide⟩, by decide⟩
  rw [outputPlace, Sink.start]
  dsimp only
  rw [Disk.Memory.lead_join_of_isPlain _ _ hfile.1 hfile.2,
    Disk.Memory.lead_join_of_isPlain _ _ hdirectory (hne "" (by decide))]

end Naming

namespace Configuration

theorem forM_eq_ok {α ε : Type} {f : α → Except ε Unit} {l : List α}
    (h : (l.forM f : Except ε Unit) = .ok ()) : ∀ x ∈ l, f x = .ok () := by
  induction l with
  | nil => exact List.forall_mem_nil _
  | cons x l ih =>
    rw [List.forM] at h
    cases hx : f x with
    | error e =>
      rw [hx] at h
      cases h
    | ok u =>
      rw [hx] at h
      exact List.forall_mem_cons.2 ⟨hx, ih h⟩

/-- A configuration that is accepted has names for its entities. -/
theorem name_ne_of_check {b : Configuration} {settings : Settings} (h : b.check = .ok settings) :
    ∀ e ∈ b.entities, e.name ≠ "" := by
  have heach : ∀ e ∈ b.entities, checkEntity e = .ok () := by
    apply forM_eq_ok
    rw [check] at h
    split at h
    · cases h
    split at h
    · cases h
    split at h
    · cases h
    cases heach : (b.entities.forM checkEntity : Except ConfigFault Unit) with
    | error fault =>
      rw [heach] at h
      cases h
    | ok u => rfl
  intro e he hname
  have hnamed := heach e he
  rw [checkEntity, hname] at hnamed
  cases hnamed

theorem sublist_overriddenBy (b : Configuration) (a : Arguments) :
    (b.overriddenBy a).entities.Sublist b.entities := by
  rw [overriddenBy]
  dsimp only
  split
  · exact .refl _
  · exact List.filter_sublist

end Configuration

section Registering

/-- The key of the table that a request to the catalog is about. -/
def Request.tableKey? : Request → Option (String × String)
  | .getTable database name => some (database, name)
  | .createTable t => some (t.database, t.name)
  | .alterTable t => some (t.database, t.name)
  | .getPartition database name _ => some (database, name)
  | .addPartition database name _ => some (database, name)
  | .alterPartition database name _ => some (database, name)
  | _ => none

/-- The request is about no other table. -/
def Request.Concerns (t : Catalog.Table) (r : Request) : Prop :=
  ∀ key ∈ r.tableKey?, key = (t.database, t.name)

theorem tableKey?_eq_none {r : Request} (h : r.kind ≠ .catalog) : r.tableKey? = none := by
  cases r <;> first | rfl | exact absurd rfl h

namespace Catalog

open Program (MakesOnly)

variable (t : Table)

/-- A request about the table of a key. -/
theorem concerns_request {r : Request} (h : r.tableKey? = some (t.database, t.name)) :
    (Program.request (S := services) r).MakesOnly (Request.Concerns t) :=
  ⟨fun _ hkey => Option.some.inj (hkey.symm.trans h), fun _ => trivial⟩

theorem concerns_registerTable :
    MakesOnly (S := services) (Request.Concerns t) (registerTable t) := by
  refine .andThen (concerns_request t rfl) fun found => ?_
  cases found with
  | none => exact .andThen (concerns_request t rfl) fun _ => trivial
  | some existing =>
    dsimp only
    split
    · trivial
    · exact .andThen (concerns_request t rfl) fun _ => trivial

theorem concerns_registerPartition (p : Partition) :
    MakesOnly (S := services) (Request.Concerns t) (registerPartition t p) := by
  rw [registerPartition]
  split
  · trivial
  · refine .andThen (concerns_request t rfl) fun found => ?_
    cases found with
    | none => exact .andThen (concerns_request t rfl) fun _ => trivial
    | some existing =>
      dsimp only
      split
      · trivial
      · exact .andThen (concerns_request t rfl) fun _ => trivial

theorem Registration.concerns {t : Table} {p : Partition} {log : List (Exchange services)}
    {result : Except ExtractError Unit} (h : Registration t p log result) :
    ∀ x ∈ log, x.request.Concerns t := by
  cases h with
  | refused _ _ htable => exact (concerns_registerTable t).of_trace htable
  | unplaced _ _ _ _ htable hpartition
  | placed _ _ _ _ htable hpartition =>
    exact List.forall_mem_append.2 ⟨(concerns_registerTable t).of_trace htable,
      (concerns_registerPartition t p).of_trace hpartition⟩

end Catalog

namespace Run

variable {c : RunContext} {e f : EntityOptions} {log log' : List (Exchange services)}
  {result result' : TaskResult}

/-- The catalog is asked for no table but the one of the name of the entity in lower case. -/
theorem tableKey_of_trace_resultOf (ht : Trace (resultOf c e) log result) :
    ∀ x ∈ log, ∀ key ∈ x.request.tableKey?,
      c.database = some key.1 ∧ key.2 = Text.lower e.name := by
  intro x hx key hkey
  have hcatalog : x.request.kind = .catalog := by
    by_contra hkind
    rw [tableKey?_eq_none hkind] at hkey
    cases hkey
  rcases shape_of_trace_resultOf ht with
    ⟨hnone, -⟩ | ⟨w, t, p, asked, ending, outcome, hdone, hdescribes, rfl, hending, hasked, -⟩
  · exact absurd hcatalog (hnone x hx)
  · rcases List.mem_append.1 hx with hx | hx
    · exact absurd hcatalog (hdone.unpublished x hx)
    rcases List.mem_append.1 hx with hx | hx
    · rw [hasked.concerns x hx key hkey]
      exact ⟨hdescribes.database, hdescribes.name⟩
    · exact absurd hcatalog (hending x hx)

/-- Two entities of a run ask for the same table just if their names are the same in lower case. -/
theorem tableKey_eq_iff (ht : Trace (resultOf c e) log result)
    (ht' : Trace (resultOf c f) log' result') :
    ∀ x ∈ log, ∀ y ∈ log', ∀ key ∈ x.request.tableKey?, ∀ key' ∈ y.request.tableKey?,
      key = key' ↔ Text.lower e.name = Text.lower f.name := by
  intro x hx y hy key hkey key' hkey'
  obtain ⟨hdatabase, hname⟩ := tableKey_of_trace_resultOf ht x hx key hkey
  obtain ⟨hdatabase', hname'⟩ := tableKey_of_trace_resultOf ht' y hy key' hkey'
  rw [← hname, ← hname']
  exact ⟨congrArg Prod.snd, fun h =>
    Prod.ext (Option.some.inj (hdatabase.symm.trans hdatabase')) h⟩

end Run

end Registering

/-- The names of the entities differ, whatever the case of letters, and lead to different
directories from the root of the output. -/
structure Configuration.Apart (b : Configuration) (root : String) (home : Place) : Prop where
  names : (b.entities.map fun e => Text.lower e.name).Nodup
  directories : (b.entities.map fun e => lead home (Path.join root e.name)).Nodup

theorem Configuration.Apart.sublist {b d : Configuration} {root : String} {home : Place}
    (h : b.Apart root home) (hd : d.entities.Sublist b.entities) : d.Apart root home :=
  ⟨(hd.map _).nodup h.names, (hd.map _).nodup h.directories⟩

namespace Run

variable {c : RunContext} {places : Places}

theorem contextOf_eq_ok {d : Configuration} {run : String} {attached : Bool} {patience : Nat}
    (h : contextOf d run attached patience = .ok c) : c.run = run ∧ c.configuration = d := by
  rw [contextOf] at h
  cases hsettings : Settings.ofOptions d.extract with
  | error fault =>
    rw [hsettings] at h
    cases h
  | ok settings =>
    rw [hsettings] at h
    cases h
    exact ⟨rfl, rfl⟩

/-- Whoever is done by now has asked for no table that another one has asked for, and the file of
each entity that was extracted holds just its rows. -/
structure Isolated (c : RunContext) (places : Places)
    (s : Crew (Fin c.configuration.entities.length)
      (List (Exchange services) × TaskResult × State)) : Prop where
  tables : ∀ i j log result state log' result' state', s.programs i = .done (log, result, state) →
    s.programs j = .done (log', result', state') → i ≠ j →
    ∀ x ∈ log, ∀ y ∈ log', ∀ key ∈ x.request.tableKey?, key ∉ y.request.tableKey?
  files : ∀ i log result state, s.programs i = .done (log, result, state) →
    Trace (resultOf c (c.configuration.entities.get i)) log result ∧
      (result.status = TaskResult.successStatus → ∃ p, Filed c places (state, s.machine)
        ⟨c.configuration.entities.get i, log, result⟩ p)

theorem isolated_of_steps {m : Machine.Memory} {s : Crew _ _}
    (hplaces : Function.Injective (place c places m.disk.home))
    (hnames : (c.configuration.entities.map fun e => Text.lower e.name).Nodup)
    (hsteps : Relation.ReflTransGen (Crew.Step (place c places m.disk.home)) (crew c places m) s) :
    Isolated c places s where
  tables i j log result state log' result' state' hi hj hne x hx y hy key hkey hkey' := by
    obtain ⟨hti, -⟩ := matches_of_steps hplaces hsteps hi
    obtain ⟨htj, -⟩ := matches_of_steps hplaces hsteps hj
    have hsame := (tableKey_eq_iff hti htj x hx y hy key hkey key hkey').1 rfl
    exact hne (injective_get_of_nodup_map hnames hsame)
  files i log result state hdone := by
    obtain ⟨ht, -, hfiled | hfailed⟩ := matches_of_steps hplaces hsteps hdone
    · exact ⟨ht, fun _ => hfiled⟩
    · have hdiffer : TaskResult.failedStatus ≠ TaskResult.successStatus := by decide
      exact ⟨ht, fun hsuccess => absurd (hfailed.status.symm.trans hsuccess) hdiffer⟩

/-- The entities of a configuration that is accepted, or of what the arguments leave of it. Any two
write the same file just if their names lead to the same directory, and register the same table just
if their names are the same in lower case. If neither is so for any two of them, they may be
extracted at the same time, or in any order: no two ask for the same table, and the file of each
one that succeeds holds just its rows. -/
theorem entities_keep_apart (b : Configuration) (settings : Settings)
    (hcheck : b.check = .ok settings) (d : Configuration)
    (hd : d = b ∨ ∃ a, d = b.overriddenBy a) (t : DateTime) (attached : Bool) (patience : Nat)
    (hc : contextOf d (CommandLine.runName t) attached patience = .ok c) (places : Places)
    (m : Machine.Memory) :
    (∀ e f : EntityOptions,
      (outputPlace places m.disk.home e.name c.run = outputPlace places m.disk.home f.name c.run ↔
        lead m.disk.home (Path.join places.output e.name) =
          lead m.disk.home (Path.join places.output f.name)) ∧
      ∀ log result log' result', Trace (resultOf c e) log result →
        Trace (resultOf c f) log' result' →
        ∀ x ∈ log, ∀ y ∈ log', ∀ key ∈ x.request.tableKey?, ∀ key' ∈ y.request.tableKey?,
          key = key' ↔ Text.lower e.name = Text.lower f.name) ∧
    (∀ e ∈ d.entities, ∀ f ∈ d.entities, Path.IsPlain e.name → Path.IsPlain f.name →
      (lead m.disk.home (Path.join places.output e.name) =
        lead m.disk.home (Path.join places.output f.name) ↔ e.name = f.name)) ∧
    (b.Apart places.output m.disk.home → d.Apart places.output m.disk.home) ∧
    (d.Apart places.output m.disk.home →
      Function.Injective (place c places m.disk.home) ∧
      ∀ s, Relation.ReflTransGen (Crew.Step (place c places m.disk.home)) (crew c places m) s →
        Isolated c places s) := by
  obtain ⟨hname, rfl⟩ := contextOf_eq_ok hc
  have hrun : '/' ∉ c.run.toList := hname ▸ CommandLine.slash_not_mem_runName t
  have hentities : c.configuration.entities.Sublist b.entities := by
    rcases hd with hsame | ⟨a, hmerged⟩
    · rw [hsame]
    · rw [hmerged]
      exact b.sublist_overriddenBy a
  have hnamed : ∀ e ∈ c.configuration.entities, e.name ≠ "" := fun e he =>
    Configuration.name_ne_of_check hcheck e (hentities.subset he)
  have hplace (e f : EntityOptions) : outputPlace places m.disk.home e.name c.run =
      outputPlace places m.disk.home f.name c.run ↔
        lead m.disk.home (Path.join places.output e.name) =
          lead m.disk.home (Path.join places.output f.name) := by
    rw [Local.outputPlace_eq places _ _ hrun, Local.outputPlace_eq places _ _ hrun]
    simp
  refine ⟨fun e f => ⟨hplace e f, fun _ _ _ _ => tableKey_eq_iff⟩,
    fun e he f hf hplain hplain' => ?_, fun hapart => hapart.sublist hentities, fun hapart => ?_⟩
  · rw [Disk.Memory.lead_join_of_isPlain _ _ hplain (hnamed e he),
      Disk.Memory.lead_join_of_isPlain _ _ hplain' (hnamed f hf)]
    simp
  · have hinjective : Function.Injective (place c places m.disk.home) := fun i j hij =>
      injective_get_of_nodup_map hapart.directories ((hplace _ _).1 hij)
    exact ⟨hinjective, fun s hsteps => isolated_of_steps hinjective hapart.names hsteps⟩

/-- A machine on which two live accounts, a deleted one and a lead are staged. -/
def pairMachine : Machine.Memory :=
  ⟨⟨[(["in"], .directory), (["Account", "in"], .directory),
      (["p.csv", "Account", "in"], .file (Utf8.encodeString "Id,IsDeleted\n1,\n2,\n")),
      (["deleted", "Account", "in"], .directory),
      (["p.csv", "deleted", "Account", "in"], .file (Utf8.encodeString "Id,IsDeleted\n3,true\n")),
      (["Lead", "in"], .directory),
      (["p.csv", "Lead", "in"], .file (Utf8.encodeString "Id,IsDeleted\n4,\n"))], []⟩,
    ⟨2024, 1, 1, 0, 0, 0⟩, []⟩

/-- Accounts, and an entity with a query for leads. -/
def pairConfiguration (name : String) : Configuration :=
  ⟨"/in", {}, ⟨"/out", some false⟩, some ⟨"/catalog.json", "raw"⟩,
    [{ name := "Account" }, { name, query := some "SELECT Id FROM Lead" }]⟩

def pairRun (name : String) : RunContext where
  run := CommandLine.runName ⟨2024, 1, 1, 0, 0, 0⟩
  configuration := pairConfiguration name
  settings := {}
  database := some "raw"
  patience := 3

/-- Accounts and leads are extracted in turns, a request of the one and then one of the other. -/
theorem entities_keep_apart_in_turns :
    ∃ s, Relation.ReflTransGen (Crew.Step (place (pairRun "Lead") Local.stagedPlaces []))
        (crew (pairRun "Lead") Local.stagedPlaces pairMachine) s ∧
      Isolated (pairRun "Lead") Local.stagedPlaces s ∧
      (List.ofFn fun i => (s.value? i).map fun x => told x.2.1) =
        [some ("Account", "SUCCESS", 2, 1, 26), some ("Lead", "SUCCESS", 1, 0, 16)] := by
  obtain ⟨-, -, -, hapart⟩ := entities_keep_apart (c := pairRun "Lead") (pairConfiguration "Lead")
    _ rfl _ (.inl rfl) ⟨2024, 1, 1, 0, 0, 0⟩ true 3 rfl Local.stagedPlaces pairMachine
  obtain ⟨-, hisolated⟩ := hapart ⟨by decide +kernel, by decide +kernel⟩
  have hsteps := Crew.steps_turns Local.stagedPlaces
    (place (pairRun "Lead") Local.stagedPlaces [])
    (List.replicate 20 [⟨0, by decide⟩, ⟨1, by decide⟩]).flatten
    (crew (pairRun "Lead") Local.stagedPlaces pairMachine,
      { catalog := some ⟨"/catalog.json", []⟩ })
  exact ⟨_, hsteps, hisolated _ hsteps, by decide +kernel⟩

/-- The run of both under one name. -/
def clash : List (Exchange services) × Except ExtractError (List TaskResult) × Local.Host :=
  Program.play (Local.respond Local.stagedPlaces) (execute (pairRun "Account"))
    ({ catalog := some ⟨"/catalog.json", []⟩ }, pairMachine)

/-- Two entities of one name are accepted. They write one file and register one table: the file of
the first one, which succeeded with three rows, ends with the two rows of the second one. -/
theorem accepted_under_one_name :
    (∃ settings, (pairConfiguration "Account").check = .ok settings) ∧
    contextOf (pairConfiguration "Account") (CommandLine.runName ⟨2024, 1, 1, 0, 0, 0⟩) true 3 =
      .ok (pairRun "Account") ∧
    ¬ Function.Injective (place (pairRun "Account") Local.stagedPlaces []) ∧
    (∃ results, Trace (execute (pairRun "Account")) clash.1 (.ok results) ∧
      results.map told = [("Account", "SUCCESS", 2, 1, 26), ("Account", "SUCCESS", 2, 0, 19)]) ∧
    (List.ofFn fun i => clash.2.2.2.disk.content?
      (place (pairRun "Account") Local.stagedPlaces [] i)) =
        List.replicate 2 (some (.file (Utf8.encodeString "Id,IsDeleted\n1,\n2,\n"))) ∧
    clash.2.2.1.catalog.map (·.contents.map fun st => (st.table.database, st.table.name)) =
      some [("raw", "account")] := by
  have hclash : clash.2.1.toOption.map (List.map told) =
        some [("Account", "SUCCESS", 2, 1, 26), ("Account", "SUCCESS", 2, 0, 19)] ∧
      (List.ofFn fun i => clash.2.2.2.disk.content?
        (place (pairRun "Account") Local.stagedPlaces [] i)) =
          List.replicate 2 (some (.file (Utf8.encodeString "Id,IsDeleted\n1,\n2,\n"))) ∧
      clash.2.2.1.catalog.map (·.contents.map fun st => (st.table.database, st.table.name)) =
        some [("raw", "account")] := by
    decide +kernel
  refine ⟨⟨_, rfl⟩, rfl, fun hinjective => ?_, Program.trace_play_ok _ _ _ _ _ hclash.1, hclash.2⟩
  have hsame : (⟨0, by decide⟩ : Fin 2) = ⟨1, by decide⟩ := hinjective rfl
  cases hsame

end Run

end Harvest
