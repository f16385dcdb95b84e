import Harvest.Proofs.Extraction.Streaming
import Harvest.Proofs.Local.Hosting
import Harvest.Proofs.Sink

/-!
# Files on a machine

The sink and the reports are kept by a machine. `Local.respond` answers what is asked for them, and
here is what it answers and leaves on the disk. The file of an entity and a report have different
places (`Local.reportFile_ne_outputPlace`).
-/

namespace Harvest

open Disk (Place)
open Disk.Memory (lead)

/-- The requests for the sink and for reports. -/
def Request.Kind.isFiling : Request.Kind → Bool
  | .openSink _ _ | .write | .finish | .drop | .report => true
  | _ => false

theorem Machine.run_ofDisk_bind {α β : Type} (p : Program Disk.service α)
    (f : α → Program Machine.service β) (m : Machine.Memory) :
    (((ofDisk p).bind f).run Memory.answer).run m =
      ((f (p.onDisk m.disk).1).run Memory.answer).run { m with disk := (p.onDisk m.disk).2 } := by
  induction p generalizing m with
  | done value => rfl
  | ask r next ih => exact ih _ _

namespace Local

section Responding

variable {α β : Type} (places : Places) (host : Host)

/-- What a program that may change what the services keep answers, and the host then. -/
def onHost (p : Kept α) (host : Host) : α × Host :=
  let answered := ((p.run host.1).run Machine.Memory.answer).run host.2
  (answered.1.1, answered.1.2, answered.2)

theorem onHost_ofDisk (p : Program Disk.service α)
    (f : State → α → Program Machine.service (β × State)) :
    onHost (fun s => (Machine.ofDisk p).bind (f s)) host =
      onHost (fun s => f s (p.onDisk host.2.disk).1)
        (host.1, { host.2 with disk := (p.onDisk host.2.disk).2 }) := by
  have hrun := Machine.run_ofDisk_bind p (f host.1) host.2
  simp only [onHost]
  exact congrArg (fun answered => (answered.1.1, answered.1.2, answered.2)) hrun

theorem respond_eq_onHost {r : Request} {p : Kept r.Reply} (h : answer places r = p) :
    respond places r host = onHost p host := by
  subst h
  rfl

theorem respond_openSink (entity run : String) :
    (respond places (.openSink entity run) host : Except ExtractError Unit × Host) =
      match Program.onDisk (Sink.create places.output entity run places.compressed).run
        host.2.disk with
      | (.ok sink, disk) =>
        (.ok (), { host.1 with sink := some sink }, { host.2 with disk := disk })
      | (.error e, disk) => (.error e, host.1, { host.2 with disk := disk }) := by
  have hopen : answer places (.openSink entity run) = openSink places entity run := rfl
  refine (respond_eq_onHost places host hopen).trans ((onHost_ofDisk host _ _).trans ?_)
  rcases Program.onDisk (Sink.create places.output entity run places.compressed).run
    host.2.disk with ⟨e | sink, disk⟩
  · rfl
  · rfl

theorem respond_saveReport (directory : String) (report : Report) :
    (respond places (.saveReport directory report) host : Except ExtractError Unit × Host) =
      (((saveReport directory report).run.onDisk host.2.disk).1, host.1,
        { host.2 with disk := ((saveReport directory report).run.onDisk host.2.disk).2 }) := by
  have hsave : answer places (.saveReport directory report) =
    storing (saveReport directory report) := rfl
  exact (respond_eq_onHost places host hsave).trans (onHost_ofDisk host _ _)

variable {host} {sink : Sink}

theorem onHost_congr {p q : Kept α} (h : p host.1 = q host.1) : onHost p host = onHost q host :=
  congrArg (fun x =>
    let answered := (x.run Machine.Memory.answer).run host.2
    (answered.1.1, answered.1.2, answered.2)) h

theorem respond_writeBatch (batch : Batch) (h : host.1.sink = some sink) :
    (respond places (.writeBatch batch) host : Except ExtractError Unit × Host) =
      ((sink.takeAll batch.records).1.mapError ExtractError.sink,
        { host.1 with sink := some (sink.takeAll batch.records).2 }, host.2) := by
  have hwrite : answer places (.writeBatch batch) = writeBatch batch := rfl
  refine (respond_eq_onHost places host hwrite).trans ?_
  unfold onHost writeBatch
  simp only [StateT.run, h]
  rfl

theorem respond_finishSink (h : host.1.sink = some sink) :
    (respond places .finishSink host : Except ExtractError Summary × Host) =
      ((sink.finish.run.onDisk host.2.disk).1, { host.1 with sink := none },
        { host.2 with disk := (sink.finish.run.onDisk host.2.disk).2 }) := by
  have hfinish : answer places .finishSink = finishSink := rfl
  have hsink : finishSink host.1 = (fun s => (Machine.ofDisk sink.finish.run).bind fun x =>
      .done (x, { s with sink := none }) : Kept (Except ExtractError Summary)) host.1 := by
    unfold finishSink
    rw [h]
  exact (respond_eq_onHost places host hfinish).trans ((onHost_congr hsink).trans
    (onHost_ofDisk host sink.finish.run fun s x => .done (x, { s with sink := none })))

theorem respond_dropSink (h : host.1.sink = some sink) :
    respond places .dropSink host =
      ((), { host.1 with sink := none },
        { host.2 with disk := (sink.drop.onDisk host.2.disk).2 }) := by
  have hdrop : answer places .dropSink = dropSink := rfl
  have hsink : dropSink host.1 = (fun s => (Machine.ofDisk sink.drop).bind fun _ =>
      .done ((), { s with sink := none }) : Kept Unit) host.1 := by
    unfold dropSink
    rw [h]
  exact (respond_eq_onHost places host hdrop).trans ((onHost_congr hsink).trans
    (onHost_ofDisk host sink.drop fun s _ => .done ((), { s with sink := none })))

theorem snd_respond_of_none (places : Places) {r : Request} (h : host.1.sink = none)
    (hr : r.kind ∈ [Request.Kind.write, .finish, .drop]) : (respond places r host).2 = host := by
  cases r with
  | writeBatch batch =>
    unfold respond answer writeBatch
    simp only [StateT.run, h]
    rfl
  | finishSink =>
    unfold respond answer finishSink
    simp only [StateT.run, h]
    rfl
  | dropSink =>
    unfold respond answer dropSink
    simp only [StateT.run, h]
    rfl
  | _ => simp [Request.kind] at hr

end Responding

section Filing

variable {places : Places}

/-- The place of the file of an entity and run. -/
def outputPlace (places : Places) (home : Place) (entity run : String) : Place :=
  lead home (Sink.start places.output entity run places.compressed).file

/-- Where a report is saved. -/
def reportFile (directory : String) (report : Report) : String :=
  Path.join directory ("report_" ++ report.run ++ ".json")

theorem writesTo_saveReport (directory : String) (report : Report) :
    Program.WritesTo (reportFile directory report) (saveReport directory report) :=
  .andThen (.ofReply _ _ nofun fun _ => trivial) fun _ =>
    .ofReply _ _ (fun _ h => (Option.some.inj h).symm) fun _ => trivial

/-- No report is saved in place of the file of an entity: their names end differently. -/
theorem reportFile_ne_outputPlace (home : Place) (entity run directory : String)
    (report : Report) :
    lead home (reportFile directory report) ≠ outputPlace places home entity run := by
  have hreport : (reportFile directory report).toList.getLast? = some 'n' := by
    rw [reportFile, Path.getLast?_join _ _ (by simp), String.toList_append, List.getLast?_append]
    rfl
  have hfile : ∃ c, c ≠ '/' ∧ c ≠ '.' ∧ c ≠ 'n' ∧
      (Sink.start places.output entity run places.compressed).file.toList.getLast? = some c := by
    simp only [Sink.start]
    cases places.compressed with
    | true => exact ⟨'z', by decide, by decide, by decide, Path.getLast?_join _ _ (by decide)⟩
    | false => exact ⟨'v', by decide, by decide, by decide, Path.getLast?_join _ _ (by decide)⟩
  obtain ⟨c, hslash, hpoint, hne, hlast⟩ := hfile
  obtain ⟨name, above, hplace, hname⟩ :=
    Disk.Memory.lead_of_getLast? home _ 'n' (by decide) (by decide) hreport
  obtain ⟨name', above', hplace', hname'⟩ :=
    Disk.Memory.lead_of_getLast? home _ c hslash hpoint hlast
  intro h
  rw [outputPlace, hplace, hplace'] at h
  obtain ⟨rfl, -⟩ := List.cons.inj h
  exact hne (Option.some.inj (hname'.symm.trans hname))

/-- A place holds a file that is not the one of the open sink. -/
structure Stored (p : Place) (bytes : List UInt8) (host : Host) : Prop where
  file : host.2.disk.content? p = some (.file bytes)
  elsewhere : ∀ sink, host.1.sink = some sink → lead host.2.disk.home sink.file ≠ p

/-- The open sink is the one of an entity and run, and holds these records. -/
structure Filling (places : Places) (entity run : String) (records : List Record) (host : Host) :
    Prop where
  sink : ∃ s, host.1.sink = some s ∧ s.Holds records ∧
    s.file = (Sink.start places.output entity run places.compressed).file ∧
    s.compressed = places.compressed
  file : host.2.disk.content? (outputPlace places host.2.disk.home entity run) = some (.file [])

theorem file_of_saveReport {host : Host} {directory : String} {report : Report}
    (h : (respond places (.saveReport directory report) host).1 = .ok ()) :
    (respond places (.saveReport directory report) host).2.2.disk.content?
        (lead host.2.disk.home (reportFile directory report)) =
      some (.file (Utf8.encodeString (Json.pretty report.encode))) := by
  rw [respond_saveReport] at h ⊢
  obtain ⟨_, middle, hmade, hwritten⟩ := Storing.ok_of_onDisk_bind
    (Prod.ext h rfl : (saveReport directory report).run.onDisk host.2.disk = (.ok (), _))
  have hhome : middle.home = host.2.disk.home := by
    rw [← Program.home_onDisk (Storing.makeDirectories directory) host.2.disk, hmade]
  obtain ⟨-, old, -, hcontent⟩ :=
    Disk.Memory.content?_writeFile (Storing.writeFile_of_write hwritten)
  rw [hhome] at hcontent
  exact (hcontent _).trans (if_pos rfl)

end Filing

end Local

end Harvest
