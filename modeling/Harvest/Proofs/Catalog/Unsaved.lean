import Harvest.Proofs.Catalog.Map

/-!
# Changes that end with an error

A change of a catalog that is refused leaves everything as it was. One that is not refused is made
in memory before the file is written, so when the file cannot be written the call ends with an error
and what is looked up afterwards is what the change has put (`Store.lookups_kept_iff`). The file
does not have it, and when the call is repeated a table or partition that was to be added is there
already.
-/

namespace Harvest

open Program (Trace)

namespace Storing

variable {α β : Type} {log : List (Program.Exchange Disk.service)} {e : ExtractError}

theorem storage_of_trace_ofReply {p : Program Disk.service (Except StorageFault α)}
    (ht : Trace (ofReply p) log (.error e)) : ∃ fault, e = .storage fault := by
  obtain ⟨first, rest, reply, rfl, -, hrest⟩ := (Program.trace_bind_iff p _ log _).1 ht
  obtain ⟨-, heq⟩ := (Program.trace_done_iff _ _ rest).1 hrest
  cases reply with
  | error fault => exact ⟨fault, Except.error.inj heq⟩
  | ok a => cases heq

/-- The error of two programs in sequence is that of one of them. -/
theorem storage_of_trace_bind {x : Storing α} {f : α → Storing β}
    (hx : ∀ log, Trace x log (.error e) → ∃ fault, e = .storage fault)
    (hf : ∀ a log, Trace (f a) log (.error e) → ∃ fault, e = .storage fault)
    (ht : Trace (x >>= f : Storing β) log (.error e)) : ∃ fault, e = .storage fault := by
  obtain ⟨first, rest, outcome, rfl, hfirst, hrest⟩ :=
    (Program.trace_bind_iff x (ExceptT.bindCont f) log _).1 ht
  cases outcome with
  | error e' =>
    obtain ⟨-, heq⟩ := (Program.trace_done_iff _ _ rest).1 hrest
    cases heq
    exact hx first hfirst
  | ok a => exact hf a rest hrest

end Storing

namespace Catalog

namespace Change

/-- The table that the change puts into the catalog. -/
def table? : Change → Option Table
  | create t => some t
  | alter t => some t
  | add _ _ _ => none
  | move _ _ _ => none

/-- The change adds something that must not be there yet. -/
def Adds : Change → Prop
  | create _ => True
  | alter _ => False
  | add _ _ _ => True
  | move _ _ _ => False

/-- What the change puts into the catalog is there. -/
structure Holds (c : Change) (contents : Contents) : Prop where
  table : ∀ t ∈ c.table?, ∀ database name, (database, name) = c.key →
    contents.table? database name = some t
  partition : ∀ p ∈ c.partition?, ∀ database name, (database, name) = c.key →
    contents.partition? database name p.values = some p

variable (c : Change) {contents after : Contents}

theorem isSome_partition?_of_table? (h : c.table? = none) : c.partition?.isSome := by
  cases c with
  | create t => cases h
  | alter t => cases h
  | add database name p => rfl
  | move database name p => rfl

theorem table_effect {old : Option Entry} (h : c.refusal? old = none) :
    ∀ t ∈ c.table?, (c.effect old).map Entry.table = some t := by
  cases c with
  | create t => simp [table?, effect]
  | alter t =>
    cases old with
    | none => cases h
    | some e => simp [table?, effect]
  | add database name p =>
    intro t ht
    cases ht
  | move database name p =>
    intro t ht
    cases ht

theorem partition_effect {old : Option Entry} (h : c.refusal? old = none) :
    ∀ p ∈ c.partition?, (c.effect old).bind (·.partitions p.values) = some p := by
  cases c with
  | create t =>
    intro p hp
    cases hp
  | alter t =>
    intro p hp
    cases hp
  | add database name p =>
    cases old with
    | none => cases h
    | some e => simp [partition?, effect]
  | move database name p =>
    cases old with
    | none => cases h
    | some e => simp [partition?, effect]

theorem holds_of_apply (h : c.apply contents = .ok after) : c.Holds after := by
  obtain ⟨fault, -, happly⟩ | ⟨_, hrefusal, happly, htoMap, -⟩ := c.apply_toMap contents
  · cases h.symm.trans happly
  cases h.symm.trans happly
  have hkey : after.toMap c.key = c.effect (contents.toMap c.key) := by
    rw [htoMap, Function.update_self]
  constructor
  · intro t ht database name hk
    rw [Contents.table?_eq, hk, hkey]
    exact c.table_effect hrefusal t ht
  · intro p hp database name hk
    rw [Contents.partition?_eq, hk, hkey]
    exact c.partition_effect hrefusal p hp

/-- What is there can be put in its own place, but not added. -/
theorem conflicts_iff_adds (h : c.Holds contents) : c.Conflicts contents ↔ c.Adds := by
  cases c with
  | create t => simp [Conflicts, Adds, h.table t rfl _ _ rfl]
  | alter t => simp [Conflicts, Adds, h.table t rfl _ _ rfl]
  | add database name p => simp [Conflicts, Adds, h.partition p rfl _ _ rfl]
  | move database name p => simp [Conflicts, Adds, h.partition p rfl _ _ rfl]

end Change

/-- Every table and every partition is looked up alike in two catalogs. -/
structure Contents.Alike (before after : Contents) : Prop where
  table : ∀ database name, after.table? database name = before.table? database name
  partition : ∀ database name values,
    after.partition? database name values = before.partition? database name values

/-- A change that is made is not seen exactly if it has put what was there. -/
theorem Change.alike_iff_of_apply {c : Change} {contents after : Contents}
    (h : c.apply contents = .ok after) : contents.Alike after ↔ c.Holds contents := by
  have hafter := c.holds_of_apply h
  obtain ⟨htables, hpartitions⟩ := c.spares_of_apply h
  constructor
  · intro hsame
    constructor
    · intro t ht database name hkey
      rw [← hsame.table, hafter.table t ht database name hkey]
    · intro p hp database name hkey
      rw [← hsame.partition, hafter.partition p hp database name hkey]
  · intro hbefore
    constructor
    · intro database name
      by_cases hput : ∃ t ∈ c.table?, (database, name) = c.key
      · obtain ⟨t, ht, hkey⟩ := hput
        rw [hafter.table t ht _ _ hkey, hbefore.table t ht _ _ hkey]
      · refine htables database name fun hkey => c.isSome_partition?_of_table? ?_
        exact Option.eq_none_iff_forall_not_mem.2 fun t ht => hput ⟨t, ht, hkey⟩
    · intro database name values
      by_cases hput : ∃ p ∈ c.partition?, (database, name) = c.key ∧ values = p.values
      · obtain ⟨p, hp, hkey, rfl⟩ := hput
        rw [hafter.partition p hp _ _ hkey, hbefore.partition p hp _ _ hkey]
      · exact hpartitions database name values fun hkey p hp hvalues =>
          hput ⟨p, hp, hkey, hvalues⟩

namespace Store

variable {s s' : Store} {c : Change} {log : List (Program.Exchange Disk.service)}

/-- A catalog that cannot be written tells the fault of the disk. -/
theorem storage_of_trace_save {e : ExtractError} (ht : Trace s.save log (.error e)) :
    ∃ fault, e = .storage fault := by
  rw [save] at ht
  split at ht
  · split at ht
    · exact Storing.storage_of_trace_ofReply ht
    · exact Storing.storage_of_trace_bind (fun _ => Storing.storage_of_trace_ofReply)
        (fun _ _ => Storing.storage_of_trace_ofReply) ht
  · exact Storing.storage_of_trace_ofReply ht

/-- A change is refused, or it is made in memory and the catalog is written. -/
theorem trace_update_iff (r : Except ExtractError Unit) :
    Trace (s.update c.apply) log (r, s') ↔
      (∃ fault, c.apply s.contents = .error fault ∧ log = [] ∧ r = .error (.catalog fault) ∧
        s' = s) ∨
      ∃ after, c.apply s.contents = .ok after ∧ s' = { s with contents := after } ∧
        Trace s'.save log r := by
  rw [update]
  cases c.apply s.contents with
  | error fault =>
    refine (Program.trace_done_iff _ _ log).trans ?_
    simp
  | ok after =>
    refine (Program.trace_bind_iff _ _ log _).trans ?_
    simp only [Program.trace_done_iff, Prod.mk.injEq, reduceCtorEq, false_and, exists_false,
      false_or, Except.ok.injEq, exists_eq_left']
    constructor
    · rintro ⟨first, rest, u, rfl, hsave, rfl, rfl, rfl⟩
      exact ⟨rfl, by rwa [List.append_nil]⟩
    · rintro ⟨rfl, hsave⟩
      exact ⟨log, [], r, (List.append_nil log).symm, hsave, rfl, rfl, rfl⟩

/-- A change that ends with an error is not seen afterwards exactly if it was refused or has put
what was there. If it was refused, nothing has happened at all. If not, it has been made in memory
and the fault is one of the disk: what it has put is looked up from now on, and if it was to be
added the same call is refused from now on, whatever the disk can do. -/
theorem lookups_kept_iff (s s' : Store) (c : Change)
    (log : List (Program.Exchange Disk.service)) (e : ExtractError)
    (ht : Trace (s.update c.apply) log (.error e, s')) :
    (s.contents.Alike s'.contents ↔ c.Conflicts s.contents ∨ c.Holds s.contents) ∧
    (c.Conflicts s.contents → s' = s ∧ log = [] ∧ ∃ fault, e = .catalog fault) ∧
    (¬ c.Conflicts s.contents →
      s'.path = s.path ∧ c.Holds s'.contents ∧ c.Spares s.contents s'.contents ∧
      (∃ fault, e = .storage fault) ∧ (c.Conflicts s'.contents ↔ c.Adds) ∧
      (c.Adds → ∀ log' r s'', Trace (s'.update c.apply) log' (r, s'') →
        s'' = s' ∧ log' = [] ∧ ∃ fault, r = .error (.catalog fault))) := by
  have hconflicts := c.apply_error_iff s.contents
  rcases (trace_update_iff _).1 ht with ⟨fault, happly, rfl, heq, rfl⟩ | ⟨after, happly, rfl, hsave⟩
  · have hrefused : c.Conflicts s'.contents := hconflicts.1 ⟨fault, happly⟩
    exact ⟨iff_of_true ⟨fun _ _ => rfl, fun _ _ _ => rfl⟩ (.inl hrefused),
      fun _ => ⟨rfl, rfl, fault, Except.error.inj heq⟩, fun hnot => absurd hrefused hnot⟩
  · have hmade : ¬ c.Conflicts s.contents := by
      intro h
      obtain ⟨fault, hfault⟩ := hconflicts.2 h
      cases happly.symm.trans hfault
    have hholds : c.Holds after := c.holds_of_apply happly
    have hadds := c.conflicts_iff_adds hholds
    refine ⟨(Change.alike_iff_of_apply happly).trans (or_iff_right hmade).symm,
      fun h => absurd h hmade, fun _ => ⟨rfl, hholds, c.spares_of_apply happly,
        storage_of_trace_save hsave, hadds, fun h log' r s'' hrepeated => ?_⟩⟩
    obtain ⟨fault, hfault⟩ := (c.apply_error_iff after).2 (hadds.2 h)
    rcases (trace_update_iff r).1 hrepeated with ⟨_, _, rfl, rfl, rfl⟩ | ⟨again, hagain, -, -⟩
    · exact ⟨rfl, rfl, _, rfl⟩
    · cases hfault.symm.trans hagain

/-- A table with a second column, on a full disk: the call ends with an error, and the second column
is found. -/
theorem lookups_kept_iff_full_disk :
    ∃ log s', Trace (Store.update ⟨"catalog.json", [⟨⟨"raw", "account", "/out", ["Id"], []⟩, []⟩]⟩
        (Change.alter ⟨"raw", "account", "/out", ["Id", "Name"], []⟩).apply) log
        (.error (.storage ⟨"No space left on device (os error 28)"⟩), s') ∧
      ¬ Contents.Alike [⟨⟨"raw", "account", "/out", ["Id"], []⟩, []⟩] s'.contents ∧
      (s'.contents.table? "raw" "account").map Table.columns = some ["Id", "Name"] := by
  have ht : Trace (Store.update ⟨"catalog.json", [⟨⟨"raw", "account", "/out", ["Id"], []⟩, []⟩]⟩
      (Change.alter ⟨"raw", "account", "/out", ["Id", "Name"], []⟩).apply)
      [⟨.write "catalog.json" _, .error ⟨"No space left on device (os error 28)"⟩⟩]
      (.error (.storage ⟨"No space left on device (os error 28)"⟩), _) :=
    (trace_update_iff _).2 (.inr ⟨_, rfl, rfl, .ask _ _ _ _ _ (.done _)⟩)
  obtain ⟨hkept, -, hmade⟩ := lookups_kept_iff _ _ _ _ _ ht
  have hconflicts : ¬ Change.Conflicts [⟨⟨"raw", "account", "/out", ["Id"], []⟩, []⟩]
      (.alter ⟨"raw", "account", "/out", ["Id", "Name"], []⟩) := by
    rw [Change.Conflicts]
    decide
  obtain ⟨-, hholds, -⟩ := hmade hconflicts
  refine ⟨_, _, ht, fun hsame => ?_, ?_⟩
  · rcases hkept.1 hsame with h | h
    · exact hconflicts h
    · exact absurd (h.table _ rfl _ _ rfl) (by decide)
  · rw [hholds.table _ rfl _ _ rfl]
    rfl

/-- A table of which the file cannot be written, there being a file in the place of its directory:
the call ends with an error, but the table is found, and when the call is repeated it is refused. -/
theorem unsaved_table_found :
    Program.onDisk (load "blocked/catalog.json") ⟨[(["blocked"], .file [])], []⟩ =
        (.ok ⟨"blocked/catalog.json", []⟩, ⟨[(["blocked"], .file [])], []⟩) ∧
      ∃ s', Program.onDisk (Store.update ⟨"blocked/catalog.json", []⟩
          (Change.create ⟨"raw", "account", "/out/Account", ["Id"], ["run_id"]⟩).apply)
          ⟨[(["blocked"], .file [])], []⟩ =
            ((.error (.storage ⟨"File exists (os error 17)"⟩), s'),
              ⟨[(["blocked"], .file [])], []⟩) ∧
        Contents.table? [] "raw" "account" = none ∧
        s'.contents.table? "raw" "account" =
          some ⟨"raw", "account", "/out/Account", ["Id"], ["run_id"]⟩ ∧
        Program.onDisk (s'.update
          (Change.create ⟨"raw", "account", "/out/Account", ["Id"], ["run_id"]⟩).apply) .empty =
            ((.error (.catalog (.tableExists "raw" "account")), s'), .empty) :=
  ⟨rfl, _, rfl, rfl, rfl, rfl⟩

end Store

end Catalog

end Harvest
