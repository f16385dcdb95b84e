import Harvest.Proofs.Catalog.Unsaved
import Harvest.Proofs.Local.Filing

/-!
# Registrations one after the other

A registration looks up what is held under its key and asks for one change at most, which agrees
with what was looked up: the catalog refuses none but a partition without its table
(`Item.settles_partition`). So a registration that is answered well has put its table or partition
under its key and nothing else (`Item.Puts`), and behind registrations one after the other each key
holds what was registered for it last (`Local.registrations_converge`).
-/

namespace Harvest

open Program (Exchange play)

namespace Catalog

/-- What is registered: a table, or a partition of one. -/
inductive Item
  | table (t : Table)
  | partition (t : Table) (p : Partition)

/-- What comes of putting something in the place of what was there. -/
def Registered.of {α : Type} [DecidableEq α] (new : α) : Option α → Registered
  | none => .created
  | some old => if old = new then .unchanged else .updated

/-- Asks for a change. -/
def Change.program : Change → Engine Unit
  | create t => Engine.createTable t
  | alter t => Engine.alterTable t
  | add database name p => Engine.addPartition database name p
  | move database name p => Engine.alterPartition database name p

/-- The exchange with which a change is asked for. -/
def Change.exchange (reply : Except ExtractError Unit) : Change → Exchange services
  | create t => ⟨.createTable t, reply⟩
  | alter t => ⟨.alterTable t, reply⟩
  | add database name p => ⟨.addPartition database name p, reply⟩
  | move database name p => ⟨.alterPartition database name p, reply⟩

/-- Makes the change that is needed, if there is one, and answers what it comes to. -/
def settle : Option (Change × Registered) → Engine Registered
  | none => pure .unchanged
  | some (c, done) => do
    c.program
    pure done

/-- The answer to a change that is asked for, if it is one. -/
def changing? : Exchange services → Option (Except ExtractError Unit)
  | ⟨.createTable _, reply⟩ => some reply
  | ⟨.alterTable _, reply⟩ => some reply
  | ⟨.addPartition _ _ _, reply⟩ => some reply
  | ⟨.alterPartition _ _ _, reply⟩ => some reply
  | _ => none

/-- No change failed for a fault of the disk. -/
def Written (log : List (Exchange services)) : Prop :=
  ∀ reply ∈ log.filterMap changing?, ∀ fault, reply ≠ .error (.storage fault)

namespace Item

/-- Registers the item. -/
def register : Item → Engine Registered
  | table t => registerTable t
  | partition t p => registerPartition t p

/-- What the item makes the table of a key, if it is its key. -/
def table? (database name : String) : Item → Option Table
  | table t => if (database, name) = (t.database, t.name) then some t else none
  | partition _ _ => none

/-- What the item makes the partition of a table and values, if it is theirs. -/
def partition? (database name : String) (values : List String) : Item → Option Partition
  | table _ => none
  | partition t p =>
    if (database, name) = (t.database, t.name) ∧ values = p.values then some p else none

/-- The item is found under its key, and all else as before. -/
structure Puts (i : Item) (before after : Contents) : Prop where
  tables : ∀ database name,
    after.table? database name = (i.table? database name).or (before.table? database name)
  partitions : ∀ database name values, after.partition? database name values =
    (i.partition? database name values).or (before.partition? database name values)

/-- A partition has as many values as its table has keys. -/
def Counted : Item → Prop
  | table _ => True
  | partition t p => t.partitionKeys.length = p.values.length

/-- How the registration of the item is answered by a catalog with these contents. -/
def answer (c : Contents) : Item → Except Fault Registered
  | table t => .ok (.of t (c.table? t.database t.name))
  | partition t p =>
    if t.partitionKeys.length ≠ p.values.length then
      .error (.valueCount t.partitionKeys.length p.values.length)
    else if c.table? t.database t.name = none then .error (.tableMissing t.database t.name)
    else .ok (.of p (c.partition? t.database t.name p.values))

/-- The exchange with which the item is looked up. -/
def lookup (c : Contents) : Item → Exchange services
  | table t => ⟨.getTable t.database t.name, .ok (c.table? t.database t.name)⟩
  | partition t p =>
    ⟨.getPartition t.database t.name p.values, .ok (c.partition? t.database t.name p.values)⟩

/-- The change that is asked for behind the lookup, if there is one, and the answer if it is
made. -/
def change? (c : Contents) : Item → Option (Change × Registered)
  | table t =>
    match c.table? t.database t.name with
    | none => some (.create t, .created)
    | some old => if old = t then none else some (.alter t, .updated)
  | partition t p =>
    match c.partition? t.database t.name p.values with
    | none => some (.add t.database t.name p, .created)
    | some old =>
      if old.location = p.location then none else some (.move t.database t.name p, .updated)

section Deciding

variable {c after : Contents} {ch : Change} {t : Table} {p : Partition}

theorem puts_table (h : ch.apply c = .ok after) (hkey : ch.key = (t.database, t.name))
    (ht : ch.table? = some t) (hp : ch.partition? = none) : (table t).Puts c after where
  tables database name := by
    by_cases hk : (database, name) = (t.database, t.name)
    · rw [table?, if_pos hk, Option.some_or]
      exact (ch.holds_of_apply h).table t ht database name (hk.trans hkey.symm)
    · rw [table?, if_neg hk, Option.none_or]
      exact (ch.spares_of_apply h).tables database name fun hk' => absurd (hk'.trans hkey) hk
  partitions database name values := by
    refine (ch.spares_of_apply h).partitions database name values fun _ q hq => ?_
    rw [hp] at hq
    cases hq

theorem puts_partition (h : ch.apply c = .ok after) (hkey : ch.key = (t.database, t.name))
    (hp : ch.partition? = some p) : (partition t p).Puts c after where
  tables database name :=
    (ch.spares_of_apply h).tables database name fun _ => by rw [hp]; rfl
  partitions database name values := by
    by_cases hk : (database, name) = (t.database, t.name) ∧ values = p.values
    · rw [partition?, if_pos hk, Option.some_or, hk.2]
      exact (ch.holds_of_apply h).partition p hp database name (hk.1.trans hkey.symm)
    · rw [partition?, if_neg hk, Option.none_or]
      refine (ch.spares_of_apply h).partitions database name values fun hk' q hq hvalues => ?_
      cases hp.symm.trans hq
      exact hk ⟨hk'.trans hkey, hvalues⟩

/-- The values of a partition are those that it is looked up by. -/
theorem values_of_partition? {database name : String} {values : List String}
    (h : c.partition? database name values = some p) : p.values = values := by
  obtain ⟨s, -, hfound⟩ := Option.bind_eq_some_iff.1 h
  simpa using List.find?_some hfound

theorem table?_ne_none {database name : String} {values : List String}
    (h : c.partition? database name values = some p) : c.table? database name ≠ none := by
  obtain ⟨s, hs, -⟩ := Option.bind_eq_some_iff.1 h
  simp [Contents.table?, hs]

theorem apply_add_of_table? {database name : String} (h : c.table? database name = none) :
    (Change.add database name p).apply c = .error (.tableMissing database name) := by
  have hstored : Contents.stored? c database name = none := Option.map_eq_none_iff.1 h
  rw [Change.apply, Contents.add, hstored]

/-- Where nothing has to be changed the item is there. -/
theorem puts_of_answer {i : Item} (h : i.answer c = .ok .unchanged) : i.Puts c c := by
  cases i with
  | table t =>
    refine ⟨fun database name => ?_, fun _ _ _ => rfl⟩
    by_cases hk : (database, name) = (t.database, t.name)
    · obtain ⟨rfl, rfl⟩ := Prod.mk.inj hk
      rw [table?, if_pos rfl, Option.some_or]
      cases hold : c.table? t.database t.name with
      | none => simp [answer, hold, Registered.of] at h
      | some old => simpa [answer, hold, Registered.of] using h
    · rw [table?, if_neg hk, Option.none_or]
  | partition t p =>
    refine ⟨fun _ _ => rfl, fun database name values => ?_⟩
    by_cases hk : (database, name) = (t.database, t.name) ∧ values = p.values
    · obtain ⟨hkey, rfl⟩ := hk
      obtain ⟨rfl, rfl⟩ := Prod.mk.inj hkey
      rw [partition?, if_pos ⟨rfl, rfl⟩, Option.some_or]
      rw [answer] at h
      split at h
      · cases h
      split at h
      · cases h
      cases hold : c.partition? t.database t.name p.values with
      | none => simp [hold, Registered.of] at h
      | some old => simpa [hold, Registered.of] using h
    · rw [partition?, if_neg hk, Option.none_or]

/-- The item is registered once more where it was put. -/
theorem answer_of_puts {i : Item} {done : Registered} (h : i.answer c = .ok done)
    (hputs : i.Puts c after) : i.answer after = .ok .unchanged := by
  cases i with
  | table t =>
    have hfound := hputs.tables t.database t.name
    rw [table?, if_pos rfl, Option.some_or] at hfound
    simp [answer, hfound, Registered.of]
  | partition t p =>
    have hfound := hputs.partitions t.database t.name p.values
    have htable := hputs.tables t.database t.name
    rw [partition?, if_pos ⟨rfl, rfl⟩, Option.some_or] at hfound
    rw [table?, Option.none_or] at htable
    rw [answer] at h ⊢
    split at h
    · cases h
    split at h
    · cases h
    rename_i hcount hmissing
    rw [if_neg hcount, htable, if_neg hmissing, hfound]
    simp [Registered.of]

theorem exists_apply (ch : Change) (h : ¬ ch.Conflicts c) : ∃ after, ch.apply c = .ok after := by
  cases happly : ch.apply c with
  | error fault => exact absurd ((ch.apply_error_iff c).1 ⟨fault, happly⟩) h
  | ok after => exact ⟨after, rfl⟩

/-- What is to be done for an item: nothing, as it is there, or a change, which is refused or puts
it there. -/
inductive Settles (i : Item) (c : Contents) : Prop
  | there (hchange : i.change? c = none) (hanswer : i.answer c = .ok .unchanged)
  | refused (ch : Change) (done : Registered) (fault : Fault)
      (hchange : i.change? c = some (ch, done)) (happly : ch.apply c = .error fault)
      (hanswer : i.answer c = .error fault)
  | made (ch : Change) (done : Registered) (after : Contents)
      (hchange : i.change? c = some (ch, done)) (hchanged : done ≠ .unchanged)
      (happly : ch.apply c = .ok after) (hanswer : i.answer c = .ok done)
      (hputs : i.Puts c after)

theorem settles_table (t : Table) (c : Contents) : (table t).Settles c := by
  cases hold : c.table? t.database t.name with
  | none =>
    have hfree : ¬ (Change.create t).Conflicts c := by simp [Change.Conflicts, hold]
    obtain ⟨after, happly⟩ := exists_apply _ hfree
    refine .made (.create t) .created after ?_ (by decide) happly ?_
      (puts_table happly rfl rfl rfl)
    · rw [change?, hold]
    · rw [answer, hold, Registered.of]
  | some old =>
    by_cases hsame : old = t
    · refine .there ?_ ?_
      · rw [change?, hold]
        exact if_pos hsame
      · rw [answer, hold, Registered.of, if_pos hsame]
    · have hfound : ¬ (Change.alter t).Conflicts c := by simp [Change.Conflicts, hold]
      obtain ⟨after, happly⟩ := exists_apply _ hfound
      refine .made (.alter t) .updated after ?_ (by decide) happly ?_
        (puts_table happly rfl rfl rfl)
      · rw [change?, hold]
        exact if_neg hsame
      · rw [answer, hold, Registered.of, if_neg hsame]

/-- A partition is refused only if its table is missing. -/
theorem settles_partition (t : Table) (p : Partition) (c : Contents)
    (hcount : t.partitionKeys.length = p.values.length) : (partition t p).Settles c := by
  have hequal : ¬ t.partitionKeys.length ≠ p.values.length := not_not.2 hcount
  cases hold : c.partition? t.database t.name p.values with
  | none =>
    have hchange : (partition t p).change? c = some (.add t.database t.name p, .created) := by
      rw [change?, hold]
    by_cases htable : c.table? t.database t.name = none
    · refine .refused _ _ _ hchange (apply_add_of_table? htable) ?_
      rw [answer, if_neg hequal, if_pos htable]
    · have hfree : ¬ (Change.add t.database t.name p).Conflicts c := by
        simp [Change.Conflicts, hold, htable]
      obtain ⟨after, happly⟩ := exists_apply _ hfree
      refine .made _ _ after hchange (by decide) happly ?_ (puts_partition happly rfl rfl)
      rw [answer, if_neg hequal, if_neg htable, hold, Registered.of]
  | some old =>
    have hanswer : (partition t p).answer c = .ok (if old = p then .unchanged else .updated) := by
      rw [answer, if_neg hequal, if_neg (table?_ne_none hold), hold, Registered.of]
    -- the values of both are the same, so the partitions differ by their locations
    have hiff : old = p ↔ old.location = p.location := by
      have hvalues := values_of_partition? hold
      cases old
      cases p
      simpa using fun _ => hvalues
    by_cases hsame : old.location = p.location
    · refine .there ?_ ?_
      · rw [change?, hold]
        exact if_pos hsame
      · rw [hanswer, if_pos (hiff.2 hsame)]
    · have hfound : ¬ (Change.move t.database t.name p).Conflicts c := by
        simp [Change.Conflicts, hold]
      obtain ⟨after, happly⟩ := exists_apply _ hfound
      refine .made (.move t.database t.name p) .updated after ?_ (by decide) happly ?_
        (puts_partition happly rfl rfl)
      · rw [change?, hold]
        exact if_neg hsame
      · rw [hanswer, if_neg (mt hiff.1 hsame)]

theorem settles_of_counted {i : Item} (hcount : i.Counted) (c : Contents) : i.Settles c := by
  cases i with
  | table t => exact settles_table t c
  | partition t p => exact settles_partition t p c hcount

theorem counted_of_answer {i : Item} {done : Registered} (h : i.answer c = .ok done) :
    i.Counted := by
  cases i with
  | table t => trivial
  | partition t p =>
    by_contra hcount
    have hdiffer : t.partitionKeys.length ≠ p.values.length := hcount
    rw [answer, if_pos hdiffer] at h
    cases h

/-- An item that is there needs no change. -/
theorem change?_of_answer {i : Item} (h : i.answer c = .ok .unchanged) : i.change? c = none := by
  cases settles_of_counted (counted_of_answer h) c with
  | there hchange _ => exact hchange
  | refused _ _ _ _ _ hanswer => cases hanswer.symm.trans h
  | made _ _ _ _ hchanged _ hanswer _ =>
    cases hanswer.symm.trans h
    exact absurd rfl hchanged

end Deciding

end Item

namespace Store

/-- A change that is made is made in memory, and then the catalog is written or not. -/
theorem onDisk_update_made {s : Store} {c : Change} {after : Contents}
    (happly : c.apply s.contents = .ok after) (m : Disk.Memory) :
    ((s.update c.apply).onDisk m).1.2 = { s with contents := after } ∧
      (((s.update c.apply).onDisk m).1.1 = .ok () ∨
        ∃ fault, ((s.update c.apply).onDisk m).1.1 = .error (.storage fault)) := by
  obtain ⟨log, ht⟩ := Program.exists_trace_onDisk (s.update c.apply) m
  rcases (trace_update_iff _).1 ht with ⟨fault, hrefused, -⟩ | ⟨_, happly', hstore, hsave⟩
  · cases happly.symm.trans hrefused
  cases happly.symm.trans happly'
  refine ⟨hstore, ?_⟩
  cases hreply : ((s.update c.apply).onDisk m).1.1 with
  | ok u => exact .inl rfl
  | error e =>
    rw [hreply] at hsave
    obtain ⟨fault, rfl⟩ := storage_of_trace_save hsave
    exact .inr ⟨fault, rfl⟩

end Store

end Catalog

namespace Local

open Catalog

/-- The host behind a change of its catalog `s`. -/
def amended (s : Store) (c : Change) (host : Host) : Host :=
  let updated := (s.update c.apply).onDisk host.2.disk
  ({ host.1 with catalog := some updated.1.2 }, { host.2 with disk := updated.2 })

/-- A request that is answered by a program is the only exchange. -/
theorem play_request (places : Places) {host host' : Host} {r : Request} {p : Kept r.Reply}
    {reply : r.Reply} (hanswer : answer places r = p) (hp : onHost p host = (reply, host')) :
    play (S := services) (respond places) (Program.request (S := services) r) host =
      ([⟨r, reply⟩], reply, host') :=
  Program.play_request (S := services) (respond places)
    ((respond_eq_onHost places host hanswer).trans hp)

section Playing

variable (places : Places) {host : Host} {s : Store} (h : host.1.catalog = some s)
include h

theorem onHost_consult {α : Type} (f : Contents → α) :
    onHost (consult f) host = (.ok (f s.contents), host) := by
  unfold onHost consult
  simp only [StateT.run, h]
  rfl

theorem onHost_amend (c : Change) :
    onHost (amend c.apply) host =
      (((s.update c.apply).onDisk host.2.disk).1.1, amended s c host) := by
  have hamend : amend c.apply host.1 = (fun state => (Machine.ofDisk (s.update c.apply)).bind
      fun (x : Except ExtractError Unit × Store) =>
        .done (x.1, { state with catalog := some x.2 }) :
        Kept (Except ExtractError Unit)) host.1 := by
    unfold amend
    rw [h]
  exact (onHost_congr hamend).trans (onHost_ofDisk host (s.update c.apply)
    fun state x => .done (x.1, { state with catalog := some x.2 }))

theorem play_program (c : Change) :
    play (S := services) (respond places) c.program host =
      ([c.exchange ((s.update c.apply).onDisk host.2.disk).1.1],
        ((s.update c.apply).onDisk host.2.disk).1.1, amended s c host) := by
  have hamend := onHost_amend h c
  cases c with
  | create t => exact play_request places rfl hamend
  | alter t => exact play_request places rfl hamend
  | add database name p => exact play_request places rfl hamend
  | move database name p => exact play_request places rfl hamend

/-- The item is looked up, and then what has to be changed is. -/
theorem play_register {i : Item} (hcount : i.Counted) :
    play (S := services) (respond places) i.register host =
      (i.lookup s.contents ::
          (play (S := services) (respond places) (settle (i.change? s.contents)) host).1,
        (play (S := services) (respond places) (settle (i.change? s.contents)) host).2) := by
  cases i with
  | table t =>
    have hget : play (S := services) (respond places) (Engine.getTable t.database t.name) host =
        ([(Item.table t).lookup s.contents], .ok (s.contents.table? t.database t.name), host) :=
      play_request places rfl (onHost_consult h fun c => c.table? t.database t.name)
    rw [Item.register, registerTable, Engine.play_bind_ok hget, Item.change?]
    cases s.contents.table? t.database t.name with
    | none => rfl
    | some old =>
      dsimp only
      split
      · rfl
      · rfl
  | partition t p =>
    have hget : play (S := services) (respond places)
        (Engine.getPartition t.database t.name p.values) host =
        ([(Item.partition t p).lookup s.contents],
          .ok (s.contents.partition? t.database t.name p.values), host) :=
      play_request places rfl
        (onHost_consult h fun c => c.partition? t.database t.name p.values)
    have hequal : ¬ t.partitionKeys.length ≠ p.values.length := not_not.2 hcount
    rw [Item.register, registerPartition, if_neg hequal, Engine.play_bind_ok hget, Item.change?]
    cases s.contents.partition? t.database t.name p.values with
    | none => rfl
    | some old =>
      dsimp only
      split
      · rfl
      · rfl

theorem play_register_unchanged {i : Item} (hanswer : i.answer s.contents = .ok .unchanged) :
    play (S := services) (respond places) i.register host =
      ([i.lookup s.contents], .ok .unchanged, host) := by
  rw [play_register places h (Item.counted_of_answer hanswer), Item.change?_of_answer hanswer]
  rfl

theorem play_register_change {i : Item} {c : Change} {done : Registered} (hcount : i.Counted)
    (hchange : i.change? s.contents = some (c, done)) :
    play (S := services) (respond places) i.register host =
      ([i.lookup s.contents, c.exchange ((s.update c.apply).onDisk host.2.disk).1.1],
        ((s.update c.apply).onDisk host.2.disk).1.1.map fun _ => done, amended s c host) := by
  have hprogram := play_program places h c
  rw [play_register places h hcount, hchange, settle]
  cases hreply : ((s.update c.apply).onDisk host.2.disk).1.1 with
  | error e =>
    rw [hreply] at hprogram
    rw [Engine.play_bind_error hprogram]
    rfl
  | ok u =>
    rw [hreply] at hprogram
    rw [Engine.play_bind_ok hprogram]
    rfl

end Playing

/-- What the registration of an item comes to at a host whose catalog is `s`: what was asked for,
the result, and the host then. -/
structure Registers (places : Places) (i : Item) (s : Store) (host : Host)
    (log : List (Exchange services)) (result : Except ExtractError Registered) (last : Host) :
    Prop where
  answer : result = (i.answer s.contents).mapError .catalog
  /-- No more than one change is asked for. -/
  changes : (log.filterMap changing?).length ≤ 1
  unchanged : result = .ok .unchanged → log.filterMap changing? = []
  /-- A partition whose values do not match the keys is not even looked up. -/
  uncounted : ¬ i.Counted → log = []
  refused : ∀ e, result = .error e → last = host
  /-- The item is put into the catalog, and registering it once more changes nothing. -/
  made : ∀ done, result = .ok done → ∃ s',
    last.1.catalog = some s' ∧ s'.path = s.path ∧ i.Puts s.contents s'.contents ∧
      play (S := services) (respond places) i.register last =
        ([i.lookup s'.contents], .ok .unchanged, last)

section Registering

variable {places : Places} {host : Host} {s : Store} {i : Item}

/-- The log of a registration that asks for a change. -/
theorem changing?_lookup_exchange (contents : Contents) (c : Change)
    (reply : Except ExtractError Unit) :
    [i.lookup contents, c.exchange reply].filterMap changing? = [reply] := by
  cases i <;> cases c <;> rfl

theorem changing?_lookup (contents : Contents) : [i.lookup contents].filterMap changing? = [] := by
  cases i <;> rfl

theorem amended_of_error (h : host.1.catalog = some s) {c : Change} {fault : Fault}
    (happly : c.apply s.contents = .error fault) : amended s c host = host := by
  rw [amended, Store.onDisk_update_error happly, ← h]

theorem registers_of_uncounted (places : Places) (s : Store) (host : Host)
    (hcount : ¬ i.Counted) :
    ∃ e, play (S := services) (respond places) i.register host = ([], .error e, host) ∧
      Registers places i s host [] (.error e) host := by
  cases i with
  | table t => exact absurd trivial hcount
  | partition t p =>
    have hdiffer : t.partitionKeys.length ≠ p.values.length := hcount
    refine ⟨.catalog (.valueCount t.partitionKeys.length p.values.length), ?_, {
      answer := ?_
      changes := Nat.zero_le 1
      unchanged := fun _ => rfl
      uncounted := fun _ => rfl
      refused := fun _ _ => rfl
      made := fun _ hdone => by cases hdone }⟩
    · rw [Item.register, registerPartition, if_pos hdiffer]
      rfl
    · rw [Item.answer, if_pos hdiffer]
      rfl

theorem registers_of_unchanged (h : host.1.catalog = some s)
    (hanswer : i.answer s.contents = .ok .unchanged) :
    Registers places i s host [i.lookup s.contents] (.ok .unchanged) host where
  answer := by
    rw [hanswer]
    rfl
  changes := by
    rw [changing?_lookup]
    exact Nat.zero_le 1
  unchanged _ := changing?_lookup s.contents
  uncounted hcount := absurd (Item.counted_of_answer hanswer) hcount
  refused _ herror := by cases herror
  made _ _ := ⟨s, h, rfl, Item.puts_of_answer hanswer, play_register_unchanged places h hanswer⟩

theorem registers_of_refused {c : Change} {fault : Fault} (hcount : i.Counted)
    (hanswer : i.answer s.contents = .error fault) :
    Registers places i s host [i.lookup s.contents, c.exchange (.error (.catalog fault))]
      (.error (.catalog fault)) host where
  answer := by
    rw [hanswer]
    rfl
  changes := by
    rw [changing?_lookup_exchange]
    exact Nat.le_refl 1
  unchanged hdone := by cases hdone
  uncounted hnot := absurd hcount hnot
  refused _ _ := rfl
  made _ hdone := by cases hdone

theorem registers_of_made {c : Change} {done : Registered} {after : Contents}
    (hanswer : i.answer s.contents = .ok done) (hchanged : done ≠ .unchanged)
    (hputs : i.Puts s.contents after)
    (hstore : ((s.update c.apply).onDisk host.2.disk).1.2 = { s with contents := after }) :
    Registers places i s host [i.lookup s.contents, c.exchange (.ok ())] (.ok done)
      (amended s c host) where
  answer := by
    rw [hanswer]
    rfl
  changes := by
    rw [changing?_lookup_exchange]
    exact Nat.le_refl 1
  unchanged h := absurd (Except.ok.inj h) hchanged
  uncounted hnot := absurd (Item.counted_of_answer hanswer) hnot
  refused _ herror := by cases herror
  made _ _ := by
    have hcatalog : (amended s c host).1.catalog = some { s with contents := after } :=
      congrArg some hstore
    exact ⟨_, hcatalog, rfl, hputs,
      play_register_unchanged places hcatalog (Item.answer_of_puts hanswer hputs)⟩

/-- A registration does what is said of it, if what it changes can be written. -/
theorem registers (places : Places) (i : Item) (h : host.1.catalog = some s)
    (hwrites : Written (play (S := services) (respond places) i.register host).1) :
    Registers places i s host (play (S := services) (respond places) i.register host).1
      (play (S := services) (respond places) i.register host).2.1
      (play (S := services) (respond places) i.register host).2.2 := by
  by_cases hcount : i.Counted
  · cases Item.settles_of_counted hcount s.contents with
    | there _ hanswer =>
      rw [play_register_unchanged places h hanswer]
      exact registers_of_unchanged h hanswer
    | refused c done fault hchange happly hanswer =>
      rw [play_register_change places h hcount hchange, amended_of_error h happly,
        Store.onDisk_update_error happly]
      exact registers_of_refused hcount hanswer
    | made c done after hchange hchanged happly hanswer hputs =>
      rw [play_register_change places h hcount hchange] at hwrites ⊢
      obtain ⟨hstore, hok | ⟨fault, hfault⟩⟩ := Store.onDisk_update_made (s := s) happly host.2.disk
      · rw [hok]
        exact registers_of_made hanswer hchanged hputs hstore
      · rw [hfault, Written, changing?_lookup_exchange] at hwrites
        exact absurd rfl (hwrites _ (List.mem_singleton_self _) fault)
  · obtain ⟨e, hplay, hregisters⟩ := registers_of_uncounted places s host hcount
    rw [hplay]
    exact hregisters

end Registering

/-- Registers items one after the other, and goes on behind one that fails. -/
def registerEach (items : List Item) : Program services (List (Except ExtractError Registered)) :=
  Program.each (items.map fun i => i.register.run)

/-- The items of which the registration was answered well. -/
def registered : List Item → List (Except ExtractError Registered) → List Item
  | i :: items, .ok _ :: results => i :: registered items results
  | _ :: items, .error _ :: results => registered items results
  | _, _ => []

theorem play_registerEach_cons {places : Places} {i : Item} {log : List (Exchange services)}
    {result : Except ExtractError Registered} {host host' : Host}
    (h : play (S := services) (respond places) i.register host = (log, result, host'))
    (items : List Item) :
    play (respond places) (registerEach (i :: items)) host =
      (log ++ (play (respond places) (registerEach items) host').1,
        result :: (play (respond places) (registerEach items) host').2.1,
        (play (respond places) (registerEach items) host').2.2) :=
  Program.play_each_cons (S := services) (respond places) h _

theorem written_append {log log' : List (Exchange services)} :
    Written (log ++ log') ↔ Written log ∧ Written log' := by
  rw [Written, List.filterMap_append]
  exact List.forall_mem_append

/-- The last item in a list that makes something of a key, or what was there. -/
theorem getLast?_filterMap_cons {α β : Type} (f : α → Option β) (x : α) (l : List α)
    (before : Option β) :
    (((x :: l).filterMap f).getLast?).or before =
      ((l.filterMap f).getLast?).or ((f x).or before) := by
  cases hx : f x with
  | none => rw [List.filterMap_cons_none hx, Option.none_or]
  | some y =>
    rw [List.filterMap_cons_some hx, List.getLast?_cons, Option.some_or, Option.some_or]
    cases (l.filterMap f).getLast? <;> rfl

/-- What registrations one after the other come to at a host whose catalog is `s`: every key holds
what was registered for it last, or what it held before, and what is registered next is registered
as it should be. -/
structure Converges (places : Places) (items : List Item) (s : Store)
    (results : List (Except ExtractError Registered)) (last : Host) : Prop where
  length : results.length = items.length
  tables : ∀ t r, (Item.table t, r) ∈ items.zip results → ∃ done, r = .ok done
  keys : ∃ s', last.1.catalog = some s' ∧ s'.path = s.path ∧
    (∀ database name, s'.contents.table? database name =
      (((registered items results).filterMap (Item.table? database name)).getLast?).or
        (s.contents.table? database name)) ∧
    (∀ database name values, s'.contents.partition? database name values =
      (((registered items results).filterMap (Item.partition? database name values)).getLast?).or
        (s.contents.partition? database name values)) ∧
    ∀ i log result after,
      play (S := services) (respond places) i.register last = (log, result, after) →
      Written log → Registers places i s' last log result after

section Converging

variable {places : Places} {items : List Item} {s : Store} {host last : Host} {i : Item}
  {log : List (Exchange services)} {results : List (Except ExtractError Registered)}

theorem converges_nil (h : host.1.catalog = some s) : Converges places [] s [] host := by
  refine ⟨rfl, fun _ _ hmem => absurd hmem List.not_mem_nil, s, h, rfl,
    fun _ _ => Option.none_or.symm, fun _ _ _ => Option.none_or.symm,
    fun i log result after hplay hwritten => ?_⟩
  have hregisters := registers places i h
  rw [hplay] at hregisters
  exact hregisters hwritten

theorem Registers.converges_error {e : ExtractError}
    (h : Registers places i s host log (.error e) host)
    (hrest : Converges places items s results last) :
    Converges places (i :: items) s (.error e :: results) last := by
  refine ⟨congrArg (· + 1) hrest.length, fun t r hmem => ?_, hrest.keys⟩
  rcases List.mem_cons.1 hmem with heq | hmem
  · cases heq
    cases h.answer
  · exact hrest.tables t r hmem

theorem converges_ok {s₁ : Store} (done : Registered) (hpath : s₁.path = s.path)
    (hputs : i.Puts s.contents s₁.contents) (hrest : Converges places items s₁ results last) :
    Converges places (i :: items) s (.ok done :: results) last := by
  obtain ⟨s', hlast, hpath', hkeys, hvalues, hnext⟩ := hrest.keys
  refine ⟨congrArg (· + 1) hrest.length, fun t r hmem => ?_, s', hlast, hpath'.trans hpath,
    fun database name => ?_, fun database name values => ?_, hnext⟩
  · rcases List.mem_cons.1 hmem with heq | hmem
    · cases heq
      exact ⟨done, rfl⟩
    · exact hrest.tables t r hmem
  · refine (hkeys database name).trans ?_
    rw [hputs.tables]
    exact (getLast?_filterMap_cons _ i _ _).symm
  · refine (hvalues database name values).trans ?_
    rw [hputs.partitions]
    exact (getLast?_filterMap_cons _ i _ _).symm

end Converging

/-- Registrations converge, whatever the catalog holds, as long as what they change can be
written. -/
theorem registrations_converge (places : Places) (items : List Item) (host : Host) (s : Store)
    (h : host.1.catalog = some s)
    (hwrites : Written (play (respond places) (registerEach items) host).1) :
    Converges places items s (play (respond places) (registerEach items) host).2.1
      (play (respond places) (registerEach items) host).2.2 := by
  induction items generalizing host s with
  | nil => exact converges_nil h
  | cons i items ih =>
    have hregisters := registers places i h
    rcases hplay : play (S := services) (respond places) i.register host with ⟨log, result, host'⟩
    rw [hplay] at hregisters
    rw [play_registerEach_cons hplay] at hwrites ⊢
    obtain ⟨hfirst, hothers⟩ := written_append.1 hwrites
    specialize hregisters hfirst
    cases result with
    | error e =>
      obtain rfl := hregisters.refused e rfl
      exact hregisters.converges_error (ih host' s h hothers)
    | ok done =>
      obtain ⟨s₁, hcatalog, hpath, hputs, -⟩ := hregisters.made done rfl
      exact converges_ok done hpath hputs (ih host' s₁ hcatalog hothers)

/-- A host without files, and the catalog of a file there. -/
def freshHost : Host :=
  ({ catalog := some ⟨"meta/catalog.json", []⟩ }, ⟨.empty, ⟨2024, 1, 1, 0, 0, 0⟩, []⟩)

/-- A table, a partition that is then moved, one for which the table gets another column, and
partitions that are not registered: of another table, and without values. -/
def freshItems : List Item :=
  [.table ⟨"raw", "account", "/out", ["Id"], ["run_id"]⟩,
    .partition ⟨"raw", "account", "/out", ["Id"], ["run_id"]⟩ ⟨["1"], "/out/1"⟩,
    .partition ⟨"raw", "account", "/out", ["Id"], ["run_id"]⟩ ⟨["1"], "/new/1"⟩,
    .table ⟨"raw", "account", "/out", ["Id", "Name"], ["run_id"]⟩,
    .partition ⟨"raw", "lead", "/out", ["Id"], ["run_id"]⟩ ⟨["1"], "/out/1"⟩,
    .partition ⟨"raw", "account", "/out", ["Id"], ["run_id"]⟩ ⟨[], "/out/1"⟩]

/-- The last items that could be registered are found, the catalog having been opened from a file
that is missing. -/
theorem registrations_converge_missing_file :
    Program.onDisk (Store.load "meta/catalog.json") freshHost.2.disk =
        (.ok ⟨"meta/catalog.json", []⟩, freshHost.2.disk) ∧
      ∃ s', (play (respond ⟨"/in", "/out", false⟩) (registerEach freshItems)
          freshHost).2.2.1.catalog = some s' ∧
        s'.contents.table? "raw" "account" =
          some ⟨"raw", "account", "/out", ["Id", "Name"], ["run_id"]⟩ ∧
        s'.contents.partition? "raw" "account" ["1"] = some ⟨["1"], "/new/1"⟩ ∧
        s'.contents.table? "raw" "lead" = none := by
  have hasked : (play (respond ⟨"/in", "/out", false⟩) (registerEach freshItems)
      freshHost).1.filterMap changing? =
        [.ok (), .ok (), .ok (), .ok (), .error (.catalog (.tableMissing "raw" "lead"))] := by
    decide +kernel
  have hresults : (play (respond ⟨"/in", "/out", false⟩) (registerEach freshItems)
      freshHost).2.1 = [.ok .created, .ok .created, .ok .updated, .ok .updated,
        .error (.catalog (.tableMissing "raw" "lead")), .error (.catalog (.valueCount 1 0))] := by
    decide +kernel
  have hwrites : Written (play (respond ⟨"/in", "/out", false⟩) (registerEach freshItems)
      freshHost).1 := by
    rw [Written, hasked]
    simp
  obtain ⟨s', hcatalog, -, hkeys, hvalues, -⟩ :=
    (registrations_converge ⟨"/in", "/out", false⟩ freshItems freshHost _ rfl hwrites).keys
  refine ⟨rfl, s', hcatalog, ?_, ?_, ?_⟩
  · rw [hkeys, hresults]
    rfl
  · rw [hvalues, hresults]
    rfl
  · rw [hkeys, hresults]
    rfl

end Local

end Harvest
