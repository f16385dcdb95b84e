import Harvest.Proofs.Catalog.Document
import Harvest.Proofs.Lists
import Mathlib.Logic.Function.Basic

/-!
# The catalog as a map

A catalog is a list of tables with lists of partitions. By its lookups it is a map from the key of a
table to the table and, by their values, its partitions (`Contents.toMap`), and every change does to
the map what it says (`Change.apply_toMap`). No key occurs twice (`Contents.Keyed`). So operations
one after the other are answered as by the map, also behind a new start from the file
(`Store.answers_as_map`).
-/

namespace Harvest.Catalog

/-- A table, and its partitions by their values. -/
structure Entry where
  table : Table
  partitions : List String → Option Partition

/-- What is held under the key of a table, which is a database and a name. -/
abbrev Map := String × String → Option Entry

/-- A change of a catalog. -/
inductive Change
  | create (t : Table)
  | alter (t : Table)
  | add (database name : String) (p : Partition)
  | move (database name : String) (p : Partition)

namespace Change

/-- Makes the change to the contents of a catalog. -/
def apply : Change → Contents → Except Fault Contents
  | create t => Contents.create t
  | alter t => Contents.alter t
  | add database name p => Contents.add database name p
  | move database name p => Contents.move database name p

/-- The key of the table that is changed. -/
def key : Change → String × String
  | create t => (t.database, t.name)
  | alter t => (t.database, t.name)
  | add database name _ => (database, name)
  | move database name _ => (database, name)

/-- Why the change is refused, with what is held under its key: what is there is not added, and
what is not there is not altered. -/
def refusal? : Change → Option Entry → Option Fault
  | create t, some _ => some (.tableExists t.database t.name)
  | create _, none => none
  | alter _, some _ => none
  | alter t, none => some (.tableMissing t.database t.name)
  | add database name _, none => some (.tableMissing database name)
  | add database name p, some e =>
    if (e.partitions p.values).isSome then some (.partitionExists p.values database name) else none
  | move database name _, none => some (.tableMissing database name)
  | move database name p, some e =>
    if (e.partitions p.values).isSome then none else some (.partitionMissing p.values database name)

/-- What is held under the key behind the change. -/
def effect : Change → Option Entry → Option Entry
  | create t, _ => some ⟨t, fun _ => none⟩
  | alter t, old => old.map fun e => { e with table := t }
  | add _ _ p, old =>
    old.map fun e => { e with partitions := Function.update e.partitions p.values (some p) }
  | move _ _ p, old =>
    old.map fun e => { e with partitions := Function.update e.partitions p.values (some p) }

end Change

section Lists

open Contents

variable {α β : Type} {p q : α → Bool} {f : α → α}

theorem find?_modifyFirst (hf : ∀ x, p x = true → p (f x) = true) (l : List α) :
    (modifyFirst p f l).find? p = (l.find? p).map f := by
  induction l with
  | nil => rfl
  | cons x l ih =>
    cases hx : p x with
    | true => simp [modifyFirst, hx, hf x hx]
    | false => simp [modifyFirst, hx, ih]

theorem find?_modifyFirst_of_not (h : ∀ x, p x = true → q x = false ∧ q (f x) = false)
    (l : List α) : (modifyFirst p f l).find? q = l.find? q := by
  induction l with
  | nil => rfl
  | cons x l ih =>
    cases hx : p x with
    | true => simp [modifyFirst, hx, h x hx]
    | false => cases hq : q x <;> simp [modifyFirst, hx, hq, ih]

theorem map_modifyFirst {k : α → β} (hf : ∀ x, p x = true → k (f x) = k x) (l : List α) :
    (modifyFirst p f l).map k = l.map k := by
  induction l with
  | nil => rfl
  | cons x l ih =>
    cases hx : p x with
    | true => simp [modifyFirst, hx, hf x hx]
    | false => simp [modifyFirst, hx, ih]

theorem mem_modifyFirst {l : List α} {x : α} (h : x ∈ modifyFirst p f l) :
    x ∈ l ∨ ∃ y, l.find? p = some y ∧ x = f y := by
  induction l with
  | nil => cases h
  | cons y l ih =>
    cases hy : p y with
    | true =>
      simp only [modifyFirst, hy, if_true, List.mem_cons] at h
      rcases h with rfl | h
      · exact .inr ⟨y, by simp [hy], rfl⟩
      · exact .inl (List.mem_cons_of_mem _ h)
    | false =>
      simp only [modifyFirst, hy, Bool.false_eq_true, if_false, List.mem_cons] at h
      rcases h with rfl | h
      · exact .inl List.mem_cons_self
      · rcases ih h with h | ⟨z, hz, rfl⟩
        · exact .inl (List.mem_cons_of_mem _ h)
        · exact .inr ⟨z, by simp [hy, hz], rfl⟩

end Lists

/-- The key of a table. -/
def Stored.key (s : Stored) : String × String := (s.table.database, s.table.name)

def Stored.entry (s : Stored) : Entry where
  table := s.table
  partitions values := s.partitions.find? (·.values == values)

theorem Stored.hasKey_iff (database name : String) (s : Stored) :
    s.hasKey database name = true ↔ s.key = (database, name) := by
  simp [hasKey, key]

namespace Contents

/-- The catalog by its lookups. -/
def toMap (c : Contents) : Map := fun k => (stored? c k.1 k.2).map Stored.entry

/-- No two tables have one key, and no two partitions of a table have the same values. -/
structure Keyed (c : Contents) : Prop where
  tables : (c.map Stored.key).Nodup
  partitions : ∀ s ∈ c, (s.partitions.map Partition.values).Nodup

variable {c : Contents} {database name : String}

theorem toMap_eq_none (h : stored? c database name = none) : c.toMap (database, name) = none := by
  simp [toMap, h]

theorem toMap_eq_some {s : Stored} (h : stored? c database name = some s) :
    c.toMap (database, name) = some s.entry := by
  simp [toMap, h]

/-- A table in the place of the one that is found, with the same key. -/
theorem toMap_modifyFirst (f : Stored → Stored) {s : Stored}
    (hs : stored? c database name = some s)
    (hf : ∀ s : Stored, s.key = (database, name) → (f s).key = s.key) :
    toMap (modifyFirst (Stored.hasKey database name) f c) =
      Function.update c.toMap (database, name) (some (f s).entry) := by
  funext k
  obtain ⟨database', name'⟩ := k
  by_cases hk : (database', name') = (database, name)
  · obtain ⟨rfl, rfl⟩ := Prod.mk.inj hk
    have hkey (s : Stored) (h : s.hasKey database' name' = true) :
        (f s).hasKey database' name' = true := by
      rw [Stored.hasKey_iff] at h ⊢
      rw [hf s h, h]
    rw [Function.update_self]
    apply toMap_eq_some
    rw [stored?, find?_modifyFirst hkey]
    rw [stored?] at hs
    rw [hs]
    rfl
  · rw [Function.update_of_ne hk, toMap, toMap, stored?, stored?, find?_modifyFirst_of_not]
    intro s hs
    rw [Stored.hasKey_iff] at hs
    have hother : s.key ≠ (database', name') := fun h => hk (h.symm.trans hs)
    rw [Bool.eq_false_iff, Bool.eq_false_iff, Ne, Ne, Stored.hasKey_iff, Stored.hasKey_iff,
      hf s hs]
    exact ⟨hother, hother⟩

theorem toMap_append (t : Table) (h : stored? c t.database t.name = none) :
    toMap (c ++ [⟨t, []⟩]) =
      Function.update c.toMap (t.database, t.name) (some ⟨t, fun _ => none⟩) := by
  funext k
  obtain ⟨database', name'⟩ := k
  by_cases hk : (database', name') = (t.database, t.name)
  · obtain ⟨rfl, rfl⟩ := Prod.mk.inj hk
    rw [Function.update_self]
    rw [stored?] at h
    simp [toMap, stored?, h, Stored.hasKey, Stored.entry]
  · have hother : (⟨t, []⟩ : Stored).hasKey database' name' = false := by
      rw [Bool.eq_false_iff, Ne, Stored.hasKey_iff]
      exact fun h => hk h.symm
    rw [Function.update_of_ne hk]
    simp [toMap, stored?, hother]

end Contents

section Partitions

variable (s : Stored) (p : Partition)

theorem any_values_eq : s.partitions.any (·.values == p.values) =
    (s.entry.partitions p.values).isSome := by
  rw [Bool.eq_iff_iff, Stored.entry, List.any_eq_true, List.find?_isSome]

/-- A partition that is added is found by its values. -/
theorem Stored.entry_append (h : s.entry.partitions p.values = none) :
    ({ s with partitions := s.partitions ++ [p] } : Stored).entry =
      { s.entry with partitions := Function.update s.entry.partitions p.values (some p) } := by
  rw [entry, entry, Entry.mk.injEq]
  refine ⟨rfl, funext fun values => ?_⟩
  simp only [entry] at h
  by_cases hvalues : values = p.values
  · subst hvalues
    simp [List.find?_append, h]
  · have hother : (p.values == values) = false := beq_false_of_ne (Ne.symm hvalues)
    simp [List.find?_append, Function.update_of_ne hvalues, hother]

theorem Stored.nodup_append (h : s.entry.partitions p.values = none)
    (hnodup : (s.partitions.map Partition.values).Nodup) :
    ((s.partitions ++ [p]).map Partition.values).Nodup := by
  rw [entry, List.find?_eq_none] at h
  exact Lists.nodup_map_append hnodup fun q hq hsame => h q hq (beq_iff_eq.2 hsame)

theorem Stored.values_modifyFirst :
    (Contents.modifyFirst (fun q => q.values == p.values) (fun _ => p) s.partitions).map
      Partition.values = s.partitions.map Partition.values := by
  apply map_modifyFirst
  intro q hq
  exact (eq_of_beq hq).symm

/-- A partition that is moved is found by its values. -/
theorem Stored.entry_modifyFirst (h : (s.entry.partitions p.values).isSome) :
    ({ s with partitions := (Contents.modifyFirst (fun q => q.values == p.values) (fun _ => p)
        s.partitions) } : Stored).entry =
      { s.entry with partitions := Function.update s.entry.partitions p.values (some p) } := by
  rw [entry, entry, Entry.mk.injEq]
  refine ⟨rfl, funext fun values => ?_⟩
  simp only [entry] at h
  by_cases hvalues : values = p.values
  · subst hvalues
    obtain ⟨q, hq⟩ := Option.isSome_iff_exists.1 h
    have hfound : (Contents.modifyFirst (fun q => q.values == p.values) (fun _ => p)
        s.partitions).find? (·.values == p.values) =
        (s.partitions.find? (·.values == p.values)).map fun _ => p :=
      find?_modifyFirst (by simp) s.partitions
    rw [Function.update_self, hfound, hq]
    rfl
  · rw [Function.update_of_ne hvalues, find?_modifyFirst_of_not]
    intro q hq
    have hsame : q.values = p.values := eq_of_beq hq
    rw [hsame]
    exact ⟨beq_false_of_ne (Ne.symm hvalues), beq_false_of_ne (Ne.symm hvalues)⟩

end Partitions

namespace Contents

variable {c : Contents} {database name : String}

theorem Keyed.append (h : c.Keyed) (t : Table) (hnone : stored? c t.database t.name = none) :
    Keyed (c ++ [⟨t, []⟩]) where
  tables := by
    rw [stored?, List.find?_eq_none] at hnone
    exact Lists.nodup_map_append h.tables fun s hs hsame =>
      hnone s hs ((Stored.hasKey_iff _ _ s).2 hsame)
  partitions := by
    exact List.forall_mem_append.2 ⟨h.partitions, by simp⟩

theorem Keyed.modifyFirst (h : c.Keyed) (f : Stored → Stored) {s : Stored}
    (hs : stored? c database name = some s)
    (hf : ∀ s : Stored, s.key = (database, name) → (f s).key = s.key)
    (hpartitions : (s.partitions.map Partition.values).Nodup →
      ((f s).partitions.map Partition.values).Nodup) :
    Keyed (modifyFirst (Stored.hasKey database name) f c) where
  tables := by
    rw [map_modifyFirst fun s hs => hf s ((Stored.hasKey_iff _ _ s).1 hs)]
    exact h.tables
  partitions := by
    intro s' hs'
    rcases mem_modifyFirst hs' with hmem | ⟨y, hy, rfl⟩
    · exact h.partitions s' hmem
    · cases hs.symm.trans hy
      exact hpartitions (h.partitions s (List.mem_of_find?_eq_some hs))

end Contents

namespace Change

/-- A change is refused for the reason of the map, or it does to the map what it says and lets no
key occur twice. -/
theorem apply_toMap (c : Change) (contents : Contents) :
    (∃ fault, c.refusal? (contents.toMap c.key) = some fault ∧ c.apply contents = .error fault) ∨
      ∃ after, c.refusal? (contents.toMap c.key) = none ∧ c.apply contents = .ok after ∧
        after.toMap = Function.update contents.toMap c.key (c.effect (contents.toMap c.key)) ∧
        (contents.Keyed → after.Keyed) := by
  cases c with
  | create t =>
    rw [key, apply, Contents.create]
    cases hs : Contents.stored? contents t.database t.name with
    | some s =>
      rw [Contents.toMap_eq_some hs]
      exact .inl ⟨_, rfl, rfl⟩
    | none =>
      rw [Contents.toMap_eq_none hs]
      exact .inr ⟨_, rfl, rfl, Contents.toMap_append t hs, fun h => h.append t hs⟩
  | alter t =>
    rw [key, apply, Contents.alter]
    cases hs : Contents.stored? contents t.database t.name with
    | none =>
      rw [Contents.toMap_eq_none hs]
      exact .inl ⟨_, rfl, rfl⟩
    | some s =>
      rw [Contents.toMap_eq_some hs]
      have hkey (s : Stored) (h : s.key = (t.database, t.name)) :
          ({ s with table := t } : Stored).key = s.key := h.symm
      exact .inr ⟨_, rfl, rfl, Contents.toMap_modifyFirst _ hs hkey,
        fun h => h.modifyFirst _ hs hkey id⟩
  | add database name p =>
    rw [key, apply, Contents.add]
    cases hs : Contents.stored? contents database name with
    | none =>
      rw [Contents.toMap_eq_none hs]
      exact .inl ⟨_, rfl, rfl⟩
    | some s =>
      rw [Contents.toMap_eq_some hs]
      dsimp only
      rw [any_values_eq, refusal?]
      by_cases hexists : (s.entry.partitions p.values).isSome = true
      · rw [if_pos hexists, if_pos hexists]
        exact .inl ⟨_, rfl, rfl⟩
      rw [if_neg hexists, if_neg hexists]
      have hnone : s.entry.partitions p.values = none := by simpa using hexists
      refine .inr ⟨_, rfl, rfl, ?_, fun h => h.modifyFirst _ hs (fun _ _ => rfl) fun hnodup => ?_⟩
      · refine Eq.trans (Contents.toMap_modifyFirst _ hs fun _ _ => rfl) ?_
        rw [Stored.entry_append s p hnone]
        rfl
      · exact s.nodup_append p hnone hnodup
  | move database name p =>
    rw [key, apply, Contents.move]
    cases hs : Contents.stored? contents database name with
    | none =>
      rw [Contents.toMap_eq_none hs]
      exact .inl ⟨_, rfl, rfl⟩
    | some s =>
      rw [Contents.toMap_eq_some hs]
      dsimp only
      rw [any_values_eq, refusal?]
      by_cases hexists : (s.entry.partitions p.values).isSome = true
      · rw [if_pos hexists, if_pos hexists]
        refine .inr ⟨_, rfl, rfl, ?_, fun h => h.modifyFirst _ hs (fun _ _ => rfl) fun hnodup => ?_⟩
        · refine Eq.trans (Contents.toMap_modifyFirst _ hs fun _ _ => rfl) ?_
          rw [Stored.entry_modifyFirst s p hexists]
          rfl
        · rw [s.values_modifyFirst p]
          exact hnodup
      · rw [if_neg hexists, if_neg hexists]
        exact .inl ⟨_, rfl, rfl⟩

end Change

section Lookups

variable {c : Contents}

theorem Contents.table?_eq (database name : String) :
    c.table? database name = (c.toMap (database, name)).map Entry.table := by
  rw [table?, toMap, Option.map_map]
  rfl

theorem Contents.partition?_eq (database name : String) (values : List String) :
    c.partition? database name values =
      (c.toMap (database, name)).bind (·.partitions values) := by
  rw [partition?, toMap, Option.bind_map]
  rfl

end Lookups

namespace Change

/-- What is to be added is there already, or what is to be altered is not. -/
def Conflicts (contents : Contents) : Change → Prop
  | create t => (contents.table? t.database t.name).isSome
  | alter t => contents.table? t.database t.name = none
  | add database name p => contents.table? database name = none ∨
      (contents.partition? database name p.values).isSome
  | move database name p => contents.partition? database name p.values = none

/-- The partition that is changed, where it is not the table itself. -/
def partition? : Change → Option Partition
  | create _ => none
  | alter _ => none
  | add _ _ p => some p
  | move _ _ p => some p

/-- What is found under other keys is as it was, and so are the partitions of the table, or the
table and its other partitions. -/
structure Spares (c : Change) (before after : Contents) : Prop where
  tables : ∀ database name, ((database, name) = c.key → c.partition?.isSome) →
    after.table? database name = before.table? database name
  partitions : ∀ database name values,
    ((database, name) = c.key → ∀ p ∈ c.partition?, values ≠ p.values) →
      after.partition? database name values = before.partition? database name values

variable (c : Change) {contents after : Contents}

theorem conflicts_iff (contents : Contents) :
    c.Conflicts contents ↔ ∃ fault, c.refusal? (contents.toMap c.key) = some fault := by
  cases c with
  | create t =>
    cases h : contents.toMap (t.database, t.name) <;>
      simp [Conflicts, key, refusal?, Contents.table?_eq, h]
  | alter t =>
    cases h : contents.toMap (t.database, t.name) <;>
      simp [Conflicts, key, refusal?, Contents.table?_eq, h]
  | add database name p =>
    cases h : contents.toMap (database, name) with
    | none => simp [Conflicts, key, refusal?, Contents.table?_eq, h]
    | some e =>
      cases hp : e.partitions p.values <;>
        simp [Conflicts, key, refusal?, Contents.table?_eq, Contents.partition?_eq, h, hp]
  | move database name p =>
    cases h : contents.toMap (database, name) with
    | none => simp [Conflicts, key, refusal?, Contents.partition?_eq, h]
    | some e =>
      cases hp : e.partitions p.values <;>
        simp [Conflicts, key, refusal?, Contents.partition?_eq, h, hp]

theorem apply_error_iff (contents : Contents) :
    (∃ fault, c.apply contents = .error fault) ↔ c.Conflicts contents := by
  rw [conflicts_iff]
  rcases c.apply_toMap contents with ⟨fault, hrefusal, happly⟩ | ⟨after, hrefusal, happly, -⟩
  · exact ⟨fun _ => ⟨fault, hrefusal⟩, fun _ => ⟨fault, happly⟩⟩
  · simp [hrefusal, happly]

theorem spares_of_apply (h : c.apply contents = .ok after) : c.Spares contents after := by
  obtain ⟨fault, -, happly⟩ | ⟨_, hrefusal, happly, htoMap, -⟩ := c.apply_toMap contents
  · cases h.symm.trans happly
  cases h.symm.trans happly
  have hother {k : String × String} (hk : k ≠ c.key) : after.toMap k = contents.toMap k := by
    rw [htoMap, Function.update_of_ne hk]
  have hkey : after.toMap c.key = c.effect (contents.toMap c.key) := by
    rw [htoMap, Function.update_self]
  constructor
  · intro database name h
    rw [Contents.table?_eq, Contents.table?_eq]
    by_cases hk : (database, name) = c.key
    · rw [hk, hkey]
      have hpartition := h hk
      cases c with
      | create t => cases hpartition
      | alter t => cases hpartition
      | add _ _ p => cases contents.toMap (key (add _ _ p)) <;> rfl
      | move _ _ p => cases contents.toMap (key (move _ _ p)) <;> rfl
    · rw [hother hk]
  · intro database name values h
    rw [Contents.partition?_eq, Contents.partition?_eq]
    by_cases hk : (database, name) = c.key
    · rw [hk, hkey]
      have hvalues := h hk
      cases c with
      | create t =>
        cases hold : contents.toMap (key (create t)) with
        | none => simp [effect]
        | some e => simp [hold, refusal?] at hrefusal
      | alter t => cases contents.toMap (key (alter t)) <;> rfl
      | add _ _ p =>
        cases contents.toMap (key (add _ _ p)) with
        | none => rfl
        | some e => exact Function.update_of_ne (hvalues p rfl) _ _
      | move _ _ p =>
        cases contents.toMap (key (move _ _ p)) with
        | none => rfl
        | some e => exact Function.update_of_ne (hvalues p rfl) _ _
    · rw [hother hk]

end Change

/-- What is asked of a catalog. -/
inductive Operation
  | change (c : Change)
  | table (database name : String)
  | partition (database name : String) (values : List String)
  /-- To be opened anew from its file. -/
  | reopen

inductive Answer
  | done
  | table (t : Option Table)
  | partition (p : Option Partition)
  deriving DecidableEq

namespace Map

/-- The answer of a map to an operation, and the map then. -/
def answer (d : Map) : Operation → Except Fault Answer × Map
  | .change c =>
    match c.refusal? (d c.key) with
    | some fault => (.error fault, d)
    | none => (.ok .done, Function.update d c.key (c.effect (d c.key)))
  | .table database name => (.ok (.table ((d (database, name)).map Entry.table)), d)
  | .partition database name values =>
    (.ok (.partition ((d (database, name)).bind (·.partitions values))), d)
  | .reopen => (.ok .done, d)

/-- The answers to operations one after the other. -/
def answers (d : Map) : List Operation → List (Except Fault Answer) × Map
  | [] => ([], d)
  | o :: rest =>
    ((d.answer o).1 :: ((d.answer o).2.answers rest).1, ((d.answer o).2.answers rest).2)

end Map

namespace Store

/-- Performs an operation. A catalog that cannot be opened anew stays as it is. -/
def perform (s : Store) : Operation → Program Disk.service (Except ExtractError Answer × Store)
  | .change c => (s.update c.apply).bind fun (r, s') => .done (r.map fun _ => .done, s')
  | .table database name => .done (.ok (.table (s.contents.table? database name)), s)
  | .partition database name values =>
    .done (.ok (.partition (s.contents.partition? database name values)), s)
  | .reopen => (load s.path).run.bind fun
    | .ok s' => .done (.ok .done, s')
    | .error e => .done (.error e, s)

/-- Performs operations one after the other. -/
def performAll (s : Store) :
    List Operation → Program Disk.service (List (Except ExtractError Answer) × Store)
  | [] => .done ([], s)
  | o :: rest => (s.perform o).bind fun (r, s') =>
      (s'.performAll rest).bind fun (rs, s'') => .done (r :: rs, s'')

/-- A change that is not refused can be written. -/
def canWrite (s : Store) (m : Disk.Memory) : Operation → Bool
  | .change c =>
    match c.apply s.contents with
    | .ok contents => (Program.onDisk { s with contents }.save m).1.toOption.isSome
    | .error _ => true
  | _ => true

/-- Every file that operations one after the other write is written. -/
def writesAll (s : Store) (m : Disk.Memory) : List Operation → Bool
  | [] => true
  | o :: rest =>
    s.canWrite m o &&
      (Program.onDisk (s.perform o) m).1.2.writesAll (Program.onDisk (s.perform o) m).2 rest

variable {s : Store} {m m' : Disk.Memory}

theorem exists_of_canWrite {c : Change} {contents : Contents}
    (hwrites : s.canWrite m (.change c) = true) (h : c.apply s.contents = .ok contents) :
    ∃ m', Program.onDisk { s with contents }.save m = (.ok (), m') := by
  simp only [canWrite, h] at hwrites
  rcases hsave : Program.onDisk { s with contents }.save m with ⟨e | _, m'⟩
  · rw [hsave] at hwrites
    cases hwrites
  · exact ⟨m', hsave⟩

theorem onDisk_update_ok {c : Change} {contents : Contents} (h : c.apply s.contents = .ok contents)
    (hsave : Program.onDisk { s with contents }.save m = (.ok (), m')) :
    (s.update c.apply).onDisk m = ((.ok (), { s with contents }), m') := by
  have hrun : (Program.onDisk (ExceptT.run { s with contents }.save) m) = (.ok (), m') := hsave
  rw [update, h]
  dsimp only
  rw [Program.onDisk_bind, hrun]
  rfl

/-- A change that is refused leaves the catalog and the disk as they are. -/
theorem onDisk_update_error {c : Change} {fault : Fault} (h : c.apply s.contents = .error fault) :
    (s.update c.apply).onDisk m = ((.error (.catalog fault), s), m) := by
  rw [update, h]
  rfl

/-- An operation is answered as by the map, and then the disk holds the catalog again. -/
theorem perform_as_map (o : Operation) (hkept : s.Kept m) (hkeyed : s.contents.Keyed)
    (hwrites : s.canWrite m o = true) :
    ∃ s' m', (s.perform o).onDisk m =
        (((s.contents.toMap.answer o).1.mapError ExtractError.catalog, s'), m') ∧
      s'.path = s.path ∧ s'.contents.toMap = (s.contents.toMap.answer o).2 ∧
      s'.contents.Keyed ∧ s'.Kept m' := by
  cases o with
  | change c =>
    rcases c.apply_toMap s.contents with
      ⟨fault, hrefusal, hrefused⟩ | ⟨after, hrefusal, happly, htoMap, hafter⟩
    · refine ⟨s, m, ?_, rfl, ?_, hkeyed, hkept⟩
      · rw [perform, Program.onDisk_bind, onDisk_update_error hrefused, Map.answer, hrefusal]
        rfl
      · rw [Map.answer, hrefusal]
    · obtain ⟨m', hsave⟩ := exists_of_canWrite hwrites happly
      refine ⟨{ s with contents := after }, m', ?_, rfl, ?_, hafter hkeyed, kept_of_save _ hsave⟩
      · rw [perform, Program.onDisk_bind, onDisk_update_ok happly hsave, Map.answer, hrefusal]
        rfl
      · rw [Map.answer, hrefusal]
        exact htoMap
  | table database name =>
    refine ⟨s, m, ?_, rfl, rfl, hkeyed, hkept⟩
    simp only [perform, Map.answer, Contents.table?, Contents.toMap, Option.map_map]
    rfl
  | partition database name values =>
    refine ⟨s, m, ?_, rfl, rfl, hkeyed, hkept⟩
    simp only [perform, Map.answer, Contents.partition?, Contents.toMap, Option.bind_map]
    rfl
  | reopen =>
    have hload : (load s.path).run.onDisk m = (.ok s, m) := s.load_of_kept hkept
    refine ⟨s, m, ?_, rfl, rfl, hkeyed, hkept⟩
    rw [perform, Program.onDisk_bind, hload]
    rfl

/-- So are operations one after the other, by induction on them. -/
theorem performAll_as_map (operations : List Operation) (hkept : s.Kept m)
    (hkeyed : s.contents.Keyed) (hwrites : s.writesAll m operations = true) :
    ∃ s' m', (s.performAll operations).onDisk m =
        (((s.contents.toMap.answers operations).1.map (·.mapError ExtractError.catalog), s'), m') ∧
      s'.path = s.path ∧ s'.contents.toMap = (s.contents.toMap.answers operations).2 ∧
      s'.contents.Keyed ∧ s'.Kept m' := by
  induction operations generalizing s m with
  | nil => exact ⟨s, m, rfl, rfl, rfl, hkeyed, hkept⟩
  | cons o rest ih =>
    simp only [writesAll, Bool.and_eq_true] at hwrites
    obtain ⟨s₁, m₁, hperform, hpath₁, htoMap₁, hkeyed₁, hkept₁⟩ :=
      perform_as_map o hkept hkeyed hwrites.1
    rw [hperform] at hwrites
    obtain ⟨s₂, m₂, hrest, hpath₂, htoMap₂, hkeyed₂, hkept₂⟩ := ih hkept₁ hkeyed₁ hwrites.2
    refine ⟨s₂, m₂, ?_, hpath₂.trans hpath₁, ?_, hkeyed₂, hkept₂⟩
    · rw [performAll, Program.onDisk_bind, hperform]
      dsimp only
      rw [Program.onDisk_bind, hrest, htoMap₁]
      rfl
    · rw [htoMap₂, htoMap₁]
      rfl

/-- A catalog that starts without a file, as long as all of its writing succeeds: every answer is
the one of a map, no key occurs twice, and from its file it is opened as it is. A change is refused
just where it conflicts with what is there, and then it leaves the catalog and the disk as they are;
a change that is made spares everything else. -/
theorem answers_as_map (path : String) (m : Disk.Memory) (hmissing : ∀ e, m.find path ≠ .ok e)
    (operations : List Operation)
    (hwrites : Store.writesAll ⟨path, []⟩ m operations = true) :
    Program.onDisk (load path) m = (.ok ⟨path, []⟩, m) ∧
    ∃ s m', (Store.performAll ⟨path, []⟩ operations).onDisk m =
        (((Map.answers (fun _ => none) operations).1.map (·.mapError ExtractError.catalog), s),
          m') ∧
      s.contents.toMap = (Map.answers (fun _ => none) operations).2 ∧ s.contents.Keyed ∧
      Program.onDisk (load path) m' = (.ok s, m') ∧
      ∀ c : Change,
        ((∃ fault, c.apply s.contents = .error fault) ↔ c.Conflicts s.contents) ∧
        (∀ fault, c.apply s.contents = .error fault →
          (s.update c.apply).onDisk m' = ((.error (.catalog fault), s), m')) ∧
        ∀ after, c.apply s.contents = .ok after → c.Spares s.contents after := by
  have hkept : Kept ⟨path, []⟩ m := .inr ⟨hmissing, rfl⟩
  refine ⟨load_of_kept ⟨path, []⟩ hkept, ?_⟩
  obtain ⟨s, m', hperform, rfl, htoMap, hkeyed, hkept'⟩ :=
    performAll_as_map operations hkept ⟨List.nodup_nil, List.forall_mem_nil _⟩ hwrites
  refine ⟨s, m', hperform, htoMap, hkeyed, s.load_of_kept hkept', fun c => ?_⟩
  exact ⟨c.apply_error_iff s.contents, fun fault h => onDisk_update_error h,
    fun after h => c.spares_of_apply h⟩

/-- Without its table a partition is refused, although there is none with its values. -/
theorem add_refused_without_table :
    (Store.performAll ⟨"catalog.json", []⟩
      [.change (.add "raw" "account" ⟨["r1"], "/x"⟩)]).onDisk Disk.Memory.empty =
        (([.error (.catalog (.tableMissing "raw" "account"))], ⟨"catalog.json", []⟩),
          Disk.Memory.empty) ∧
      Contents.partition? [] "raw" "account" ["r1"] = none :=
  ⟨rfl, rfl⟩

/-- A table and its partition, which is added, refused, moved, and found behind a new start. -/
theorem answers_as_map_reopened :
    ∃ s m', (Store.performAll ⟨"meta/catalog.json", []⟩
      [.change (.create ⟨"raw", "account", "/out", ["Id"], ["run_id"]⟩),
        .change (.add "raw" "account" ⟨["r\"1"], "/out/1"⟩),
        .change (.add "raw" "account" ⟨["r\"1"], "/x"⟩),
        .change (.move "raw" "account" ⟨["r\"1"], "/out/2"⟩), .reopen,
        .partition "raw" "account" ["r\"1"]]).onDisk Disk.Memory.empty =
          (([.ok .done, .ok .done,
            .error (.catalog (.partitionExists ["r\"1"] "raw" "account")), .ok .done, .ok .done,
            .ok (.partition (some ⟨["r\"1"], "/out/2"⟩))], s), m') ∧
      s.contents.Keyed ∧ Program.onDisk (load "meta/catalog.json") m' = (.ok s, m') := by
  have hmissing : ∀ e, Disk.Memory.empty.find "meta/catalog.json" ≠ .ok e := by
    intro e h
    cases h
  obtain ⟨-, s, m', hperform, -, hkeyed, hload, -⟩ :=
    answers_as_map "meta/catalog.json" Disk.Memory.empty hmissing
      [.change (.create ⟨"raw", "account", "/out", ["Id"], ["run_id"]⟩),
        .change (.add "raw" "account" ⟨["r\"1"], "/out/1"⟩),
        .change (.add "raw" "account" ⟨["r\"1"], "/x"⟩),
        .change (.move "raw" "account" ⟨["r\"1"], "/out/2"⟩), .reopen,
        .partition "raw" "account" ["r\"1"]] (by decide +kernel)
  exact ⟨s, m', hperform, hkeyed, hload⟩

end Store

end Harvest.Catalog
