import Harvest.Proofs.Catalog.Registering

/-!
# The number of values of a partition

A registration compares a partition with the table it is given, and not with the table that the
catalog holds, and a table that is altered keeps its partitions. So it is the tables that are given
which have to agree: where those of one key have the same number of partition keys, every partition
of the catalog has as many values as its table has keys, and a catalog of which this is true loses
it with the next registration just where that does not fit (`Local.registrations_aligned`).
-/

namespace Harvest

open Program (play)

namespace Catalog

/-- The partitions of a table have as many values as it has keys. -/
def Stored.Aligned (s : Stored) : Prop :=
  ∀ p ∈ s.partitions, p.values.length = s.table.partitionKeys.length

/-- So do the partitions of all tables. -/
def Contents.Aligned (c : Contents) : Prop := ∀ s ∈ c, s.Aligned

namespace Item

/-- The table with which the item is registered. -/
def given : Item → Table
  | table t => t
  | partition t _ => t

/-- The key of that table. -/
def key (i : Item) : String × String := (i.given.database, i.given.name)

/-- What is in the catalog has the number of values or keys that the item has. -/
def Fits (c : Contents) : Item → Prop
  | table t => ∀ s, Contents.stored? c t.database t.name = some s →
      ∀ p ∈ s.partitions, p.values.length = t.partitionKeys.length
  | partition t p => (partition t p).Counted → ∀ s, Contents.stored? c t.database t.name = some s →
      p.values.length = s.table.partitionKeys.length

/-- The tables that are given under one key have the same number of partition keys. -/
def Uniform (items : List Item) : Prop :=
  ∀ i ∈ items, ∀ j ∈ items, i.key = j.key →
    i.given.partitionKeys.length = j.given.partitionKeys.length

instance (items : List Item) : Decidable (Uniform items) :=
  inferInstanceAs (Decidable (∀ i ∈ items, ∀ j ∈ items, i.key = j.key →
    i.given.partitionKeys.length = j.given.partitionKeys.length))

/-- The table has been registered, and each of its partitions with a table of its key that has as
many keys as the partition has values. -/
structure Source (items : List Item) (s : Stored) : Prop where
  table : .table s.table ∈ items
  partitions : ∀ p ∈ s.partitions, ∃ t : Table, .partition t p ∈ items ∧
    (t.database, t.name) = s.key ∧ t.partitionKeys.length = p.values.length

theorem Source.aligned {items : List Item} {s : Stored} (h : Source items s)
    (huniform : Uniform items) : s.Aligned := by
  intro p hp
  obtain ⟨t, ht, hkey, hcount⟩ := h.partitions p hp
  exact hcount.symm.trans (huniform _ ht _ h.table hkey)

theorem Source.mono {items items' : List Item} {s : Stored} (h : Source items s)
    (hsub : items ⊆ items') : Source items' s where
  table := hsub h.table
  partitions p hp :=
    let ⟨t, ht, hkey, hcount⟩ := h.partitions p hp
    ⟨t, hsub ht, hkey, hcount⟩

end Item

section Lists

open Contents

variable {α : Type} {p : α → Bool} {f : α → α} {P : α → Prop} {l : List α} {y : α}

theorem modifyFirst_of_not_found (h : l.find? p = none) : modifyFirst p f l = l := by
  induction l with
  | nil => rfl
  | cons x l ih =>
    obtain ⟨hx, hl⟩ := List.forall_mem_cons.1 (List.find?_eq_none.1 h)
    simp [modifyFirst, hx, ih (List.find?_eq_none.2 hl)]

/-- Only what becomes of the first element matters. -/
theorem modifyFirst_congr {g : α → α} (h : l.find? p = some y) (hfg : f y = g y) :
    modifyFirst p f l = modifyFirst p g l := by
  induction l with
  | nil => rfl
  | cons x l ih =>
    cases hx : p x with
    | true =>
      rw [List.find?_cons_of_pos hx] at h
      cases h
      simp [modifyFirst, hx, hfg]
    | false =>
      rw [List.find?_cons_of_neg (by simp [hx])] at h
      simp [modifyFirst, hx, ih h]

theorem modifyFirst_id (p : α → Bool) (l : List α) : modifyFirst p id l = l := by
  induction l with
  | nil => rfl
  | cons x l ih => simp [modifyFirst, ih]

theorem modifyFirst_of_found (h : l.find? p = some y) (hf : f y = y) : modifyFirst p f l = l :=
  (modifyFirst_congr h (show f y = id y from hf)).trans (modifyFirst_id p l)

theorem apply_mem_modifyFirst (h : l.find? p = some y) : f y ∈ modifyFirst p f l := by
  induction l with
  | nil => cases h
  | cons x l ih =>
    cases hx : p x with
    | true =>
      rw [List.find?_cons_of_pos hx] at h
      cases h
      simp [modifyFirst, hx]
    | false =>
      rw [List.find?_cons_of_neg (by simp [hx])] at h
      simp [modifyFirst, hx, ih h]

/-- What holds of all elements holds behind a change of one just if it holds of the changed one. -/
theorem forall_mem_modifyFirst_iff (hall : ∀ x ∈ l, P x) (h : l.find? p = some y) :
    (∀ x ∈ modifyFirst p f l, P x) ↔ P (f y) := by
  refine ⟨fun h' => h' _ (apply_mem_modifyFirst h), fun hy x hx => ?_⟩
  rcases mem_modifyFirst hx with hx | ⟨z, hz, rfl⟩
  · exact hall x hx
  · cases h.symm.trans hz
    exact hy

end Lists

/-- Puts a partition in the place of the one with its values, or behind the others. -/
def Partition.putInto (p : Partition) (partitions : List Partition) : List Partition :=
  if partitions.any (·.values == p.values) then
    Contents.modifyFirst (fun q => q.values == p.values) (fun _ => p) partitions
  else partitions ++ [p]

/-- A table gets another in its place and keeps its partitions. -/
def Stored.withTable (t : Table) (s : Stored) : Stored := { s with table := t }

/-- A partition is put to those of a table. -/
def Stored.withPartition (p : Partition) (s : Stored) : Stored :=
  { s with partitions := p.putInto s.partitions }

theorem Partition.mem_putInto {p q : Partition} {partitions : List Partition}
    (h : q ∈ p.putInto partitions) : q ∈ partitions ∨ q = p := by
  rw [putInto] at h
  split at h
  · exact (mem_modifyFirst h).imp_right fun ⟨_, _, hq⟩ => hq
  · simpa using h

theorem Partition.self_mem_putInto (p : Partition) (partitions : List Partition) :
    p ∈ p.putInto partitions := by
  rw [putInto]
  split
  · rename_i hany
    obtain ⟨q, hq⟩ := Option.isSome_iff_exists.1 (List.find?_isSome.2 (List.any_eq_true.1 hany))
    exact apply_mem_modifyFirst hq
  · exact List.mem_append_right _ (List.mem_singleton_self p)

namespace Contents

/-- The contents of a catalog behind a registration. -/
def register (c : Contents) : Item → Contents
  | .table t =>
    match stored? c t.database t.name with
    | none => c ++ [⟨t, []⟩]
    | some _ => modifyFirst (Stored.hasKey t.database t.name) (Stored.withTable t) c
  | .partition t p =>
    if t.partitionKeys.length = p.values.length then
      modifyFirst (Stored.hasKey t.database t.name) (Stored.withPartition p) c
    else c

variable {c : Contents} {i : Item}

theorem register_table_of_same {t : Table} (h : c.table? t.database t.name = some t) :
    c.register (.table t) = c := by
  obtain ⟨s, hs, htable⟩ := Option.map_eq_some_iff.1 h
  rw [register, hs]
  exact modifyFirst_of_found hs (by rw [Stored.withTable, ← htable])

theorem register_partition_of_missing {t : Table} (p : Partition)
    (h : stored? c t.database t.name = none) : c.register (.partition t p) = c := by
  rw [register]
  split
  · exact modifyFirst_of_not_found h
  · rfl

theorem register_partition_of_same {t : Table} {p : Partition}
    (h : c.partition? t.database t.name p.values = some p) : c.register (.partition t p) = c := by
  obtain ⟨s, hs, hfound⟩ := Option.bind_eq_some_iff.1 h
  have hany : s.partitions.any (·.values == p.values) = true :=
    List.any_eq_true.2 (List.find?_isSome.1 (Option.isSome_iff_exists.2 ⟨p, hfound⟩))
  rw [register]
  split
  · refine modifyFirst_of_found hs ?_
    rw [Stored.withPartition, Partition.putInto, if_pos hany, modifyFirst_of_found hfound rfl]
  · rfl

theorem register_partition_of_stored {t : Table} {p : Partition} {s : Stored} {f : Stored → Stored}
    (hcount : t.partitionKeys.length = p.values.length)
    (hs : stored? c t.database t.name = some s) (hf : f s = s.withPartition p) :
    c.register (.partition t p) = modifyFirst (Stored.hasKey t.database t.name) f c := by
  rw [register, if_pos hcount]
  exact modifyFirst_congr hs hf.symm

/-- A change that is asked for in a registration leads to what the registration leaves. -/
theorem register_of_apply {ch : Change} {done : Registered} {after : Contents}
    (hcount : i.Counted) (hchange : i.change? c = some (ch, done))
    (happly : ch.apply c = .ok after) : c.register i = after := by
  cases i with
  | table t =>
    rw [Item.change?] at hchange
    split at hchange
    · cases hchange
      rw [Change.apply, create] at happly
      split at happly
      · cases happly
      · rename_i hnone
        cases happly
        rw [register, hnone]
    · split at hchange
      · cases hchange
      · cases hchange
        rw [Change.apply, alter] at happly
        split at happly
        · rename_i s hs
          cases happly
          rw [register, hs]
          rfl
        · cases happly
  | partition t p =>
    rw [Item.change?] at hchange
    split at hchange
    · cases hchange
      rw [Change.apply, add] at happly
      split at happly
      · cases happly
      · rename_i s hs
        split at happly
        · cases happly
        · rename_i hany
          cases happly
          refine register_partition_of_stored hcount hs ?_
          rw [Stored.withPartition, Partition.putInto, if_neg hany]
    · split at hchange
      · cases hchange
      · cases hchange
        rw [Change.apply, move] at happly
        split at happly
        · cases happly
        · rename_i s hs
          split at happly
          · rename_i hany
            cases happly
            refine register_partition_of_stored hcount hs ?_
            rw [Stored.withPartition, Partition.putInto, if_pos hany]
          · cases happly

theorem eq_of_unchanged {α : Type} [DecidableEq α] {new : α} {old : Option α}
    (h : Registered.of new old = .unchanged) : old = some new := by
  cases old with
  | none => cases h
  | some old =>
    rw [Registered.of] at h
    split at h
    · exact congrArg some ‹old = new›
    · cases h

theorem register_of_uncounted (h : ¬ i.Counted) : c.register i = c := by
  cases i with
  | table t => exact absurd trivial h
  | partition t p =>
    rw [register]
    exact if_neg h

/-- A registration leaves everything as it is where the item is there or is refused. -/
theorem register_of_answer (h : i.answer c = .ok .unchanged ∨ ∃ fault, i.answer c = .error fault) :
    c.register i = c := by
  cases i with
  | table t =>
    rw [Item.answer] at h
    rcases h with h | ⟨_, h⟩
    · exact register_table_of_same (eq_of_unchanged (Except.ok.inj h))
    · cases h
  | partition t p =>
    rw [Item.answer] at h
    split at h
    · exact register_of_uncounted ‹_›
    split at h
    · rename_i htable
      exact register_partition_of_missing p (Option.map_eq_none_iff.1 htable)
    · rcases h with h | ⟨_, h⟩
      · exact register_partition_of_same (eq_of_unchanged (Except.ok.inj h))
      · cases h

end Contents

section Aligned

variable {c : Contents} {i : Item} {items : List Item}

/-- A registration keeps to what has been registered. -/
theorem Contents.source_register (h : ∀ s ∈ c, Item.Source items s) :
    ∀ s ∈ c.register i, Item.Source (items ++ [i]) s := by
  have hbefore (s : Stored) (hs : s ∈ c) : Item.Source (items ++ [i]) s :=
    (h s hs).mono (List.subset_append_left items [i])
  have hi : i ∈ items ++ [i] := List.mem_append_right _ (List.mem_singleton_self i)
  cases i with
  | table t =>
    rw [register]
    split
    · refine List.forall_mem_append.2 ⟨hbefore, ?_⟩
      rw [List.forall_mem_singleton]
      exact ⟨hi, List.forall_mem_nil _⟩
    · rename_i s hs
      refine (forall_mem_modifyFirst_iff hbefore hs).2 ⟨hi, fun p hp => ?_⟩
      have hkey : s.key = (t.database, t.name) :=
        (Stored.hasKey_iff _ _ s).1 (List.find?_some hs)
      obtain ⟨t', ht', hkey', hcount⟩ := (hbefore s (List.mem_of_find?_eq_some hs)).partitions p hp
      exact ⟨t', ht', hkey'.trans hkey, hcount⟩
  | partition t p =>
    rw [register]
    split
    · rename_i hcount
      cases hs : stored? c t.database t.name with
      | none =>
        rw [modifyFirst_of_not_found hs]
        exact hbefore
      | some s =>
        have hkey : s.key = (t.database, t.name) :=
          (Stored.hasKey_iff _ _ s).1 (List.find?_some hs)
        have hsource := hbefore s (List.mem_of_find?_eq_some hs)
        refine (forall_mem_modifyFirst_iff hbefore hs).2 ⟨hsource.table, fun q hq => ?_⟩
        rcases Partition.mem_putInto hq with hq | rfl
        · exact hsource.partitions q hq
        · exact ⟨t, hi, hkey.symm, hcount⟩
    · exact hbefore

theorem Contents.source_foldl {before : List Item} (h : ∀ s ∈ c, Item.Source before s) :
    ∀ s ∈ items.foldl register c, Item.Source (before ++ items) s := by
  induction items generalizing before c with
  | nil => rwa [List.append_nil]
  | cons i items ih =>
    rw [List.foldl_cons, ← List.singleton_append, ← List.append_assoc]
    exact ih (source_register h)

/-- A catalog of which the partitions have as many values as their tables have keys stays like that
just if what is registered fits. -/
theorem Contents.aligned_register_iff (h : c.Aligned) : (c.register i).Aligned ↔ i.Fits c := by
  cases i with
  | table t =>
    rw [register, Item.Fits]
    split
    · rename_i hnone
      refine iff_of_true (List.forall_mem_append.2 ⟨h, ?_⟩) fun s hs => ?_
      · rw [List.forall_mem_singleton]
        exact List.forall_mem_nil _
      · cases hnone.symm.trans hs
    · rename_i s hs
      refine (forall_mem_modifyFirst_iff h hs).trans ⟨fun haligned s' hs' => ?_, fun hfits => ?_⟩
      · cases hs.symm.trans hs'
        exact haligned
      · exact hfits s hs
  | partition t p =>
    rw [register, Item.Fits]
    split
    · rename_i hcount
      cases hs : stored? c t.database t.name with
      | none =>
        rw [modifyFirst_of_not_found hs]
        exact iff_of_true h fun _ _ hs' => by cases hs'
      | some s =>
        refine (forall_mem_modifyFirst_iff h hs).trans ⟨fun haligned _ s' hs' => ?_,
          fun hfits q hq => ?_⟩
        · cases hs'
          exact haligned p (Partition.self_mem_putInto p s.partitions)
        · rcases Partition.mem_putInto hq with hq | rfl
          · exact h s (List.mem_of_find?_eq_some hs) q hq
          · exact hfits hcount s rfl
    · rename_i hcount
      exact iff_of_true h fun hcount' => absurd hcount' hcount

end Aligned

end Catalog

namespace Local

open Catalog

variable {places : Places} {host : Host} {s : Store} {i : Item}

/-- The catalog behind a registration, whether or not it could be written. -/
theorem catalog_register (places : Places) (i : Item) (h : host.1.catalog = some s) :
    (play (S := services) (respond places) i.register host).2.2.1.catalog =
      some { s with contents := s.contents.register i } := by
  by_cases hcount : i.Counted
  · cases Item.settles_of_counted hcount s.contents with
    | there _ hanswer =>
      rw [play_register_unchanged places h hanswer, Contents.register_of_answer (.inl hanswer)]
      exact h
    | refused c done fault hchange happly hanswer =>
      rw [play_register_change places h hcount hchange, amended_of_error h happly,
        Contents.register_of_answer (.inr ⟨fault, hanswer⟩)]
      exact h
    | made c done after hchange _ happly _ _ =>
      rw [play_register_change places h hcount hchange,
        Contents.register_of_apply hcount hchange happly]
      exact congrArg some (Store.onDisk_update_made happly host.2.disk).1
  · obtain ⟨e, hplay, hregisters⟩ := registers_of_uncounted places s host hcount
    rw [hplay, Contents.register_of_uncounted hcount]
    exact h

theorem catalog_registerEach (places : Places) (items : List Item)
    (h : host.1.catalog = some s) :
    (play (respond places) (registerEach items) host).2.2.1.catalog =
      some { s with contents := items.foldl Contents.register s.contents } := by
  induction items generalizing host s with
  | nil => exact h
  | cons i items ih =>
    have hfirst := catalog_register places i h
    rcases hplay : play (S := services) (respond places) i.register host with ⟨log, result, host'⟩
    rw [hplay] at hfirst
    rw [play_registerEach_cons hplay, List.foldl_cons]
    exact ih hfirst

/-- Registrations one after the other, with any tables and partitions, from a catalog of which the
file is missing. Each partition that is held was registered with a table that has as many keys as
it has values. If the tables that are given under one key agree in the number of their keys, so does
the table that is held; and where that is so the next registration leaves it so just if the item
fits. -/
theorem registrations_aligned (places : Places) (items : List Item) (host : Host) (path : String)
    (hmissing : ∀ e, host.2.disk.find path ≠ .ok e) (h : host.1.catalog = some ⟨path, []⟩) :
    Program.onDisk (Store.load path) host.2.disk = (.ok ⟨path, []⟩, host.2.disk) ∧
    ∃ s, (play (respond places) (registerEach items) host).2.2.1.catalog = some s ∧
      (∀ st ∈ s.contents, Item.Source items st) ∧
      (Item.Uniform items → s.contents.Aligned) ∧
      (s.contents.Aligned → ∀ i : Item, ∃ s',
        (play (S := services) (respond places) i.register
          (play (respond places) (registerEach items) host).2.2).2.2.1.catalog = some s' ∧
        (s'.contents.Aligned ↔ i.Fits s.contents)) := by
  have hlast := catalog_registerEach places items h
  have hempty : ∀ st ∈ ([] : Contents), Item.Source [] st := List.forall_mem_nil _
  have hsource : ∀ st ∈ items.foldl Contents.register [], Item.Source items st :=
    Contents.source_foldl hempty
  refine ⟨Store.load_of_kept ⟨path, []⟩ (.inr ⟨hmissing, rfl⟩), _, hlast, hsource,
    fun huniform st hst => (hsource st hst).aligned huniform, fun haligned i => ?_⟩
  exact ⟨_, catalog_register places i hlast, Contents.aligned_register_iff haligned⟩

/-- The tables of the accounts agree in the number of their keys, although the last has another
column. -/
theorem registrations_aligned_fresh :
    ∃ s, (play (respond ⟨"/in", "/out", false⟩) (registerEach freshItems)
        freshHost).2.2.1.catalog = some s ∧ s.contents.Aligned := by
  have hmissing : ∀ e, freshHost.2.disk.find "meta/catalog.json" ≠ .ok e := by
    intro e he
    cases he
  obtain ⟨-, s, hlast, -, haligned, -⟩ :=
    registrations_aligned ⟨"/in", "/out", false⟩ freshItems freshHost "meta/catalog.json"
      hmissing rfl
  exact ⟨s, hlast, haligned (by decide)⟩

/-- A table that is registered again with one key more keeps its partition, which has one value. -/
theorem partition_kept_with_fewer_values :
    ∃ s, (play (respond ⟨"/in", "/out", false⟩) (registerEach
        [.table ⟨"raw", "account", "/out", ["Id"], ["run_id"]⟩,
          .partition ⟨"raw", "account", "/out", ["Id"], ["run_id"]⟩ ⟨["r1"], "/out/r1"⟩,
          .table ⟨"raw", "account", "/out", ["Id"], ["run_id", "day"]⟩])
        freshHost).2.2.1.catalog = some s ∧
      s.contents = [⟨⟨"raw", "account", "/out", ["Id"], ["run_id", "day"]⟩,
        [⟨["r1"], "/out/r1"⟩]⟩] ∧ ¬ s.contents.Aligned := by
  refine ⟨_, catalog_registerEach _ _ rfl, rfl, fun h => ?_⟩
  have hcount := h _ (List.mem_singleton_self _) _ (List.mem_singleton_self _)
  cases hcount

end Local

end Harvest
