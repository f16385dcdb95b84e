import Harvest.Batcher
import Harvest.Proofs.Local.Hosting
import Harvest.Proofs.Stream.Progress

/-!
# Batches part the rows

Pulled again and again without an error, a batcher cuts the rows that its reader delivers into
batches, all of the given size but the last one. Behind them it answers once that the deleted
rows have to be queried, where their marker is a column, and from then on that it is finished.
-/

namespace Harvest.Batcher

open Program (Trace Exchange)
open ResultReader (Event rows lastHeader)

/-- Pulls `n` times, up to the first error. -/
def pulls : (n : Nat) → Batcher → Program services (Except ExtractError (List Pull × Batcher))
  | 0, b => .done (.ok ([], b))
  | n + 1, b =>
    b.next.bind fun
      | (.error e, _) => .done (.error e)
      | (.ok pull, b) =>
        (pulls n b).bind fun
          | .error e => .done (.error e)
          | .ok (rest, b) => .done (.ok (pull :: rest, b))

/-- The rows `delivered` in batches: none is empty, all but the last one have the size of the
batcher, and each one counts the rows up to its end. -/
structure Parts (b : Batcher) (delivered : List Record) (batches : List Batch) : Prop where
  records : batches.flatMap (·.records) = delivered
  bounded : ∀ batch ∈ batches, batch.records ≠ [] ∧ batch.records.length ≤ b.batchSize
  full : ∀ batch ∈ batches.dropLast, batch.records.length = b.batchSize
  total : ∀ before batch rest, batches = before ++ batch :: rest →
    batch.totalRows = b.totalRows + ((before ++ [batch]).flatMap (·.records)).length

/-- The deleted rows have to be queried behind the rows of a reader with this header. -/
def Owed (b : Batcher) (header : Option (List String)) : Prop :=
  b.fallbackTold = false ∧ b.softDeleteDisabled = false ∧
    ∃ column ∈ b.schema.getD (header.getD []), Text.sameFolded column b.softDeleteColumn

instance (b : Batcher) (header : Option (List String)) : Decidable (b.Owed header) := by
  unfold Owed
  infer_instance

/-- The answers behind the last batch. -/
def Ends (b : Batcher) (reader : ResultReader) (ended : List Pull) : Prop :=
  ended = [] ∨ reader.Drained ∧ ∃ k,
    ended = (if b.Owed reader.header then .fallback else .finished) :: List.replicate k .finished

theorem reader_settle (b : Batcher) (records : List Record) :
    (b.settle records).2.reader = b.reader := by
  cases records with
  | nil =>
    rw [settle_nil]
    split <;> rfl
  | cons record records => rfl

theorem batchSize_settle (b : Batcher) (records : List Record) :
    (b.settle records).2.batchSize = b.batchSize := by
  cases records with
  | nil =>
    rw [settle_nil]
    split <;> rfl
  | cons record records => rfl

theorem schema_settle (b : Batcher) (records : List Record) :
    (b.settle records).2.schema = b.schema := by
  cases records with
  | nil =>
    rw [settle_nil]
    split <;> rfl
  | cons record records => rfl

section Taking

variable {log : List (Exchange services)}

theorem run_of_trace_takeRows (n : Nat) (taken records : List Record)
    (reader reader' : ResultReader)
    (ht : Trace (takeRows n taken reader) log (.ok records, reader')) :
    ∃ events, reader.Run log events reader' ∧ records = taken.reverse ++ rows events ∧
      (rows events).length ≤ n ∧ ((rows events).length < n → reader'.Drained) := by
  induction n generalizing taken reader log with
  | zero =>
    obtain ⟨rfl, heq⟩ := (Program.trace_done_iff _ _ log).1 ht
    cases heq
    exact ⟨[], ResultReader.Run.nil _, (List.append_nil _).symm, Nat.le_refl 0,
      fun h => absurd h (by decide)⟩
  | succ n ih =>
    obtain ⟨first, rest, ⟨outcome, after⟩, rfl, hfirst, hrest⟩ :=
      (Program.trace_bind_iff _ _ log _).1 ht
    rcases outcome with e | fetch
    · cases ((Program.trace_done_iff _ _ rest).1 hrest).2
    obtain ⟨events, hrun, hyields⟩ := reader.run_of_trace_next after first fetch hfirst
    cases fetch with
    | finished =>
      obtain ⟨rfl, heq⟩ := (Program.trace_done_iff _ _ rest).1 hrest
      cases heq
      obtain ⟨hrows, hdrained⟩ := hyields
      rw [List.append_nil]
      exact ⟨events, hrun, by rw [hrows, List.append_nil], by simp [hrows], fun _ => hdrained⟩
    | row record =>
      obtain ⟨others, hrun', hrecords, hlength, hdrained⟩ := ih (record :: taken) after hrest
      have hrows : rows (events ++ others) = record :: rows others := by
        rw [ResultReader.rows_append, hyields]
        rfl
      refine ⟨events ++ others, hrun.append hrun', ?_, ?_, ?_⟩
      · rw [hrecords, hrows, List.reverse_cons, List.append_assoc]
        rfl
      · rw [hrows, List.length_cons]
        omega
      · rw [hrows, List.length_cons]
        exact fun h => hdrained (Nat.lt_of_succ_lt_succ h)

/-- What one pull answers, by the rows that its reader delivers. -/
theorem run_of_trace_next (b after : Batcher) (pull : Pull)
    (ht : Trace b.next log (.ok pull, after)) :
    ∃ events, b.reader.Run log events after.reader ∧
      pull = (({ b with reader := after.reader } : Batcher).settle (rows events)).1 ∧
      after = (({ b with reader := after.reader } : Batcher).settle (rows events)).2 ∧
      (rows events).length ≤ b.batchSize ∧
      ((rows events).length < b.batchSize → after.reader.Drained) := by
  obtain ⟨first, rest, ⟨outcome, reader⟩, rfl, hfirst, hrest⟩ :=
    (Program.trace_bind_iff _ _ log _).1 ht
  rcases outcome with e | records
  · cases ((Program.trace_done_iff _ _ rest).1 hrest).2
  obtain ⟨events, hrun, hrecords, hlength, hdrained⟩ :=
    run_of_trace_takeRows b.batchSize [] records b.reader.renewBudget reader hfirst
  obtain ⟨rfl, heq⟩ := (Program.trace_done_iff _ _ rest).1 hrest
  have hpull : pull = (({ b with reader := reader } : Batcher).settle records).1 := by
    cases heq
    rfl
  have hafter : after = (({ b with reader := reader } : Batcher).settle records).2 := by
    cases heq
    rfl
  have hreader : after.reader = reader := by rw [hafter, reader_settle]
  obtain rfl : records = rows events := hrecords
  rw [hreader, List.append_nil]
  exact ⟨.renewed :: events, .cons _ _ _ [] first _ events (.renewed b.reader) hrun, hpull, hafter,
    hlength, hdrained⟩

/-- The columns that are configured stay as they are. -/
theorem schema_of_trace_next (b after : Batcher) (pull : Pull)
    (ht : Trace b.next log (.ok pull, after)) : after.schema = b.schema := by
  obtain ⟨_, -, -, hafter, -⟩ := run_of_trace_next b after pull ht
  rw [hafter, schema_settle]

end Taking

section Pulling

variable {b : Batcher}

theorem Parts.eq_nil {batches : List Batch} (h : b.Parts [] batches) : batches = [] := by
  cases batches with
  | nil => rfl
  | cons batch batches =>
    have hrecords := (List.append_eq_nil_iff.1 h.records).1
    exact absurd hrecords (h.bounded batch List.mem_cons_self).1

theorem Parts.cons {r : Record} {records others : List Record} {batches : List Batch}
    (hlength : (r :: records).length ≤ b.batchSize)
    (hfull : others ≠ [] → (r :: records).length = b.batchSize)
    (h : (b.settle (r :: records)).2.Parts others batches) :
    b.Parts (r :: records ++ others)
      (⟨r :: records, b.totalRows + (r :: records).length⟩ :: batches) where
  records := congrArg (r :: records ++ ·) h.records
  bounded := List.forall_mem_cons.2 ⟨⟨List.cons_ne_nil r records, hlength⟩, h.bounded⟩
  full := by
    cases batches with
    | nil => simp
    | cons batch batches =>
      refine List.forall_mem_cons.2 ⟨hfull fun hnil => ?_, h.full⟩
      cases (hnil ▸ h).eq_nil
  total := by
    intro before batch rest heq
    cases before with
    | nil =>
      cases heq
      simp
    | cons first before =>
      injection heq with hfirst hrest
      subst hfirst
      have htotal := h.total before batch rest hrest
      rw [settle_cons] at htotal
      rw [htotal]
      simp only [List.cons_append, List.flatMap_cons, List.length_append, List.length_cons]
      omega

theorem settle_nil_eq (b : Batcher) :
    b.settle [] = if b.Owed b.reader.header then (.fallback, { b with fallbackTold := true })
      else (.finished, b) := by
  have howed : (!b.fallbackTold && !b.softDeleteDisabled && b.hasSoftDeleteColumn) = true ↔
      b.Owed b.reader.header := by
    rw [Owed, hasSoftDeleteColumn, columns]
    cases b.schema <;> simp [and_assoc]
  rw [settle_nil]
  simp only [howed]

/-- Behind the last batch the answer about the deleted rows is given once at most. -/
theorem Ends.cons {reader : ResultReader} {ended : List Pull} (hdrained : reader.Drained)
    (hheader : reader.header = b.reader.header) (h : (b.settle []).2.Ends reader ended) :
    b.Ends reader ((b.settle []).1 :: ended) := by
  refine .inr ⟨hdrained, ?_⟩
  rw [settle_nil_eq] at h ⊢
  rw [hheader]
  by_cases howed : b.Owed b.reader.header
  · rw [if_pos howed] at h ⊢
    -- it was told just now
    have htold : ¬ ({ b with fallbackTold := true } : Batcher).Owed reader.header :=
      fun h => Bool.noConfusion h.1
    rw [Ends, if_neg htold] at h
    rcases h with rfl | ⟨-, k, rfl⟩
    · exact ⟨0, by rw [if_pos howed]; rfl⟩
    · exact ⟨k + 1, by rw [if_pos howed]; rfl⟩
  · rw [if_neg howed] at h ⊢
    rw [Ends, hheader, if_neg howed] at h
    rcases h with rfl | ⟨-, k, rfl⟩
    · exact ⟨0, by rw [if_neg howed]; rfl⟩
    · exact ⟨k + 1, by rw [if_neg howed]; rfl⟩

theorem parts_of_trace_pulls (n : Nat) (after : Batcher) (pulled : List Pull)
    (log : List (Exchange services)) (hsize : 0 < b.batchSize)
    (ht : Trace (b.pulls n) log (.ok (pulled, after))) :
    ∃ events batches ended, b.reader.Run log events after.reader ∧
      pulled = batches.map .batch ++ ended ∧ b.Parts (rows events) batches ∧
      b.Ends after.reader ended := by
  induction n generalizing b pulled log with
  | zero =>
    obtain ⟨rfl, heq⟩ := (Program.trace_done_iff _ _ log).1 ht
    cases heq
    exact ⟨[], [], [], .nil _, rfl, ⟨rfl, by simp, by simp, by simp⟩, .inl rfl⟩
  | succ n ih =>
    obtain ⟨first, rest, ⟨outcome, b'⟩, rfl, hfirst, hrest⟩ :=
      (Program.trace_bind_iff _ _ log _).1 ht
    rcases outcome with e | pull
    · cases ((Program.trace_done_iff _ _ rest).1 hrest).2
    obtain ⟨middle, last, outcome, rfl, hmiddle, hlast⟩ :=
      (Program.trace_bind_iff _ _ rest _).1 hrest
    rcases outcome with e | ⟨others, b''⟩
    · cases ((Program.trace_done_iff _ _ last).1 hlast).2
    obtain ⟨rfl, heq⟩ := (Program.trace_done_iff _ _ last).1 hlast
    cases heq
    obtain ⟨events, hrun, hpull, hafter, hlength, hdrained⟩ := run_of_trace_next b b' pull hfirst
    have hsize' : 0 < b'.batchSize := by
      rw [hafter, batchSize_settle]
      exact hsize
    obtain ⟨events', batches, ended, hrun', rfl, hparts, hends⟩ := ih others middle hsize' hmiddle
    rw [List.append_nil]
    refine ⟨events ++ events', ?_⟩
    rw [ResultReader.rows_append]
    cases hrows : rows events with
    | nil =>
      -- the reader is drained, and no batch follows
      have hempty : b'.reader.Drained := hdrained (by rw [hrows]; exact hsize)
      obtain ⟨hnone, hheaders, hstill⟩ := hrun'.of_drained hempty
      rw [hnone] at hparts ⊢
      obtain rfl := hparts.eq_nil
      have hheader : after.reader.header = b'.reader.header := by
        rw [hrun'.header hstill, hheaders, Option.none_or]
      rw [hrows] at hpull hafter
      rw [hafter] at hends
      have hends' := Ends.cons (b := { b with reader := b'.reader }) hstill hheader hends
      rw [← hpull] at hends'
      exact ⟨[], pull :: ended, hrun.append hrun', rfl, ⟨rfl, by simp, by simp, by simp⟩, hends'⟩
    | cons r records =>
      have hfull : rows events' ≠ [] → (r :: records).length = b.batchSize := by
        intro hmore
        rcases Nat.lt_or_eq_of_le hlength with hlt | heq
        · exact absurd (hrun'.of_drained (hdrained hlt)).1 hmore
        · rw [← hrows, heq]
      rw [hrows] at hpull hafter hlength
      rw [hafter] at hparts hends
      have hparts' := Parts.cons (b := { b with reader := b'.reader }) hlength hfull hparts
      refine ⟨_, ended, hrun.append hrun', ?_,
        ⟨hparts'.records, hparts'.bounded, hparts'.full, hparts'.total⟩, hends⟩
      rw [hpull]
      rfl

end Pulling

/-- Pulling from a fresh batcher: the batches part the rows that the reader delivers, and behind
them one answer about the deleted rows is given, if it is due by the columns configured or by the
header of the last result that had one when it was exhausted. -/
theorem pulls_part_rows (reader : ResultReader) (settings : Settings)
    (schema : Option (List String)) (n : Nat) (log : List (Exchange services))
    (pulled : List Pull) (after : Batcher)
    (ht : Trace ((start reader settings schema).pulls n) log (.ok (pulled, after))) :
    ∃ events batches ended, reader.Run log events after.reader ∧
      pulled = batches.map .batch ++ ended ∧
      batches.flatMap (·.records) = rows events ∧
      (∀ batch ∈ batches, batch.records ≠ [] ∧
        batch.records.length ≤ max settings.batchSize 1) ∧
      (∀ batch ∈ batches.dropLast, batch.records.length = max settings.batchSize 1) ∧
      (∀ before batch rest, batches = before ++ batch :: rest →
        batch.totalRows = ((before ++ [batch]).flatMap (·.records)).length) ∧
      (ended = [] ∨ after.reader.Drained ∧ ∃ k,
        ended =
          (if settings.softDeleteDisabled = false ∧
              ∃ column ∈ schema.getD (((lastHeader events).or reader.header).getD []),
                Text.sameFolded column settings.softDeleteColumn
            then .fallback else .finished) :: List.replicate k .finished) := by
  obtain ⟨events, batches, ended, hrun, hpulled, hparts, hends⟩ :=
    parts_of_trace_pulls n after pulled log (Nat.le_max_right _ 1) ht
  refine ⟨events, batches, ended, hrun, hpulled, hparts.records, hparts.bounded, hparts.full,
    fun before batch rest h => (hparts.total before batch rest h).trans (Nat.zero_add _), ?_⟩
  rcases hends with hnone | ⟨hdrained, k, hended⟩
  · exact .inl hnone
  · refine .inr ⟨hdrained, k, ?_⟩
    rw [hended, hrun.header hdrained]
    simp only [Owed, start, true_and]

/-- Three results of a job, the second one empty. -/
def threeResults : Local.Host :=
  (⟨⟨[("750", ⟨⟨"750", "Account", .query, .opened⟩, none,
      [⟨⟨"b", "750", .completed, none⟩, [("r", "/r"), ("s", "/s"), ("t", "/t")]⟩]⟩)], 1⟩,
      none, none⟩,
    ⟨⟨[(["r"], .file (Utf8.encodeString "Id,isdeleted\n1,\n2,\n3,\n")), (["s"], .file []),
      (["t"], .file (Utf8.encodeString "Id,IsDeleted\n4,true\n"))], []⟩, ⟨2024, 1, 1, 0, 0, 0⟩, []⟩)

/-- In batches of two rows: the second one goes across the results, and that the rows are drained
is noticed one pull after it. -/
theorem pulls_part_threeResults :
    ∃ log events after, ∃ batches : List Batch, ∃ ended,
      Trace ((start (.start ⟨"Account", "750", 1⟩ [⟨"b", "r"⟩, ⟨"b", "s"⟩, ⟨"b", "t"⟩])
        { batchSize := 2 } none).pulls 5) log (.ok (batches.map .batch ++ ended, after)) ∧
      batches.map .batch ++ ended =
        [.batch ⟨[.ofFields ["Id", "isdeleted"] ["1"], .ofFields ["Id", "isdeleted"] ["2"]], 2⟩,
          .batch ⟨[.ofFields ["Id", "isdeleted"] ["3"],
            .ofFields ["Id", "IsDeleted"] ["4", "true"]], 4⟩, .fallback, .finished, .finished] ∧
      batches.flatMap (·.records) = rows events := by
  let reader : ResultReader :=
    .start ⟨"Account", "750", 1⟩ [⟨"b", "r"⟩, ⟨"b", "s"⟩, ⟨"b", "t"⟩]
  obtain ⟨⟨pulled, after⟩, ht, hpulled⟩ := Program.trace_play_ok
    (Local.respond ⟨"/", "/", false⟩) ((start reader { batchSize := 2 } none).pulls 5) threeResults
    (·.1) [.batch ⟨[.ofFields ["Id", "isdeleted"] ["1"], .ofFields ["Id", "isdeleted"] ["2"]], 2⟩,
      .batch ⟨[.ofFields ["Id", "isdeleted"] ["3"], .ofFields ["Id", "IsDeleted"] ["4", "true"]],
        4⟩, .fallback, .finished, .finished] (by decide +kernel)
  obtain ⟨events, batches, ended, -, hparts, hrecords, -⟩ :=
    pulls_part_rows reader { batchSize := 2 } none 5 _ pulled after ht
  exact ⟨_, events, after, batches, ended, hparts ▸ ht, hparts ▸ hpulled, hrecords⟩

end Harvest.Batcher
