import Harvest.Proofs.Footprint
import Harvest.Proofs.Job.Preparation
import Mathlib.Algebra.Order.Floor.Semiring
import Mathlib.Data.Rat.Floor

/-!
# When a query may be split

Whether the service may split a query is decided from the options and, unless they say enough, from
the number of records; the same number tells how long to wait for a batch that is not split. The
number is learned before the job is created or behind the submission of the query, but it is never
counted twice. `JobPlan.prepare_splits_by_count` tells what of this can be seen from outside.
-/

namespace Harvest

open Engine
open Program (Trace Exchange Asks)

/-- The seconds between two questions are those that the number of rows stands for. -/
theorem pollInterval_eq_ceil (rows : Nat) :
    pollInterval rows = min 600 (30 + 2 * ⌈(rows : ℚ) / 10000⌉₊) := by
  have hceil : ⌈(rows : ℚ) / 10000⌉₊ = (rows + 9999) / 10000 := by
    refine eq_of_forall_ge_iff fun n => ?_
    rw [Nat.ceil_le, div_le_iff₀ (by norm_num)]
    norm_cast
    omega
  rw [hceil, pollInterval]
  omega

namespace Word

/-- The sum of two words, if it is a word. -/
def add? (a b : UInt64) : Option UInt64 := if a.toNat + b.toNat < 2 ^ 64 then some (a + b) else none

/-- The product of two words, if it is a word. -/
def mul? (a b : UInt64) : Option UInt64 := if a.toNat * b.toNat < 2 ^ 64 then some (a * b) else none

/-- The quotient of two words, rounded up, if it is a word. -/
def divCeil? (a b : UInt64) : Option UInt64 :=
  if a % b = 0 then some (a / b) else add? (a / b) 1

/-- The interval between two questions, reckoned in words; there is none if a step overflows. -/
def pollInterval? (rows : UInt64) : Option UInt64 := do
  let started ← divCeil? rows 10000
  let added ← mul? started 2
  let seconds ← add? 30 added
  pure (if seconds ≤ 600 then seconds else 600)

theorem exists_add? {a b : UInt64} (h : a.toNat + b.toNat < 2 ^ 64) :
    ∃ c, add? a b = some c ∧ c.toNat = a.toNat + b.toNat :=
  ⟨a + b, if_pos h, by rw [UInt64.toNat_add, Nat.mod_eq_of_lt h]⟩

theorem exists_mul? {a b : UInt64} (h : a.toNat * b.toNat < 2 ^ 64) :
    ∃ c, mul? a b = some c ∧ c.toNat = a.toNat * b.toNat :=
  ⟨a * b, if_pos h, by rw [UInt64.toNat_mul, Nat.mod_eq_of_lt h]⟩

theorem exists_divCeil? (rows : UInt64) :
    ∃ c, divCeil? rows 10000 = some c ∧ c.toNat = (rows.toNat + 9999) / 10000 := by
  have hrows := rows.toNat_lt
  have hquotient : (rows / 10000).toNat = rows.toNat / 10000 := UInt64.toNat_div rows 10000
  have hrest : (rows % 10000).toNat = rows.toNat % 10000 := UInt64.toNat_mod rows 10000
  rw [divCeil?]
  split
  · rename_i hzero
    rw [hzero, UInt64.toNat_zero] at hrest
    exact ⟨rows / 10000, rfl, by omega⟩
  · rename_i hsome
    have hone : (1 : UInt64).toNat = 1 := rfl
    have hne : (rows % 10000).toNat ≠ 0 := fun h => hsome (UInt64.toNat_inj.1 h)
    obtain ⟨c, hc, hsum⟩ := exists_add? (a := rows / 10000) (b := 1) (by omega)
    exact ⟨c, hc, by omega⟩

/-- No step overflows, however many rows there are. -/
theorem pollInterval?_eq (rows : UInt64) :
    ∃ seconds, pollInterval? rows = some seconds ∧ seconds.toNat = pollInterval rows.toNat := by
  have hrows := rows.toNat_lt
  have htwo : (2 : UInt64).toNat = 2 := rfl
  have hbase : (30 : UInt64).toNat = 30 := rfl
  obtain ⟨started, hstarted, hceil⟩ := exists_divCeil? rows
  obtain ⟨added, hadded, hproduct⟩ := exists_mul? (a := started) (b := 2) (by rw [htwo]; omega)
  rw [htwo] at hproduct
  obtain ⟨seconds, hseconds, hsum⟩ := exists_add? (a := 30) (b := added) (by omega)
  refine ⟨if seconds ≤ 600 then seconds else 600, ?_, ?_⟩
  · simp only [pollInterval?, hstarted, hadded, hseconds, Option.bind_eq_bind, Option.bind_some]
    rfl
  · have hlimit : (600 : UInt64).toNat = 600 := rfl
    have hle : seconds ≤ 600 ↔ seconds.toNat ≤ 600 := UInt64.le_iff_toNat_le
    rw [pollInterval]
    split
    · rename_i h
      have hsmall := hle.1 h
      omega
    · rename_i h
      have hlarge := mt hle.2 h
      omega

end Word

section Projections

/-- The job that an exchange is to create. -/
def creating? : Exchange services → Option JobRequest
  | ⟨.createJob request, _⟩ => some request
  | _ => none

/-- The query whose records are counted, and the answer. -/
def counting? : Exchange services → Option (String × Except ExtractError Nat)
  | ⟨.recordCount query, reply⟩ => some (query, reply)
  | _ => none

variable (x : Exchange services)

theorem creating?_eq_none (h : x.request.kind ≠ .create) : creating? x = none := by
  obtain ⟨r, reply⟩ := x
  cases r <;> first | rfl | exact absurd rfl h

theorem counting?_eq_none (h : x.request.kind ≠ .query) : counting? x = none := by
  obtain ⟨r, reply⟩ := x
  cases r <;> first | rfl | exact absurd rfl h

end Projections

/-- Neither is a batch asked for, nor is anything waited for. -/
def Quiet (x : Exchange services) : Prop :=
  match x with
  | ⟨.batchStatus _ _, _⟩ => False
  | ⟨.sleep _, _⟩ => False
  | _ => True

theorem quiet_of_kind {x : Exchange services} {kinds : List Request.Kind}
    (h : x.request.kind ∈ kinds) (hbatch : .batch ∉ kinds) (htime : .time ∉ kinds) : Quiet x := by
  obtain ⟨r, reply⟩ := x
  cases r <;> first | exact trivial | exact absurd h hbatch | exact absurd h htime

namespace JobPlan

variable {plan : JobPlan} {settings : Settings} {patience : Nat} {log : List (Exchange services)}
  {p : PreparedJob}

/-- How the expected number of records is learned: it is known, or it is counted. -/
inductive Learns (plan : JobPlan) : Option Nat → List (Exchange services) → Nat → Prop
  | known (n : Nat) : plan.Learns (some n) [] n
  | counted (n : Nat) : plan.Learns none [⟨.recordCount plan.countQuery, .ok n⟩] n

/-- How it is decided whether the query may be split, and what is known of the number of records
behind that. -/
inductive Decides (plan : JobPlan) (settings : Settings) :
    List (Exchange services) → Bool → Option Nat → Prop
  | refused (h : settings.chunkingEnabled = false) : plan.Decides settings [] false plan.expected
  | skipped (h : settings.chunkingEnabled = true) (hskip : settings.skipCountCheck = true) :
    plan.Decides settings [] true plan.expected
  | weighed (log : List (Exchange services)) (n : Nat) (h : settings.chunkingEnabled = true)
      (hskip : settings.skipCountCheck = false) (hn : plan.Learns plan.expected log n) :
    plan.Decides settings log (decide (settings.chunkSize < n)) (some n)

theorem learns_of_trace {known : Option Nat} {n : Nat}
    (ht : Trace (plan.expectedCount known) log (.ok n)) : plan.Learns known log n := by
  cases known with
  | some m =>
    obtain ⟨rfl, heq⟩ := (trace_pure_iff log m _).1 ht
    cases heq
    exact .known n
  | none =>
    rw [(trace_request_iff log (.recordCount plan.countQuery) (.ok n)).1 ht]
    exact .counted n

theorem decides_of_trace {chunked : Bool} {known : Option Nat}
    (ht : Trace (plan.useChunking settings) log (.ok (chunked, known))) :
    plan.Decides settings log chunked known := by
  rw [useChunking] at ht
  split at ht
  · rename_i hrefused
    obtain ⟨rfl, heq⟩ := (trace_pure_iff log _ _).1 ht
    cases heq
    exact .refused (by simpa using hrefused)
  · rename_i henabled
    replace henabled : settings.chunkingEnabled = true := by simpa using henabled
    split at ht
    · rename_i hskip
      obtain ⟨rfl, heq⟩ := (trace_pure_iff log _ _).1 ht
      cases heq
      exact .skipped henabled hskip
    · rename_i hskip
      obtain ⟨n, first, rest, rfl, hfirst, hrest⟩ := ok_of_trace_bind ht
      obtain ⟨rfl, heq⟩ := (trace_pure_iff rest _ _).1 hrest
      cases heq
      rw [List.append_nil]
      exact .weighed first n henabled (Bool.eq_false_iff.2 hskip) (learns_of_trace hfirst)

/-- The number of rows that tells how long to wait is the one of a chunk, or it is learned. -/
theorem rows_of_trace {chunked : Bool} {known : Option Nat} {n : Nat}
    (ht : Trace (plan.rows settings chunked known) log (.ok n)) :
    chunked = true ∧ log = [] ∧ n = settings.chunkSize ∨
      chunked = false ∧ plan.Learns known log n := by
  cases chunked with
  | true =>
    obtain ⟨rfl, heq⟩ := (trace_pure_iff log _ _).1 ht
    cases heq
    exact .inl ⟨rfl, rfl, rfl⟩
  | false => exact .inr ⟨rfl, learns_of_trace ht⟩

/-- How a job is reckoned from what is counted: whether it may be split, and the number of rows that
tells how long to wait. -/
inductive Reckons (plan : JobPlan) (settings : Settings) :
    List (Exchange services) → Bool → Nat → Prop
  | skipped (h : settings.chunkingEnabled = true) (hskip : settings.skipCountCheck = true) :
    plan.Reckons settings [] true settings.chunkSize
  | small (log : List (Exchange services)) (n : Nat) (hn : plan.Learns plan.expected log n)
      (h : settings.chunkingEnabled = true →
        settings.skipCountCheck = false ∧ n ≤ settings.chunkSize) :
    plan.Reckons settings log false n
  | large (log : List (Exchange services)) (n : Nat) (hn : plan.Learns plan.expected log n)
      (h : settings.chunkingEnabled = true) (hskip : settings.skipCountCheck = false)
      (hsize : settings.chunkSize < n) :
    plan.Reckons settings log true settings.chunkSize

/-- Between the decision and the interval nothing is counted twice. -/
theorem Decides.reckons {first second : List (Exchange services)} {chunked : Bool}
    {known : Option Nat} {rows : Nat} (h : plan.Decides settings first chunked known)
    (ht : Trace (plan.rows settings chunked known) second (.ok rows)) :
    plan.Reckons settings (first ++ second) chunked rows := by
  cases h with
  | refused h =>
    obtain ⟨hchunked, -⟩ | ⟨-, hlearns⟩ := rows_of_trace ht
    · cases hchunked
    · exact .small second rows hlearns fun henabled => by simp [h] at henabled
  | skipped h hskip =>
    obtain ⟨-, rfl, rfl⟩ | ⟨hchunked, -⟩ := rows_of_trace ht
    · exact .skipped h hskip
    · cases hchunked
  | weighed _ n h hskip hn =>
    obtain ⟨hchunked, rfl, rfl⟩ | ⟨hchunked, hlearns⟩ := rows_of_trace ht
    · rw [List.append_nil, hchunked]
      exact .large first n hn h hskip (of_decide_eq_true hchunked)
    · cases hlearns
      rw [List.append_nil, hchunked]
      exact .small first rows hn fun _ => ⟨hskip, not_lt.1 (of_decide_eq_false hchunked)⟩

/-- A job to which the query is submitted: the records are counted, if they have to be, and then the
batches are gathered. -/
theorem stages_of_trace_finish {job : OpenJob} {chunked : Bool} {known : Option Nat}
    {result : Except ExtractError PreparedJob}
    (ht : Trace (plan.finish settings patience job chunked known) log result) :
    ((∃ e, result = .error e) ∧ ∀ x ∈ log, Quiet x) ∨
      ∃ submitted second rows polls,
        log = ⟨.submitBatch job.id plan.query, .ok submitted⟩ :: (second ++ polls) ∧
        Trace (plan.rows settings chunked known) second (.ok rows) ∧
        Trace (plan.gather job chunked (pollInterval rows) patience submitted.id) polls result := by
  rw [finish_eq] at ht
  rcases trace_asks_bind log (submitBatch job.id plan.query) _ result
      (fun reply => ⟨.submitBatch job.id plan.query, reply⟩)
      (fun first reply h =>
        (trace_request_iff first (.submitBatch job.id plan.query) reply).1 h) ht with
    ⟨e, rfl, rfl⟩ | ⟨submitted, rest, rfl, hrest⟩
  · exact .inl ⟨⟨e, rfl⟩, List.forall_mem_singleton.2 trivial⟩
  · rcases (trace_bind_iff rest _ _ result).1 hrest with
      ⟨e, h, rfl⟩ | ⟨rows, second, polls, rfl, hsecond, hpolls⟩
    · have hrows := (plan.asks_rows settings chunked known).of_trace h
      refine .inl ⟨⟨e, rfl⟩, List.forall_mem_cons.2 ⟨trivial, fun x hx => ?_⟩⟩
      exact quiet_of_kind (hrows x hx) (by decide) (by decide)
    · exact .inr ⟨submitted, second, rows, polls, rfl, hsecond, hpolls⟩

/-- The exchanges of a preparation that comes to its batches: what is counted before the job is
created and behind the submission of its query, the batches, and the cleanup behind an error. -/
theorem stages_of_trace_prepare {result : Except ExtractError PreparedJob}
    (ht : Trace (plan.prepare settings patience) log result) :
    ((∃ e, result = .error e) ∧ ∀ x ∈ log, Quiet x) ∨
      ∃ first created info submitted second polls cleanup chunked rows,
        log = first ++ ⟨.createJob (plan.request settings chunked), .ok created⟩ ::
          ⟨.jobStatus created.id, .ok info⟩ ::
          ⟨.submitBatch info.id plan.query, .ok submitted⟩ :: (second ++ (polls ++ cleanup)) ∧
        plan.Reckons settings (first ++ second) chunked rows ∧
        (∀ x ∈ first ++ second, x.request.kind ∈ [Request.Kind.query]) ∧
        Trace (plan.gather (.ofInfo info) chunked (pollInterval rows) patience submitted.id) polls
          result ∧
        (∀ x ∈ cleanup, x.request.kind ∈ [Request.Kind.status, .close]) ∧
        ∀ p, result = .ok p → cleanup = [] := by
  have hquiet {log : List (Exchange services)} {kinds : List Request.Kind}
      (h : ∀ x ∈ log, x.request.kind ∈ kinds) (hbatch : .batch ∉ kinds) (htime : .time ∉ kinds) :
      ∀ x ∈ log, Quiet x := fun x hx => quiet_of_kind (h x hx) hbatch htime
  rcases (trace_bind_iff log _ _ result).1 ht with
    ⟨e, h, rfl⟩ | ⟨⟨chunked, known⟩, first, rest₁, rfl, hfirst, h₁⟩
  · have hasks := (plan.asks_useChunking settings).of_trace h
    exact .inl ⟨⟨e, rfl⟩, hquiet hasks (by decide) (by decide)⟩
  have hcounts := (plan.asks_useChunking settings).of_trace hfirst
  have hbegun := hquiet hcounts (by decide) (by decide)
  rcases trace_asks_bind rest₁ (createJob (plan.request settings chunked)) _ result
      (fun reply => ⟨.createJob (plan.request settings chunked), reply⟩)
      (fun made reply h =>
        (trace_request_iff made (.createJob (plan.request settings chunked)) reply).1 h) h₁ with
    ⟨e, rfl, rfl⟩ | ⟨created, rest₂, rfl, h₂⟩
  · exact .inl ⟨⟨e, rfl⟩,
      List.forall_mem_append.2 ⟨hbegun, List.forall_mem_singleton.2 trivial⟩⟩
  rcases (trace_bind_iff rest₂ _ _ result).1 h₂ with
    ⟨e, h, rfl⟩ | ⟨info, looked, rest₃, rfl, hlooked, h₃⟩
  · have hlook : Asks [.status, .close] (OpenJob.guarding _ (jobStatus created.id)) :=
      OpenJob.asks_guarding (.ofInfo created) (.request _ rfl) fun _ h => h
    refine .inl ⟨⟨e, rfl⟩, List.forall_mem_append.2 ⟨hbegun, List.forall_mem_cons.2 ⟨trivial, ?_⟩⟩⟩
    exact hquiet (hlook.of_trace h) (by decide) (by decide)
  rw [(trace_request_iff looked (.jobStatus created.id) (.ok info)).1 (ok_of_trace_onError hlooked)]
  obtain ⟨finished, cleanup, hfinished, rfl, hcleanup, hnone⟩ : ∃ finished cleanup,
      Trace (plan.finish settings patience (.ofInfo info) chunked known) finished result ∧
        rest₃ = finished ++ cleanup ∧
        (∀ x ∈ cleanup, x.request.kind ∈ [Request.Kind.status, .close]) ∧
        ∀ p, result = .ok p → cleanup = [] := by
    rcases (trace_onError_iff rest₃ _ _ result).1 h₃ with
      ⟨p, h, rfl⟩ | ⟨e, finished, cleanup, rfl, h, hcleanup, rfl⟩
    · exact ⟨rest₃, [], h, (List.append_nil _).symm, List.forall_mem_nil _, fun _ _ => rfl⟩
    · exact ⟨finished, cleanup, h, rfl, (OpenJob.asks_drop _).of_trace hcleanup, nofun⟩
  rcases stages_of_trace_finish hfinished with
    ⟨herror, hfinish⟩ | ⟨submitted, second, rows, polls, rfl, hsecond, hpolls⟩
  · have hended := List.forall_mem_append.2 ⟨hfinish, hquiet hcleanup (by decide) (by decide)⟩
    refine .inl ⟨herror, List.forall_mem_append.2 ⟨hbegun, List.forall_mem_cons.2 ⟨trivial, ?_⟩⟩⟩
    exact List.forall_mem_append.2 ⟨List.forall_mem_singleton.2 trivial, hended⟩
  · refine .inr ⟨first, created, info, submitted, second, polls, cleanup, chunked, rows, ?_,
      (decides_of_trace hfirst).reckons hsecond, List.forall_mem_append.2 ⟨hcounts, ?_⟩, hpolls,
      hcleanup, hnone⟩
    · simp [OpenJob.id, OpenJob.ofInfo]
    · exact (plan.asks_rows settings chunked known).of_trace hsecond

/-- The exchanges of a preparation that ends well: what is counted before the job is created and
behind the submission of its query, and then the batches. -/
theorem reckons_of_trace_prepare (ht : Trace (plan.prepare settings patience) log (.ok p)) :
    ∃ first created info submitted second polls rows,
      log = first ++ ⟨.createJob (plan.request settings p.chunked), .ok created⟩ ::
        ⟨.jobStatus created.id, .ok info⟩ ::
        ⟨.submitBatch info.id plan.query, .ok submitted⟩ :: (second ++ polls) ∧
      plan.Reckons settings (first ++ second) p.chunked rows ∧ p.interval = pollInterval rows ∧
      (∀ x ∈ first ++ second, x.request.kind ∈ [Request.Kind.query]) ∧
      ∀ x ∈ polls, x.request.kind ∈ [Request.Kind.batch, .results, .time] := by
  obtain ⟨⟨e, he⟩, -⟩ | ⟨first, created, info, submitted, second, polls, cleanup, chunked, rows,
    rfl, hreckons, hcounts, hpolls, -, hnone⟩ := stages_of_trace_prepare ht
  · cases he
  · obtain ⟨-, rfl, hinterval, -⟩ := ok_of_trace_gather hpolls
    rw [hnone p rfl, List.append_nil]
    exact ⟨first, created, info, submitted, second, polls, rows, rfl, hreckons, hinterval, hcounts,
      (plan.asks_gather _ _ _ _ _).of_trace hpolls⟩

/-- The records are counted nowhere else. -/
theorem counting_stages (request : JobRequest) (created info : JobInfo) (query : String)
    (submitted : BatchInfo) (first second : List (Exchange services))
    {rest : List (Exchange services)} (hrest : rest.filterMap counting? = []) :
    (first ++ ⟨.createJob request, .ok created⟩ :: ⟨.jobStatus created.id, .ok info⟩ ::
      ⟨.submitBatch info.id query, .ok submitted⟩ :: (second ++ rest)).filterMap counting? =
      (first ++ second).filterMap counting? := by
  rw [List.filterMap_append, List.filterMap_append]
  change _ ++ (second ++ rest).filterMap counting? = _
  rw [List.filterMap_append, hrest, List.append_nil]

/-- The expected number of records: the one that is known, or else the one that was counted. -/
def Expects (plan : JobPlan) (log : List (Exchange services)) (n : Nat) : Prop :=
  plan.expected = some n ∨
    plan.expected = none ∧ ⟨.recordCount plan.countQuery, .ok n⟩ ∈ log

theorem Learns.counting {known : Option Nat} {n : Nat} (h : plan.Learns known log n) :
    log.filterMap counting? = if known = none then [(plan.countQuery, .ok n)] else [] := by
  cases h <;> rfl

/-- What was learned is what is expected. -/
theorem Learns.expects_iff {first : List (Exchange services)} {n : Nat}
    (h : plan.Learns plan.expected first n)
    (hlog : log.filterMap counting? = first.filterMap counting?) (m : Nat) :
    plan.Expects log m ↔ m = n := by
  rw [h.counting] at hlog
  generalize hexpected : plan.expected = known at h hlog
  cases h with
  | known =>
    simp [Expects, hexpected, eq_comm]
  | counted =>
    have hmem : ⟨.recordCount plan.countQuery, .ok m⟩ ∈ log ↔
        (plan.countQuery, .ok m) ∈ log.filterMap counting? := by
      rw [List.mem_filterMap]
      constructor
      · exact fun hm => ⟨_, hm, rfl⟩
      · rintro ⟨x, hx, hcount⟩
        unfold counting? at hcount
        split at hcount
        · cases hcount
          exact hx
        · cases hcount
    rw [Expects, hexpected, hmem, hlog]
    simp

namespace Reckons

variable {counts : List (Exchange services)} {chunked : Bool} {rows : Nat}
  (h : plan.Reckons settings counts chunked rows)
include h

/-- The records are counted unless their number is known or the query may be split anyway. -/
theorem counting :
    (plan.expected = none → ¬ (chunked = true ∧ settings.skipCountCheck = true) →
      ∃ n, counts.filterMap counting? = [(plan.countQuery, .ok n)]) ∧
    (plan.expected ≠ none ∨ chunked = true ∧ settings.skipCountCheck = true →
      counts.filterMap counting? = []) := by
  cases h with
  | skipped h hskip => exact ⟨fun _ hnot => absurd ⟨rfl, hskip⟩ hnot, fun _ => rfl⟩
  | small _ n hn h =>
    refine ⟨fun hnone _ => ⟨rows, hn.counting.trans (if_pos hnone)⟩, ?_⟩
    rintro (hsome | ⟨hchunked, -⟩)
    · exact hn.counting.trans (if_neg hsome)
    · cases hchunked
  | large _ n hn h hskip hsize =>
    refine ⟨fun hnone _ => ⟨n, hn.counting.trans (if_pos hnone)⟩, ?_⟩
    rintro (hsome | ⟨-, hskipped⟩)
    · exact hn.counting.trans (if_neg hsome)
    · rw [hskip] at hskipped
      cases hskipped

variable (hlog : log.filterMap counting? = counts.filterMap counting?)
include hlog

theorem chunked_iff : chunked = true ↔ settings.chunkingEnabled = true ∧
    (settings.skipCountCheck = true ∨ ∃ n, plan.Expects log n ∧ settings.chunkSize < n) := by
  cases h with
  | skipped h hskip => exact iff_of_true rfl ⟨h, .inl hskip⟩
  | small _ n hn h =>
    refine iff_of_false Bool.false_ne_true ?_
    rintro ⟨henabled, hskipped | ⟨m, hexpects, hsize⟩⟩
    · rw [(h henabled).1] at hskipped
      cases hskipped
    · rw [(hn.expects_iff hlog m).1 hexpects] at hsize
      exact absurd hsize (not_lt.2 (h henabled).2)
  | large _ n hn h hskip hsize =>
    exact iff_of_true rfl ⟨h, .inr ⟨n, (hn.expects_iff hlog n).2 rfl, hsize⟩⟩

theorem rows_eq : if chunked then rows = settings.chunkSize else plan.Expects log rows := by
  cases h with
  | skipped h hskip => exact rfl
  | small _ n hn h => exact (hn.expects_iff hlog rows).2 rfl
  | large _ n hn h hskip hsize => exact rfl

end Reckons

/-- What can be seen of a preparation that ended well: the one job that was created, how often the
records were counted, and the interval. -/
structure Splits (plan : JobPlan) (options : ExtractOptions) (size : Nat)
    (log : List (Exchange services)) (p : PreparedJob) : Prop where
  size_eq : (size : Int) = min (max (options.chunkSize.getD 200000) 100000) 250000
  created : ∃ request, log.filterMap creating? = [request] ∧
    request.chunkSize = if p.chunked then some size else none
  chunked_iff : p.chunked = true ↔
    options.chunkingEnabled = true ∧ options.userSpecifiedPartitions = false ∧
      options.maxPartitions.getD 20 ≤ 3 ∧
      (options.skipCountCheck = true ∨ ∃ n, plan.Expects log n ∧ size < n)
  counted : plan.expected = none → ¬ (p.chunked = true ∧ options.skipCountCheck = true) →
    ∃ n, log.filterMap counting? = [(plan.countQuery, .ok n)]
  uncounted : plan.expected ≠ none ∨ p.chunked = true ∧ options.skipCountCheck = true →
    log.filterMap counting? = []
  interval_eq : ∃ rows, (if p.chunked then rows = size else plan.Expects log rows) ∧
    p.interval = min 600 (30 + 2 * ⌈(rows : ℚ) / 10000⌉₊)

/-- The settings that say whether a query may be split are those of the options. -/
theorem settings_of_options {options : ExtractOptions}
    (h : Settings.ofOptions options = .ok settings) :
    settings.chunkingEnabled = Settings.chunkingEligible options.chunkingEnabled
        options.userSpecifiedPartitions (options.maxPartitions.getD 20) ∧
      settings.chunkSize = Settings.clampChunkSize options.chunkSize ∧
      settings.skipCountCheck = options.skipCountCheck := by
  unfold Settings.ofOptions at h
  dsimp only at h
  split at h
  · cases h
  · cases h
    exact ⟨rfl, rfl, rfl⟩

theorem clampChunkSize_eq (requested : Option Int) :
    (Settings.clampChunkSize requested : Int) =
      min (max (requested.getD 200000) 100000) 250000 := by
  cases requested with
  | none => rfl
  | some size =>
    simp only [Settings.clampChunkSize, Settings.minChunkSize, Settings.maxChunkSize,
      Option.getD_some]
    omega

/-- Whether a query may be split is decided as the options say it, and by the expected number of
records where they do not say enough. That number is counted once at most, and only if nobody knows
it. It also gives the interval for a job that is not split; the words in which that is reckoned are
large enough for any number. -/
theorem prepare_splits_by_count {options : ExtractOptions}
    (hoptions : Settings.ofOptions options = .ok settings)
    (ht : Trace (plan.prepare settings patience) log (.ok p)) :
    plan.Splits options settings.chunkSize log p ∧
      (∀ rows : UInt64, ∃ seconds, Word.pollInterval? rows = some seconds ∧
        seconds.toNat = min 600 (30 + 2 * ⌈(rows.toNat : ℚ) / 10000⌉₊)) ∧
      Monotone pollInterval := by
  refine ⟨?_, fun rows => ?_, fun _ _ => pollInterval_mono⟩
  · obtain ⟨first, created, info, submitted, second, rest, rows, rfl, hreckons, hinterval,
      hcounts, hrest⟩ := reckons_of_trace_prepare ht
    obtain ⟨hfirst, hsecond⟩ := List.forall_mem_append.1 hcounts
    obtain ⟨henabled, hsize, hskip⟩ := settings_of_options hoptions
    have heligible := Settings.chunkingEligible_iff options.chunkingEnabled
      options.userSpecifiedPartitions (options.maxPartitions.getD 20)
    have hcreated {log : List (Exchange services)} {kinds : List Request.Kind}
        (h : ∀ x ∈ log, x.request.kind ∈ kinds) (hkinds : .create ∉ kinds) :
        log.filterMap creating? = [] := filterMap_eq_nil_of_kinds creating?_eq_none h hkinds
    have hnone := filterMap_eq_nil_of_kinds counting?_eq_none hrest (by decide)
    have hlog := counting_stages (plan.request settings p.chunked) created info plan.query submitted
      first second hnone
    obtain ⟨hcounted, huncounted⟩ := hreckons.counting
    constructor
    · rw [hsize, clampChunkSize_eq]
    · refine ⟨plan.request settings p.chunked, ?_, rfl⟩
      rw [List.filterMap_append, hcreated hfirst (by decide), List.nil_append]
      change plan.request settings p.chunked :: (second ++ rest).filterMap creating? = _
      rw [List.filterMap_append, hcreated hsecond (by decide), hcreated hrest (by decide)]
      rfl
    · rw [hreckons.chunked_iff hlog, henabled, heligible, hskip, and_assoc, and_assoc]
    · rw [hlog, ← hskip]
      exact hcounted
    · rw [hlog, ← hskip]
      exact huncounted
    · rw [pollInterval_eq_ceil] at hinterval
      exact ⟨rows, hreckons.rows_eq hlog, hinterval⟩
  · rw [← pollInterval_eq_ceil]
    exact Word.pollInterval?_eq rows

/-- Options with a chunk size that is too small, and with as many partitions as are allowed. -/
def smallChunks : ExtractOptions :=
  { chunkingEnabled := true, chunkSize := some 5, maxPartitions := some 3 }

/-- The settings for these options. -/
def smallestChunks : Settings := { chunkingEnabled := true, chunkSize := 100000 }

/-- One record more is counted than fits into a chunk. -/
def countedLog : List (Exchange services) :=
  [⟨.recordCount "SELECT COUNT() FROM Account", .ok 100001⟩,
    ⟨.createJob (accounts.request smallestChunks true), .ok accountJob⟩,
    ⟨.jobStatus "750", .ok accountJob⟩,
    ⟨.submitBatch "750" "SELECT Id FROM Account", .ok ⟨"b0", "750", .queued, none⟩⟩,
    asked "750" "b0" (.ok ⟨"b0", "750", .notProcessed, none⟩),
    ⟨.listBatches "750",
      .ok [⟨"b0", "750", .notProcessed, none⟩, ⟨"b1", "750", .queued, none⟩]⟩,
    asked "750" "b1" (.ok ⟨"b1", "750", .completed, none⟩),
    ⟨.listResults "750" "b1", .ok [⟨"b1", "r1"⟩]⟩]

theorem prepare_splits_above_chunk :
    Settings.ofOptions smallChunks = .ok smallestChunks ∧
      Trace (accounts.prepare smallestChunks 1) countedLog
        (.ok ⟨.ofInfo accountJob, [⟨"b1", "r1"⟩], true, pollInterval 100000⟩) ∧
      accounts.Splits smallChunks 100000 countedLog
        ⟨.ofInfo accountJob, [⟨"b1", "r1"⟩], true, pollInterval 100000⟩ ∧
      pollInterval 100000 = 50 := by
  have hoptions : Settings.ofOptions smallChunks = .ok smallestChunks := by rfl
  have hlarge : decide (smallestChunks.chunkSize < 100001) = true := by decide
  have hdecided : Trace (accounts.useChunking smallestChunks)
      [⟨.recordCount "SELECT COUNT() FROM Account", .ok 100001⟩] (.ok (true, some 100001)) := by
    rw [← hlarge]
    exact .ask _ _ _ _ _ (.done _)
  have ht : Trace (accounts.prepare smallestChunks 1) countedLog
      (.ok ⟨.ofInfo accountJob, [⟨"b1", "r1"⟩], true, pollInterval 100000⟩) := by
    refine (trace_bind_iff countedLog _ _ _).2 (.inr ⟨_, _, _, rfl, hdecided, ?_⟩)
    repeat' first | exact .done _ | refine .ask _ _ _ _ _ ?_
  exact ⟨hoptions, ht, (prepare_splits_by_count hoptions ht).1, by decide⟩

end JobPlan

end Harvest
