import Harvest.Stream.Reader

/-!
# What a reader does

Seen from outside a reader opens its results in order, delivers rows of the result being read and
leaves it once it is exhausted; in between its budget of reconnects may be renewed. `Run` lists
these events together with the exchanges they took. Every fetch is such a run
(`ResultReader.run_of_trace_next`), so what holds of runs holds of whoever fetches from a reader.
-/

namespace Harvest

open Program (Trace Exchange)

namespace Cursor

variable (ctx : StreamContext)

theorem header_of_readRow (c after : Cursor) (header : List String) (r : Record)
    (h : c.readRow header = .record r after) :
    after.delivered ≠ 0 ∧ after.header = c.header := by
  unfold readRow at h
  split at h
  · cases h
    exact ⟨Nat.succ_ne_zero _, rfl⟩
  all_goals cases h

theorem header_of_read_record (c after : Cursor) (r : Record) (h : c.read = .record r after) :
    after.delivered ≠ 0 ∧ after.header.isSome := by
  unfold read at h
  split at h
  · rename_i header hheader
    obtain ⟨hdelivered, hsame⟩ := header_of_readRow c after header r h
    exact ⟨hdelivered, by rw [hsame, hheader]; rfl⟩
  · split at h
    · obtain ⟨hdelivered, hsame⟩ := header_of_readRow _ after _ r h
      exact ⟨hdelivered, by rw [hsame]; rfl⟩
    all_goals cases h

/-- A result of which a row was delivered keeps its header at its end and where it breaks. -/
theorem header_of_read_end (c after : Cursor) (hheader : c.header.isSome)
    (h : c.read = .exhausted after ∨ ∃ fault, c.read = .broken fault after) : after = c := by
  obtain ⟨header, hsome⟩ := Option.isSome_iff_exists.1 hheader
  simp only [read, hsome, readRow] at h
  split at h
  · simp at h
  · simpa [eq_comm] using h
  · simpa [eq_comm] using h
  · simp at h

theorem header_of_resume (c resumed : Cursor) (page : Page) (hdelivered : c.delivered ≠ 0)
    (h : c.resume page = .ready resumed) :
    resumed.delivered = c.delivered ∧ resumed.header = c.header := by
  rw [resume, if_neg hdelivered] at h
  split at h
  case h_4 =>
    split at h
    case h_4 =>
      split at h
      · cases h
        exact ⟨rfl, rfl⟩
      · cases h
    all_goals cases h
  all_goals cases h

/-- Behind a row the header is known, and the end of a result leaves it as it was. -/
def HeaderKept (c : Cursor) : Option Record × Cursor → Prop
  | (some _, after) => after.delivered ≠ 0 ∧ after.header.isSome
  | (none, after) => c.delivered ≠ 0 → c.header.isSome → after.header = c.header

theorem headerKept_of_takeUp (c : Cursor) (fault : String) (page : Page)
    (fetched : Option Record × Cursor)
    (h : takeUp ctx c fault page = .settled (.ok fetched)) : c.HeaderKept fetched := by
  unfold takeUp at h
  split at h
  case h_4 resumed hresume =>
    split at h
    case h_1 r after hread =>
      cases h
      exact header_of_read_record resumed after r hread
    case h_2 after hread =>
      cases h
      intro hdelivered hheader
      have hresumed := (header_of_resume c resumed page hdelivered hresume).2
      rw [header_of_read_end resumed after (hresumed ▸ hheader) (.inl hread), hresumed]
    all_goals cases h
  all_goals cases h

theorem header_of_takeUp_again (c after : Cursor) (fault newFault : String) (page : Page)
    (hdelivered : c.delivered ≠ 0) (hheader : c.header.isSome)
    (h : takeUp ctx c fault page = .again newFault after) :
    after.delivered = c.delivered ∧ after.header = c.header := by
  unfold takeUp at h
  split at h
  case h_4 resumed hresume =>
    obtain ⟨hsame, hresumed⟩ := header_of_resume c resumed page hdelivered hresume
    split at h
    case h_3 newFault' after' hread =>
      cases h
      have hafter := header_of_read_end resumed after (hresumed ▸ hheader) (.inr ⟨_, hread⟩)
      exact hafter ▸ ⟨hsame, hresumed⟩
    all_goals cases h
  case h_1 =>
    cases h
    exact ⟨rfl, rfl⟩
  all_goals cases h

theorem headerKept_of_trace_recover (budget : Nat) (fault : String) (c : Cursor)
    (log : List (Exchange services)) (fetched : Option Record × Cursor)
    (ht : Trace (recover ctx budget fault c) log (.ok fetched)) : c.HeaderKept fetched := by
  induction budget generalizing fault c log with
  | zero => cases ((Program.trace_done_iff _ _ log).1 ht).2
  | succ budget ih =>
    obtain ⟨reply, rest, rfl, hrest⟩ := (Program.trace_ask_iff _ _ log _).1 ht
    cases reply with
    | error e => cases ((Program.trace_done_iff _ _ rest).1 hrest).2
    | ok page =>
      simp only at hrest
      cases htake : takeUp ctx c.countReconnect fault page with
      | settled outcome =>
        rw [htake] at hrest
        obtain ⟨-, rfl⟩ := (Program.trace_done_iff _ _ rest).1 hrest
        exact headerKept_of_takeUp ctx c.countReconnect fault page fetched htake
      | again newFault after =>
        rw [htake] at hrest
        have hkept := ih newFault after rest hrest
        rcases fetched with ⟨_ | record, last⟩
        · intro hdelivered hheader
          obtain ⟨hsame, hafter⟩ :=
            header_of_takeUp_again ctx c.countReconnect after fault newFault page hdelivered hheader
              htake
          exact (hkept (hsame ▸ hdelivered) (hafter ▸ hheader)).trans hafter
        · exact hkept

theorem headerKept_of_trace_next (c : Cursor) (log : List (Exchange services))
    (fetched : Option Record × Cursor) (ht : Trace (c.next ctx) log (.ok fetched)) :
    c.HeaderKept fetched := by
  unfold next at ht
  split at ht
  case h_1 r after hread =>
    cases ((Program.trace_done_iff _ _ log).1 ht).2
    exact header_of_read_record c after r hread
  case h_2 after hread =>
    cases ((Program.trace_done_iff _ _ log).1 ht).2
    intro _ hheader
    rw [header_of_read_end c after hheader (.inl hread)]
  case h_3 fault after hread =>
    have hkept := headerKept_of_trace_recover ctx _ fault after log fetched ht
    rcases fetched with ⟨_ | record, last⟩
    · intro hdelivered hheader
      obtain rfl := header_of_read_end c after hheader (.inr ⟨fault, hread⟩)
      exact hkept hdelivered hheader
    · exact hkept
  case h_4 fault hread => cases ((Program.trace_done_iff _ _ log).1 ht).2

end Cursor

namespace ResultReader

/-- What happens at a reader. -/
inductive Event
  /-- The result being read gets a fresh budget of reconnects. -/
  | renewed
  | opened (reference : ResultReference)
  | delivered (record : Record)
  /-- A result is left behind; its header, if it had one. -/
  | exhausted (header : Option (List String))
  deriving DecidableEq, Repr

namespace Event

def row? : Event → Option Record
  | .delivered record => some record
  | _ => none

def reference? : Event → Option ResultReference
  | .opened reference => some reference
  | _ => none

def header? : Event → Option (List String)
  | .exhausted header => header
  | _ => none

end Event

/-- The rows delivered, in order. -/
def rows (events : List Event) : List Record := events.filterMap Event.row?

/-- The results that were opened, in order. -/
def openedReferences (events : List Event) : List ResultReference :=
  events.filterMap Event.reference?

/-- The header of the last result that had one when it was exhausted. -/
def lastHeader (events : List Event) : Option (List String) :=
  (events.filterMap Event.header?).getLast?

/-- One event at a reader, and the exchanges it takes. -/
inductive Step : ResultReader → List (Exchange services) → Event → ResultReader → Prop
  | renewed (r : ResultReader) : Step r [] .renewed r.renewBudget
  | opened (r : ResultReader) (reference : ResultReference) (pending : List ResultReference)
      (page : Page) (hcursor : r.cursor = none) (hpending : r.pending = reference :: pending) :
      Step r [⟨.openResult r.context.job reference, .ok page⟩] (.opened reference)
        { r with pending := pending, cursor := some (.start reference page) }
  | delivered (r : ResultReader) (c after : Cursor) (record : Record)
      (log : List (Exchange services)) (hcursor : r.cursor = some c)
      (h : Trace (c.next r.context) log (.ok (some record, after))) :
      Step r log (.delivered record) (r.deliver record after).2
  | exhausted (r : ResultReader) (c after : Cursor) (log : List (Exchange services))
      (hcursor : r.cursor = some c) (h : Trace (c.next r.context) log (.ok (none, after))) :
      Step r log (.exhausted after.header) (r.leave after)

/-- The events of a run, one after the other, and the exchanges they take together. -/
inductive Run : ResultReader → List (Exchange services) → List Event → ResultReader → Prop
  | nil (r : ResultReader) : Run r [] [] r
  | cons (r r' r'' : ResultReader) (log rest : List (Exchange services)) (event : Event)
      (events : List Event) (h : Step r log event r') (hrest : Run r' rest events r'') :
      Run r (log ++ rest) (event :: events) r''

/-- Nothing is left to be read. -/
def Drained (r : ResultReader) : Prop := r.cursor = none ∧ r.pending = []

theorem rows_append (events others : List Event) :
    rows (events ++ others) = rows events ++ rows others :=
  List.filterMap_append

theorem lastHeader_append (events others : List Event) :
    lastHeader (events ++ others) = (lastHeader others).or (lastHeader events) := by
  rw [lastHeader, List.filterMap_append, List.getLast?_append]
  rfl

section Run

variable {r r' r'' : ResultReader} {log log' : List (Exchange services)} {event : Event}
  {events events' : List Event}

theorem Run.single (h : Step r log event r') : Run r log [event] r' := by
  have hrun := Run.cons r r' r' log [] event [] h (.nil r')
  rwa [List.append_nil] at hrun

theorem Run.append (h : Run r log events r') (h' : Run r' log' events' r'') :
    Run r (log ++ log') (events ++ events') r'' := by
  induction h with
  | nil r => exact h'
  | cons r r₁ r₂ log rest event events hstep _ ih =>
    rw [List.append_assoc]
    exact .cons r r₁ r'' log _ event _ hstep (ih h')

/-- The results are opened in their order. -/
theorem Run.pending (h : Run r log events r') :
    r.pending = openedReferences events ++ r'.pending := by
  induction h with
  | nil r => rfl
  | cons r r₁ r₂ log rest event events hstep _ ih =>
    cases hstep with
    | renewed => exact ih
    | opened reference pending page hcursor hpending =>
      rw [hpending]
      exact congrArg (reference :: ·) ih
    | delivered c after record log hcursor h => exact ih
    | exhausted c after log hcursor h => exact ih

/-- At a drained reader nothing happens any more but that its budget is renewed. -/
theorem Run.of_drained (h : Run r log events r') (hdrained : r.Drained) :
    rows events = [] ∧ lastHeader events = none ∧ r'.Drained := by
  induction h with
  | nil r => exact ⟨rfl, rfl, hdrained⟩
  | cons r r₁ r₂ log rest event events hstep _ ih =>
    obtain ⟨hcursor, hpending⟩ := hdrained
    cases hstep with
    | renewed =>
      refine ih ⟨?_, hpending⟩
      rw [renewBudget, hcursor]
      rfl
    | opened reference pending page _ hpending' => cases hpending.symm.trans hpending'
    | delivered c after record log hcursor' h => cases hcursor.symm.trans hcursor'
    | exhausted c after log hcursor' h => cases hcursor.symm.trans hcursor'

/-- The header of a reader: that of the result being read where rows of it were delivered, and
`left`, the one of the last result that was left, otherwise. -/
def KeepsHeader (r : ResultReader) (left : Option (List String)) : Prop :=
  r.header = left ∨
    ∃ c, r.cursor = some c ∧ c.delivered ≠ 0 ∧ c.header.isSome ∧ r.header = c.header

theorem Step.keepsHeader {left : Option (List String)} (h : Step r log event r')
    (hkeeps : r.KeepsHeader left) : r'.KeepsHeader (event.header?.or left) := by
  cases h with
  | renewed =>
    rcases hkeeps with hleft | ⟨c, hcursor, hdelivered, hsome, hheader⟩
    · exact .inl hleft
    · refine .inr ⟨{ c with reconnects := 0 }, ?_, hdelivered, hsome, hheader⟩
      rw [renewBudget, hcursor]
      rfl
  | opened reference pending page hcursor =>
    rcases hkeeps with hleft | ⟨c, hsome, -⟩
    · exact .inl hleft
    · cases hcursor.symm.trans hsome
  | delivered c after record log hcursor h =>
    obtain ⟨hdelivered, hsome⟩ := Cursor.headerKept_of_trace_next _ c log _ h
    refine .inr ⟨after, rfl, hdelivered, hsome, ?_⟩
    obtain ⟨header, hheader⟩ := Option.isSome_iff_exists.1 hsome
    simp only [deliver, hheader, Option.some_or]
  | exhausted c after log hcursor h =>
    left
    rcases hkeeps with hleft | ⟨c', hcursor', hdelivered, hsome, hheader⟩
    · rw [leave, hleft]
      rfl
    · cases hcursor.symm.trans hcursor'
      have hafter := Cursor.headerKept_of_trace_next _ c log _ h hdelivered hsome
      obtain ⟨header, hc⟩ := Option.isSome_iff_exists.1 hsome
      simp only [leave, Event.header?, hafter, hc, Option.some_or]

theorem Run.keepsHeader {left : Option (List String)} (h : Run r log events r')
    (hkeeps : r.KeepsHeader left) : r'.KeepsHeader ((lastHeader events).or left) := by
  induction h generalizing left with
  | nil r => exact hkeeps
  | cons r r₁ r₂ log rest event events hstep _ ih =>
    have hlast := ih (hstep.keepsHeader hkeeps)
    have hcons : lastHeader (event :: events) = (lastHeader events).or event.header? := by
      rw [← List.singleton_append, lastHeader_append]
      cases event <;> first | rfl | (rename_i header; cases header <;> rfl)
    rwa [hcons, Option.or_assoc]

/-- A drained reader has the header of the last result that had one when it was left. -/
theorem Run.header (h : Run r log events r') (hdrained : r'.Drained) :
    r'.header = (lastHeader events).or r.header := by
  rcases h.keepsHeader (.inl rfl) with hheader | ⟨c, hcursor, -⟩
  · exact hheader
  · cases hdrained.1.symm.trans hcursor

end Run

/-- What a fetch answers, by the events it takes. -/
def Yields (events : List Event) (r' : ResultReader) : Fetch → Prop
  | .row record => rows events = [record]
  | .finished => rows events = [] ∧ r'.Drained

theorem run_of_trace_fetchPending (r r' : ResultReader) (pending : List ResultReference)
    (hcursor : r.cursor = none) (log : List (Exchange services)) (fetch : Fetch)
    (ht : Trace (fetchPending r pending) log (.ok fetch, r')) :
    ∃ events, Run { r with pending := pending } log events r' ∧ Yields events r' fetch := by
  induction pending generalizing r log with
  | nil =>
    obtain ⟨rfl, heq⟩ := (Program.trace_done_iff _ _ log).1 ht
    cases heq
    exact ⟨[], .nil _, rfl, hcursor, rfl⟩
  | cons reference pending ih =>
    obtain ⟨reply, tail, rfl, htail⟩ := (Program.trace_ask_iff _ _ log _).1 ht
    cases reply with
    | error e => cases ((Program.trace_done_iff _ _ tail).1 htail).2
    | ok page =>
      obtain ⟨first, last, outcome, rfl, hfirst, hlast⟩ :=
        (Program.trace_bind_iff _ _ tail _).1 htail
      have hopened := Run.single (Step.opened { r with pending := reference :: pending } reference
        pending page hcursor rfl)
      rcases outcome with e | ⟨_ | record, c⟩
      · cases ((Program.trace_done_iff _ _ last).1 hlast).2
      · obtain ⟨events, hrun, hyields⟩ := ih (r.leave c) rfl last hlast
        have hleft := Run.single (Step.exhausted { r with
          pending := pending, cursor := some (.start reference page) } _ c first rfl hfirst)
        refine ⟨_, hopened.append (hleft.append hrun), ?_⟩
        exact hyields
      · obtain ⟨rfl, heq⟩ := (Program.trace_done_iff _ _ last).1 hlast
        cases heq
        have hdelivered := Run.single (Step.delivered { r with
          pending := pending, cursor := some (.start reference page) } _ c record first rfl hfirst)
        rw [List.append_nil]
        exact ⟨_, hopened.append hdelivered, rfl⟩

/-- A fetch is a run of the reader: it leaves results that are exhausted and opens those behind
them, until a row is delivered or nothing is left. -/
theorem run_of_trace_next (r r' : ResultReader) (log : List (Exchange services)) (fetch : Fetch)
    (ht : Trace r.next log (.ok fetch, r')) :
    ∃ events, Run r log events r' ∧ Yields events r' fetch := by
  rw [next] at ht
  cases hfailure : r.failure with
  | some reason =>
    rw [hfailure] at ht
    cases ((Program.trace_done_iff _ _ log).1 ht).2
  | none =>
    rw [hfailure] at ht
    cases hcursor : r.cursor with
    | none =>
      simp only [hcursor] at ht
      exact run_of_trace_fetchPending r r' r.pending hcursor log fetch ht
    | some c =>
      simp only [hcursor] at ht
      obtain ⟨first, last, outcome, rfl, hfirst, hlast⟩ := (Program.trace_bind_iff _ _ log _).1 ht
      rcases outcome with e | ⟨_ | record, after⟩
      · cases ((Program.trace_done_iff _ _ last).1 hlast).2
      · obtain ⟨events, hrun, hyields⟩ :=
          run_of_trace_fetchPending (r.leave after) r' r.pending rfl last fetch hlast
        have hleft := Run.single (Step.exhausted r c after first hcursor hfirst)
        exact ⟨_, hleft.append hrun, hyields⟩
      · obtain ⟨rfl, heq⟩ := (Program.trace_done_iff _ _ last).1 hlast
        cases heq
        have hdelivered := Run.single (Step.delivered r c after record first hcursor hfirst)
        rw [List.append_nil]
        exact ⟨_, hdelivered, rfl⟩

end ResultReader

end Harvest
