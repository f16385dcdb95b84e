import Harvest.Proofs.Stream.Delivery
import Harvest.Proofs.Stream.Progress

/-!
# Which header a row is paired with

The pages that a result is read from need not have the same header. When a page is taken up behind
rows that were delivered its header is passed over, so each row is paired with the header of the
page that the first row of its result was read from (`ResultReader.named_by_first_page`). That is
another header than the one of its own page if the two pages differ there and have the row in
common that was delivered last (`ResultReader.row_named_by_other_page`).

Nothing is asked of the pages here: they may hold bytes that are no text, and opens may fail.
-/

namespace Harvest

open Program (Trace Exchange)

/-- The fields at a place of a page, its header being at the first place. -/
def Page.line? (p : Page) (n : Nat) : Option (List String) :=
  p.rows[n]?.bind fun row => row.text.toOption

namespace Feed

variable {p : Page} {f rest : Feed} {n : Nat}

theorem line?_of_next {fields : List String} (hf : f.rows = p.rows.drop n)
    (h : f.next = .row fields rest) :
    p.line? n = some fields ∧ rest.rows = p.rows.drop (n + 1) := by
  obtain ⟨row, hrows, htext, -⟩ := (next_eq_row_iff f rest fields).1 h
  have hdrop : p.rows.drop n = row :: rest.rows := hf.symm.trans hrows
  have hrow : p.rows[n]? = some row := by rw [← List.head?_drop, hdrop, List.head?_cons]
  refine ⟨?_, ?_⟩
  · rw [Page.line?, hrow, Option.bind_some, htext]
    rfl
  · rw [← List.tail_drop, hdrop, List.tail_cons]

theorem rows_of_skip (k passed : Nat) (last : List String) {landed : List String}
    (hf : f.rows = p.rows.drop n) (h : f.skip k passed last = .landed landed rest) :
    rest.rows = p.rows.drop (n + k) := by
  induction k generalizing n passed last f with
  | zero =>
    cases h
    exact hf
  | succ k ih =>
    rw [skip] at h
    split at h
    case h_1 fields behind hnext =>
      rw [ih (passed + 1) fields (line?_of_next hf hnext).2 h, Nat.add_right_comm]
      rfl
    all_goals cases h

end Feed

namespace Cursor

/-- The cursor stands behind the header and `n` rows of the page, or before the header if no row was
delivered. -/
structure Reads (c : Cursor) (page : Page) (n : Nat) : Prop where
  delivered : c.delivered = n
  rows : c.feed.rows = page.rows.drop (if n = 0 then 0 else n + 1)
  fresh : n = 0 → c.header = none
  opened : n ≠ 0 → (page.line? 0).isSome ∧ c.header.isSome

/-- A record was read behind `n` rows of the page, under the header of the page if it is the first
one, and else under the header that is known. -/
structure Takes (c : Cursor) (page : Page) (n : Nat) (r : Record) (after : Cursor) : Prop where
  reads : after.Reads page (n + 1)
  record : ∃ header fields, page.line? (n + 1) = some fields ∧ r = .ofFields header fields ∧
    after.header = some header ∧
      if n = 0 then page.line? 0 = some header else c.header = some header

section Taking

variable {ctx : StreamContext} {c after : Cursor} {page : Page} {n : Nat} {r : Record}

theorem reads_start (reference : ResultReference) (page : Page) :
    (start reference page).Reads page 0 :=
  ⟨rfl, page.rows_feed, fun _ => rfl, fun h => absurd rfl h⟩

theorem Reads.renew (h : c.Reads page n) (k : Nat) :
    ({ c with reconnects := k } : Cursor).Reads page n :=
  ⟨h.delivered, h.rows, h.fresh, h.opened⟩

/-- A header that was known before is that of another cursor too. -/
theorem Takes.congr {d : Cursor} (h : d.Takes page n r after)
    (hheader : n ≠ 0 → d.header = c.header) : c.Takes page n r after := by
  obtain ⟨hreads, header, fields, hfields, hr, hafter, hknown⟩ := h
  refine ⟨hreads, header, fields, hfields, hr, hafter, ?_⟩
  split at hknown
  · next hn => rwa [if_pos hn]
  · next hn => rwa [if_neg hn, ← hheader hn]

theorem takes_of_readRow {header : List String} (hrows : c.feed.rows = page.rows.drop (n + 1))
    (hdelivered : c.delivered = n) (hheader : c.header = some header)
    (hopened : (page.line? 0).isSome) (hknown : n = 0 → page.line? 0 = some header)
    (h : c.readRow header = .record r after) : c.Takes page n r after := by
  rw [readRow] at h
  split at h
  case h_1 fields rest hnext =>
    cases h
    obtain ⟨hfields, hrest⟩ := Feed.line?_of_next hrows hnext
    refine ⟨⟨congrArg (· + 1) hdelivered, hrest, fun h => absurd h (Nat.succ_ne_zero n),
      fun _ => ⟨hopened, by rw [hheader]; rfl⟩⟩, header, fields, hfields, rfl, hheader, ?_⟩
    split
    · next hn => exact hknown hn
    · exact hheader
  all_goals cases h

theorem Reads.takes_of_read (hc : c.Reads page n) (h : c.read = .record r after) :
    c.Takes page n r after := by
  by_cases hn : n = 0
  · subst hn
    rw [read, hc.fresh rfl] at h
    split at h
    case h_1 header hsome => cases hsome
    split at h
    case h_1 first rest hnext =>
      have hrows : c.feed.rows = page.rows.drop 0 := hc.rows
      obtain ⟨hfirst, hrest⟩ := Feed.line?_of_next hrows hnext
      have htakes : Takes { c with header := some first, feed := rest } page 0 r after :=
        takes_of_readRow hrest hc.delivered rfl (by rw [hfirst]; rfl) (fun _ => hfirst) h
      exact htakes.congr fun h => absurd rfl h
    all_goals cases h
  · obtain ⟨hopened, hsome⟩ := hc.opened hn
    obtain ⟨header, hheader⟩ := Option.isSome_iff_exists.1 hsome
    have hrows := hc.rows
    rw [if_neg hn] at hrows
    rw [read_of_header c header hheader] at h
    exact takes_of_readRow hrows hc.delivered hheader hopened (fun h => absurd h hn) h

/-- A page that is taken up is read behind as many rows as were delivered. -/
theorem reads_of_resume {resumed : Cursor} (hdelivered : c.delivered = n)
    (hheader : n ≠ 0 → c.header.isSome) (h : c.resume page = .ready resumed) :
    resumed.Reads page n := by
  rw [resume] at h
  split at h
  case isTrue hzero =>
    cases h
    obtain rfl : n = 0 := hdelivered.symm.trans hzero
    exact ⟨hdelivered, page.rows_feed, fun _ => rfl, fun h => absurd rfl h⟩
  case isFalse hzero =>
    have hn : n ≠ 0 := hdelivered ▸ hzero
    split at h
    case h_4 first rest hnext =>
      obtain ⟨hfirst, hrest⟩ := Feed.line?_of_next (n := 0) page.rows_feed hnext
      split at h
      case h_4 last behind hskip =>
        split at h
        case isTrue hsame =>
          cases h
          refine ⟨hdelivered, ?_, fun h => absurd h hn, fun _ => ⟨by rw [hfirst]; rfl, hheader hn⟩⟩
          rw [if_neg hn, Nat.add_comm n 1, ← hdelivered]
          exact Feed.rows_of_skip c.delivered 0 first hrest hskip
        case isFalse => cases h
      all_goals cases h
    all_goals cases h

theorem delivered_of_read_broken {fault : String} (h : c.read = .broken fault after) :
    after.delivered = c.delivered := by
  have hrow (d : Cursor) (header : List String) (h : d.readRow header = .broken fault after) :
      after = d := by
    rw [readRow] at h
    split at h <;> cases h
    rfl
  rw [read] at h
  split at h
  · rw [hrow c _ h]
  · split at h
    · rw [hrow _ _ h]
    all_goals cases h
    rfl

/-- What was delivered is known as before where a page breaks again. -/
theorem kept_of_takeUp_again {fault newFault : String}
    (hheader : c.delivered ≠ 0 → c.header.isSome)
    (h : takeUp ctx c fault page = .again newFault after) :
    after.delivered = c.delivered ∧ (c.delivered ≠ 0 → after.header = c.header) := by
  refine ⟨?_, fun hn => (header_of_takeUp_again ctx c after _ _ page hn (hheader hn) h).2⟩
  rw [takeUp] at h
  split at h
  case h_4 resumed hresume =>
    split at h
    case h_3 newFault' after' hread =>
      cases h
      rw [delivered_of_read_broken hread, (reads_of_resume rfl hheader hresume).delivered]
    all_goals cases h
  case h_1 =>
    cases h
    rfl
  all_goals cases h

theorem takes_of_takeUp {fault : String} (hdelivered : c.delivered = n)
    (hheader : n ≠ 0 → c.header.isSome)
    (h : takeUp ctx c fault page = .settled (.ok (some r, after))) : c.Takes page n r after := by
  rw [takeUp] at h
  split at h
  case h_4 resumed hresume =>
    split at h
    case h_1 record last hread =>
      cases h
      have hreads := reads_of_resume hdelivered hheader hresume
      refine (hreads.takes_of_read hread).congr fun hn => ?_
      exact (header_of_resume c resumed page (hdelivered ▸ hn) hresume).2
    all_goals cases h
  all_goals cases h

end Taking

end Cursor

/-- The page that an exchange opens. -/
def Program.Exchange.page? : Exchange services → Option Page
  | ⟨.openResult _ _, .ok page⟩ => some page
  | _ => none

/-- The page opened last. -/
def lastPage (log : List (Exchange services)) : Option Page :=
  (log.filterMap Exchange.page?).getLast?

theorem lastPage_append (log more : List (Exchange services)) :
    lastPage (log ++ more) = (lastPage more).or (lastPage log) := by
  rw [lastPage, List.filterMap_append, List.getLast?_append]
  rfl

theorem lastPage_opened (job : String) (reference : ResultReference) (page : Page)
    (log : List (Exchange services)) :
    lastPage (⟨.openResult job reference, .ok page⟩ :: log) = (lastPage log).or (some page) :=
  lastPage_append [⟨.openResult job reference, .ok page⟩] log

namespace Cursor

section Fetching

variable {ctx : StreamContext} {c after : Cursor} {page : Page} {n : Nat} {r : Record}
  {log : List (Exchange services)}

/-- Behind a break a record is read from the page opened last. -/
theorem takes_of_trace_recover (budget : Nat) (fault : String) (hdelivered : c.delivered = n)
    (hheader : n ≠ 0 → c.header.isSome)
    (ht : Trace (recover ctx budget fault c) log (.ok (some r, after))) :
    ∃ p, lastPage log = some p ∧ c.Takes p n r after := by
  induction budget generalizing fault c log with
  | zero => cases ((Program.trace_done_iff _ _ log).1 ht).2
  | succ budget ih =>
    obtain ⟨reply, rest, rfl, hrest⟩ := (Program.trace_ask_iff _ _ log _).1 ht
    cases reply with
    | error e => cases ((Program.trace_done_iff _ _ rest).1 hrest).2
    | ok page =>
      rw [lastPage_opened]
      simp only at hrest
      cases htake : takeUp ctx c.countReconnect fault page with
      | settled outcome =>
        rw [htake] at hrest
        obtain ⟨rfl, rfl⟩ := (Program.trace_done_iff _ _ rest).1 hrest
        have htakes := takes_of_takeUp (c := c.countReconnect) hdelivered hheader htake
        exact ⟨page, rfl, htakes.congr fun _ => rfl⟩
      | again newFault d =>
        rw [htake] at hrest
        obtain ⟨hsame, hkept⟩ := kept_of_takeUp_again (c := c.countReconnect)
          (fun hn => hheader (hdelivered ▸ hn)) htake
        replace hkept (hn : n ≠ 0) : d.header = c.header := hkept (hdelivered.symm ▸ hn)
        obtain ⟨p, hlast, htakes⟩ := ih newFault (hsame.trans hdelivered)
          (fun hn => hkept hn ▸ hheader hn) hrest
        exact ⟨p, by rw [hlast, Option.some_or], htakes.congr hkept⟩

/-- A record is read from the page opened last. -/
theorem Reads.takes_of_trace_next (hc : c.Reads page n)
    (ht : Trace (c.next ctx) log (.ok (some r, after))) :
    ∃ p, (lastPage log).or (some page) = some p ∧ c.Takes p n r after := by
  have hheader (hn : n ≠ 0) : c.header.isSome := (hc.opened hn).2
  rw [next] at ht
  split at ht
  case h_1 record d hread =>
    obtain ⟨rfl, heq⟩ := (Program.trace_done_iff _ _ log).1 ht
    cases heq
    exact ⟨page, rfl, hc.takes_of_read hread⟩
  case h_2 => cases ((Program.trace_done_iff _ _ log).1 ht).2
  case h_3 fault d hread =>
    have hdelivered := (delivered_of_read_broken hread).trans hc.delivered
    have hsame (hn : n ≠ 0) : d = c := header_of_read_end c d (hheader hn) (.inr ⟨fault, hread⟩)
    obtain ⟨p, hlast, htakes⟩ :=
      takes_of_trace_recover _ fault hdelivered (fun hn => (hsame hn).symm ▸ hheader hn) ht
    exact ⟨p, by rw [hlast, Option.some_or], htakes.congr fun hn => by rw [hsame hn]⟩
  case h_4 => cases ((Program.trace_done_iff _ _ log).1 ht).2

end Fetching

end Cursor

namespace ResultReader

/-- A record that a reader delivered, and the page that its row was read from. -/
structure Delivery where
  /-- How many results were not opened then, which tells the result that was being read. -/
  left : Nat
  page : Page
  record : Record
  deriving DecidableEq, Repr

/-- `Deliveries context references log ds r`: by fetches from these references, with renewals of the
budget in between, the reader `r` was reached and delivered `ds`. Rows are read from the page opened
last. -/
inductive Deliveries (context : StreamContext) (references : List ResultReference) :
    List (Exchange services) → List Delivery → ResultReader → Prop
  | start : Deliveries context references [] [] (.start context references)
  | renewed (log : List (Exchange services)) (ds : List Delivery) (r : ResultReader)
      (h : Deliveries context references log ds r) :
    Deliveries context references log ds r.renewBudget
  | row (log more : List (Exchange services)) (ds : List Delivery) (r r' : ResultReader)
      (page : Page) (record : Record) (h : Deliveries context references log ds r)
      (ht : Trace r.next more (.ok (.row record), r'))
      (hpage : lastPage (log ++ more) = some page) :
    Deliveries context references (log ++ more) (ds ++ [⟨r'.pending.length, page, record⟩]) r'
  /-- A fetch that gives no row. -/
  | other (log more : List (Exchange services)) (ds : List Delivery) (r r' : ResultReader)
      (answer : Except ExtractError Fetch) (h : Deliveries context references log ds r)
      (ht : Trace r.next more (answer, r')) (hother : ∀ record, answer ≠ .ok (.row record)) :
    Deliveries context references (log ++ more) ds r'

/-- The deliveries from the result behind which so many were not opened. -/
def fromResult (left : Nat) (ds : List Delivery) : List Delivery := ds.filter (·.left == left)

/-- Behind the deliveries before it, a record has the header of the page that the first row of its
result was read from, and the fields of the row behind those delivered from its result. -/
def Delivery.Named (before : List Delivery) (d : Delivery) : Prop :=
  ∃ first header own fields, (fromResult d.left (before ++ [d])).head? = some first ∧
    first.page.line? 0 = some header ∧ d.page.line? 0 = some own ∧
    d.page.line? (fromResult d.left (before ++ [d])).length = some fields ∧
    d.record = .ofFields header fields

/-- Results are opened one after the other, and the result being read is read behind the rows that
were delivered from it, under the header of the page of the first one. -/
structure Placed (log : List (Exchange services)) (ds : List Delivery) (r : ResultReader) :
    Prop where
  left : ∀ d ∈ ds, r.pending.length ≤ d.left
  reads : ∀ c, r.cursor = some c → ∃ page, lastPage log = some page ∧
    c.Reads page (fromResult r.pending.length ds).length ∧
    ∀ first, (fromResult r.pending.length ds).head? = some first →
      first.page.line? 0 = c.header

/-- What a fetch adds to the deliveries. -/
def Adds (log : List (Exchange services)) (ds : List Delivery) (o : Outcome) : Prop :=
  match o.1 with
  | .ok (.row record) => ∃ page, lastPage log = some page ∧
      Placed log (ds ++ [⟨o.2.pending.length, page, record⟩]) o.2 ∧
      Delivery.Named ds ⟨o.2.pending.length, page, record⟩
  | _ => Placed log ds o.2

section Placing

variable {r : ResultReader} {log more : List (Exchange services)} {ds : List Delivery}

theorem placed_of_cursor_none (hleft : ∀ d ∈ ds, r.pending.length ≤ d.left)
    (hcursor : r.cursor = none) : Placed log ds r :=
  ⟨hleft, fun _ hc => nomatch hcursor.symm.trans hc⟩

theorem fromResult_concat (d : Delivery) :
    fromResult d.left (ds ++ [d]) = fromResult d.left ds ++ [d] := by
  simp [fromResult]

theorem fromResult_eq_nil {left : Nat} (hleft : ∀ d ∈ ds, left < d.left) :
    fromResult left ds = [] :=
  List.filter_eq_nil_iff.2 fun d hd heq => absurd (eq_of_beq heq) (Nat.ne_of_gt (hleft d hd))

theorem adds_deliver {c after : Cursor} {p : Page} {record : Record}
    (hleft : ∀ d ∈ ds, r.pending.length ≤ d.left)
    (htakes : c.Takes p (fromResult r.pending.length ds).length record after)
    (hfirst : ∀ first, (fromResult r.pending.length ds).head? = some first →
      first.page.line? 0 = c.header)
    (hlast : lastPage log = some p) : Adds log ds (r.deliver record after) := by
  obtain ⟨hreads, header, fields, hfields, hrecord, hafter, hknown⟩ := htakes
  let d : Delivery := ⟨r.pending.length, p, record⟩
  have hconcat : fromResult r.pending.length (ds ++ [d]) = fromResult r.pending.length ds ++ [d] :=
    fromResult_concat d
  obtain ⟨own, hown⟩ := Option.isSome_iff_exists.1 (hreads.opened (Nat.succ_ne_zero _)).1
  -- the first row of a result is read under the header of its own page
  obtain ⟨first, hhead, hheader⟩ : ∃ first,
      (fromResult r.pending.length (ds ++ [d])).head? = some first ∧
        first.page.line? 0 = some header := by
    rw [hconcat]
    cases hsame : fromResult r.pending.length ds with
    | nil =>
      rw [hsame] at hknown
      exact ⟨d, rfl, hknown⟩
    | cons first others =>
      rw [hsame] at hknown hfirst
      exact ⟨first, rfl, (hfirst first rfl).trans hknown⟩
  have hlength : (fromResult r.pending.length (ds ++ [d])).length =
      (fromResult r.pending.length ds).length + 1 := by
    rw [hconcat, List.length_append]
    rfl
  refine ⟨p, hlast, ⟨?_, ?_⟩, first, header, own, fields, hhead, hheader, hown, ?_, hrecord⟩
  · intro e he
    rcases List.mem_append.1 he with he | he
    · exact hleft e he
    · exact Nat.le_of_eq (congrArg Delivery.left (List.mem_singleton.1 he)).symm
  · intro c' hc'
    cases hc'
    refine ⟨p, hlast, hlength.symm ▸ hreads, fun first' hfirst' => ?_⟩
    cases hhead.symm.trans hfirst'
    exact hheader.trans hafter.symm
  · exact (congrArg p.line? hlength).trans hfields

theorem adds_fetchPending (pending : List ResultReference) (o : Outcome)
    (hcursor : r.cursor = none) (hleft : ∀ d ∈ ds, pending.length ≤ d.left)
    (ht : Trace (fetchPending r pending) more o) : Adds (log ++ more) ds o := by
  induction pending generalizing r log more with
  | nil =>
    obtain ⟨rfl, rfl⟩ := (Program.trace_done_iff _ o more).1 ht
    exact placed_of_cursor_none hleft hcursor
  | cons reference pending ih =>
    obtain ⟨reply, tail, rfl, htail⟩ := (Program.trace_ask_iff _ _ more o).1 ht
    have hfewer : ∀ d ∈ ds, pending.length < d.left := hleft
    have hleft' : ∀ d ∈ ds, pending.length ≤ d.left := fun d hd => Nat.le_of_lt (hfewer d hd)
    cases reply with
    | error e =>
      obtain ⟨rfl, rfl⟩ := (Program.trace_done_iff _ o tail).1 htail
      exact placed_of_cursor_none hleft' rfl
    | ok page =>
      obtain ⟨first, last, outcome, rfl, hfirst, hlast⟩ :=
        (Program.trace_bind_iff _ _ tail o).1 htail
      rcases outcome with e | ⟨_ | record, c⟩
      · obtain ⟨rfl, rfl⟩ := (Program.trace_done_iff _ o last).1 hlast
        exact placed_of_cursor_none hleft' rfl
      · rw [← List.cons_append, ← List.append_assoc]
        exact ih rfl hleft' hlast
      · obtain ⟨rfl, rfl⟩ := (Program.trace_done_iff _ o last).1 hlast
        obtain ⟨p, hp, htakes⟩ := (Cursor.reads_start reference page).takes_of_trace_next hfirst
        have hnone : fromResult pending.length ds = [] := fromResult_eq_nil hfewer
        refine adds_deliver (r := { r with pending := pending }) (p := p)
          (c := Cursor.start reference page) hleft' ?_ ?_ ?_
        · rw [hnone]
          exact htakes
        · rw [hnone]
          exact nofun
        · rw [List.append_nil, lastPage_append, lastPage_opened, hp, Option.some_or]

theorem Placed.next (h : Placed log ds r) {o : Outcome} (ht : Trace r.next more o) :
    Adds (log ++ more) ds o := by
  rw [ResultReader.next] at ht
  cases hfailure : r.failure with
  | some reason =>
    rw [hfailure] at ht
    obtain ⟨rfl, rfl⟩ := (Program.trace_done_iff _ o more).1 ht
    rw [List.append_nil]
    exact h
  | none =>
    rw [hfailure] at ht
    cases hcursor : r.cursor with
    | none =>
      simp only [hcursor] at ht
      exact adds_fetchPending r.pending o hcursor h.left ht
    | some c =>
      simp only [hcursor] at ht
      obtain ⟨page, hpage, hreads, hnamed⟩ := h.reads c hcursor
      obtain ⟨first, last, outcome, rfl, hfirst, hlast⟩ := (Program.trace_bind_iff _ _ more o).1 ht
      rcases outcome with e | ⟨_ | record, after⟩
      · obtain ⟨rfl, rfl⟩ := (Program.trace_done_iff _ o last).1 hlast
        exact placed_of_cursor_none h.left rfl
      · rw [← List.append_assoc]
        exact adds_fetchPending (r := r.leave after) r.pending o rfl h.left hlast
      · obtain ⟨rfl, rfl⟩ := (Program.trace_done_iff _ o last).1 hlast
        obtain ⟨p, hp, htakes⟩ := hreads.takes_of_trace_next hfirst
        refine adds_deliver h.left htakes hnamed ?_
        rw [List.append_nil, lastPage_append, hpage, hp]

theorem Placed.renew (h : Placed log ds r) : Placed log ds r.renewBudget where
  left := h.left
  reads := by
    intro c hc
    obtain ⟨d, hd, rfl⟩ := Option.map_eq_some_iff.1 hc
    obtain ⟨page, hpage, hreads, hfirst⟩ := h.reads d hd
    exact ⟨page, hpage, hreads.renew 0, hfirst⟩

end Placing

theorem Deliveries.placed {context : StreamContext} {references : List ResultReference}
    {log : List (Exchange services)} {ds : List Delivery} {r : ResultReader}
    (h : Deliveries context references log ds r) :
    Placed log ds r ∧ ∀ (n : Nat) (d : Delivery), ds[n]? = some d → d.Named (ds.take n) := by
  induction h with
  | start => exact ⟨⟨nofun, nofun⟩, fun n d hd => nomatch hd⟩
  | renewed log ds r h ih => exact ⟨ih.1.renew, ih.2⟩
  | other log more ds r r' answer h ht hother ih =>
    have hadds := ih.1.next ht
    rcases answer with e | (record | _)
    · exact ⟨hadds, ih.2⟩
    · exact absurd rfl (hother record)
    · exact ⟨hadds, ih.2⟩
  | row log more ds r r' page record h ht hpage ih =>
    obtain ⟨page', hpage', hplaced, hnamed⟩ := ih.1.next ht
    cases hpage.symm.trans hpage'
    refine ⟨hplaced, fun n d hd => ?_⟩
    rcases Nat.lt_or_ge n ds.length with hn | hn
    · rw [List.getElem?_append_left hn] at hd
      rw [List.take_append_of_le_length (Nat.le_of_lt hn)]
      exact ih.2 n d hd
    · obtain ⟨hlast, hsame⟩ := List.getElem?_eq_some_iff.1 hd
      have hlength : n = ds.length := by
        rw [List.length_append, List.length_singleton] at hlast
        omega
      subst hlength
      rw [List.getElem_concat_length rfl] at hsame
      rw [List.take_left, ← hsame]
      exact hnamed

/-- Every record has the fields of the row of its page that stands behind those delivered from the
same result before, and the header of the page that the first one of these was read from. So it has
the header of its own page exactly if the two pages have the same header. -/
theorem named_by_first_page (context : StreamContext) (references : List ResultReference)
    (log : List (Exchange services)) (ds : List Delivery) (r : ResultReader)
    (h : Deliveries context references log ds r) (n : Nat) (d : Delivery) (hd : ds[n]? = some d) :
    ∃ first header own fields,
      (fromResult d.left (ds.take (n + 1))).head? = some first ∧
      first.page.line? 0 = some header ∧ d.page.line? 0 = some own ∧
      d.page.line? (fromResult d.left (ds.take (n + 1))).length = some fields ∧
      d.record = .ofFields header fields ∧
      (d.record = .ofFields own fields ↔ own = header) := by
  obtain ⟨first, header, own, fields, hfirst, hheader, hown, hfields, hrecord⟩ := h.placed.2 n d hd
  have htake : ds.take (n + 1) = ds.take n ++ [d] := by
    rw [List.take_add_one, hd]
    rfl
  rw [htake]
  refine ⟨first, header, own, fields, hfirst, hheader, hown, hfields, hrecord, ?_, ?_⟩
  · intro hsame
    exact (congrArg Record.columns (hrecord.symm.trans hsame)).symm
  · rintro rfl
    exact hrecord

/-- A result breaks behind its first row, and the page opened then has the columns exchanged. -/
theorem deliveries_exchanged :
    ∃ log r, Deliveries ⟨"Account", "750", 5⟩ [⟨"b", "r"⟩] log
      [⟨0, .cut "Id,Name\na,b\n" 12 "dropped", .ofFields ["Id", "Name"] ["a", "b"]⟩,
        ⟨0, .whole "Name,Id\na,b\nc,d\n", .ofFields ["Id", "Name"] ["c", "d"]⟩] r := by
  let behind : Cursor :=
    ⟨⟨"b", "r"⟩, ⟨[], some "dropped"⟩, some ["Id", "Name"], 1, some ["a", "b"], 0⟩
  have hread : (Cursor.start ⟨"b", "r"⟩ (.cut "Id,Name\na,b\n" 12 "dropped")).read =
      .record (.ofFields ["Id", "Name"] ["a", "b"]) behind := by
    decide +kernel
  have hresume : behind.countReconnect.resume (.whole "Name,Id\na,b\nc,d\n") =
      .ready { behind.countReconnect with feed := ⟨[⟨⟨2, 3, 12⟩, [[99], [100]]⟩], none⟩ } := by
    decide +kernel
  have hnext := Cursor.trace_next_of_takeUp ⟨"Account", "750", 5⟩ behind "dropped"
    (.whole "Name,Id\na,b\nc,d\n") (.ok (some (.ofFields ["Id", "Name"] ["c", "d"]),
      ⟨⟨"b", "r"⟩, ⟨[], none⟩, some ["Id", "Name"], 2, some ["c", "d"], 1⟩))
    (by decide +kernel) (by decide)
    (Cursor.takeUp_of_ready _ _ _ _ _ _ _ hresume (by decide +kernel))
  have hfirst : Trace (start ⟨"Account", "750", 5⟩ [⟨"b", "r"⟩]).next
      (openings "750" ⟨"b", "r"⟩ [.cut "Id,Name\na,b\n" 12 "dropped"])
      (.ok (.row (.ofFields ["Id", "Name"] ["a", "b"])),
        ⟨⟨"Account", "750", 5⟩, [], some behind, some ["Id", "Name"], 1, none⟩) := by
    refine (Program.trace_ask_iff _ _ _ _).2
      ⟨(.ok (.cut "Id,Name\na,b\n" 12 "dropped") : Except ExtractError Page), [], rfl, ?_⟩
    simp only [Cursor.next, hread]
    exact .done _
  exact ⟨_, _, .row _ _ [_] _ _ _ _ (.row [] _ [] _ _ _ _ .start hfirst rfl)
    ((Program.trace_bind_iff _ _ _ _).2 ⟨_, [], _, rfl, hnext, .done _⟩) rfl⟩

/-- Not every row that is delivered has the header of its own page. -/
theorem row_named_by_other_page :
    ¬ ∀ (context : StreamContext) (references : List ResultReference)
        (log : List (Exchange services)) (ds : List Delivery) (r : ResultReader),
      Deliveries context references log ds r → ∀ d ∈ ds, ∃ own fields,
        d.page.line? 0 = some own ∧ d.record = .ofFields own fields := by
  intro hall
  obtain ⟨log, r, h⟩ := deliveries_exchanged
  obtain ⟨own, fields, hown, hrecord⟩ :=
    hall _ _ _ _ _ h _ (List.mem_cons_of_mem _ List.mem_cons_self)
  have hline : (Page.whole "Name,Id\na,b\nc,d\n").line? 0 = some ["Name", "Id"] := by
    decide +kernel
  cases hline.symm.trans hown
  have hcolumns : ["Id", "Name"] = ["Name", "Id"] := congrArg Record.columns hrecord
  exact absurd hcolumns (by decide)

/-- The second row of that result has the header of the first page. -/
theorem named_by_first_page_exchanged :
    ∃ log r, Deliveries ⟨"Account", "750", 5⟩ [⟨"b", "r"⟩] log
        [⟨0, .cut "Id,Name\na,b\n" 12 "dropped", .ofFields ["Id", "Name"] ["a", "b"]⟩,
          ⟨0, .whole "Name,Id\na,b\nc,d\n", .ofFields ["Id", "Name"] ["c", "d"]⟩] r ∧
      ∃ header own fields,
        (Page.cut "Id,Name\na,b\n" 12 "dropped").line? 0 = some header ∧
        (Page.whole "Name,Id\na,b\nc,d\n").line? 0 = some own ∧
        (Page.whole "Name,Id\na,b\nc,d\n").line? 2 = some fields ∧
        Record.ofFields ["Id", "Name"] ["c", "d"] = .ofFields header fields ∧ own ≠ header := by
  obtain ⟨log, r, h⟩ := deliveries_exchanged
  obtain ⟨first, header, own, fields, hfirst, hheader, hown, hfields, hrecord, -⟩ :=
    named_by_first_page _ _ log _ r h 1 _ rfl
  cases hfirst
  refine ⟨log, r, h, header, own, fields, hheader, hown, hfields, hrecord, ?_⟩
  rintro rfl
  exact absurd (hheader.trans hown.symm) (by decide +kernel)

end ResultReader

end Harvest
