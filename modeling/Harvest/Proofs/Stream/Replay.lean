import Harvest.Proofs.Stream.Position

/-!
# Taking a result up again

`Replay` lists what can come of a result whose stream broke, rule by rule, in terms of the
rows delivered before and of the pages that are served next; no rule speaks of a cursor. A
page is gone on with only if it repeats the rows delivered: it can be read through as many
rows and the last one of them is the row delivered last.

The main lemma is `Cursor.trace_next`: whatever texts are served, every fetch ends as the
rules say. It rests on two facts about a cursor, that it knows what it has delivered
(`Cursor.Recalls`) and that its feed stands behind as many rows of the page being read
(`Cursor.Behind`); the second implies the first and is what every fetched row restores.
-/

namespace Harvest

/-- The page can be read through as many rows as were delivered, and the last one of them is
the row delivered last. -/
def Page.Repeats (p : Page) (rows : List (List String)) : Prop :=
  rows.length ≤ p.data.length ∧ (p.data.take rows.length).getLast? = rows.getLast?

/-- What comes of a fetch: a raw row with the page and the header it is read under, the end of
the result, or an error. -/
inductive Reading
  | row (page : Page) (header fields : List String)
  | exhausted
  | failed (e : ExtractError)

/-- What comes of a result of which `rows` were delivered under `header` when its stream
breaks with a fault, so many reconnects having been counted before. The pages are those
served from then on. -/
inductive Replay (ctx : StreamContext) (reference : ResultReference) (header : List String)
    (rows : List (List String)) : (attempts : Nat) → (fault : String) → List Page → Reading → Prop
  /-- The budget is spent; the fault that began the recovery is told. -/
  | spent (attempts : Nat) (fault : String) (h : ctx.retryLimit ≤ attempts) :
    Replay ctx reference header rows attempts fault []
      (.failed (.transientStream ctx.entity ctx.job reference attempts fault))
  /-- The page breaks before the last row delivered is complete. -/
  | interrupted (attempts : Nat) (fault : String) (page : Page) (pages : List Page)
      (reading : Reading) (hroom : attempts < ctx.retryLimit) (hbreak : ¬ page.Ends)
      (hshort : page.data.length < rows.length)
      (h : Replay ctx reference header rows (attempts + 1) fault pages reading) :
    Replay ctx reference header rows attempts fault (page :: pages) reading
  /-- The page ends before the last row delivered. -/
  | short (attempts : Nat) (fault : String) (page : Page) (hroom : attempts < ctx.retryLimit)
      (hends : page.Ends) (hshort : page.data.length < rows.length) :
    Replay ctx reference header rows attempts fault [page]
      (.failed (.repositionMismatch ctx.entity ctx.job reference page.data.length))
  /-- Another row stands where the last row delivered should. -/
  | different (attempts : Nat) (fault : String) (page : Page)
      (hroom : attempts < ctx.retryLimit) (hlong : rows.length ≤ page.data.length)
      (hother : ¬ page.Repeats rows) :
    Replay ctx reference header rows attempts fault [page]
      (.failed (.repositionMismatch ctx.entity ctx.job reference rows.length))
  /-- The page goes on with another row. -/
  | row (attempts : Nat) (fault : String) (page : Page) (fields : List String)
      (hroom : attempts < ctx.retryLimit) (hsame : page.Repeats rows)
      (hrow : page.data[rows.length]? = some fields) :
    Replay ctx reference header rows attempts fault [page]
      (.row page (page.headerAfter header rows) fields)
  /-- The page ends behind the last row delivered. -/
  | exhausted (attempts : Nat) (fault : String) (page : Page)
      (hroom : attempts < ctx.retryLimit) (hsame : page.Repeats rows) (hends : page.Ends)
      (hlength : page.data.length = rows.length) :
    Replay ctx reference header rows attempts fault [page] .exhausted
  /-- The page breaks behind the last row delivered. -/
  | broken (attempts : Nat) (fault newFault : String) (page : Page) (pages : List Page)
      (reading : Reading) (hroom : attempts < ctx.retryLimit) (hsame : page.Repeats rows)
      (hbreak : ¬ page.Ends) (hlength : page.data.length = rows.length)
      (hfault : page.broken = some newFault)
      (h : Replay ctx reference header rows (attempts + 1) newFault pages reading) :
    Replay ctx reference header rows attempts fault (page :: pages) reading

/-- What comes of a fetch where `page` is being read and `rows` were delivered. -/
inductive Fetched (ctx : StreamContext) (reference : ResultReference) (page : Page)
    (header : List String) (rows : List (List String)) (attempts : Nat) :
    List Page → Reading → Prop
  | row (fields : List String) (hrow : page.data[rows.length]? = some fields) :
    Fetched ctx reference page header rows attempts []
      (.row page (page.headerAfter header rows) fields)
  | exhausted (hends : page.Ends) (hlength : page.data.length = rows.length) :
    Fetched ctx reference page header rows attempts [] .exhausted
  | broken (fault : String) (pages : List Page) (reading : Reading) (hbreak : ¬ page.Ends)
      (hlength : page.data.length = rows.length) (hfault : page.broken = some fault)
      (h : Replay ctx reference header rows attempts fault pages reading) :
    Fetched ctx reference page header rows attempts pages reading

/-- Every stream that was opened gives a page of which `P` holds. -/
def Serving (P : ResultReference → Page → Prop) (log : List (Program.Exchange services)) :
    Prop :=
  ∀ job reference (reply : Except ExtractError Page),
    (⟨.openResult job reference, reply⟩ : Program.Exchange services) ∈ log →
      ∃ page, reply = .ok page ∧ P reference page

/-- The exchanges that open a result again and again. -/
def openings (job : String) (reference : ResultReference) (pages : List Page) :
    List (Program.Exchange services) :=
  pages.map fun page => ⟨.openResult job reference, .ok page⟩

theorem mem_openings (job : String) (reference : ResultReference) (pages : List Page)
    (x : Program.Exchange services) :
    x ∈ openings job reference pages ↔
      ∃ page ∈ pages, x = ⟨.openResult job reference, .ok page⟩ := by
  simp only [openings, List.mem_map, eq_comm]

theorem serving_openings (P : ResultReference → Page → Prop) (job : String)
    (reference : ResultReference) (pages : List Page) (h : ∀ page ∈ pages, P reference page) :
    Serving P (openings job reference pages) := by
  intro job' reference' reply hmem
  obtain ⟨page, hpage, heq⟩ := (mem_openings job reference pages _).1 hmem
  cases heq
  exact ⟨page, rfl, h page hpage⟩

namespace Page

theorem repeats_nil (p : Page) : p.Repeats [] := by simp [Repeats]

/-- A page that repeats the rows is either behind them or has another one. -/
theorem Repeats.length_or_row {p : Page} {rows : List (List String)} (h : p.Repeats rows) :
    p.data.length = rows.length ∨ ∃ fields, p.data[rows.length]? = some fields := by
  rcases Nat.eq_or_lt_of_le h.1 with heq | hlt
  · exact .inl heq.symm
  · exact .inr ⟨p.data[rows.length], List.getElem?_eq_getElem hlt⟩

end Page

namespace Cursor

section Resuming

variable {c : Cursor} {page : Page} {content : String} {header : List String}
  {rows : List (List String)}

theorem Recalls.delivered_ne_zero (h : c.Recalls header rows) (hrows : rows ≠ []) :
    c.delivered ≠ 0 := by
  rw [h.delivered]
  exact fun hzero => hrows (List.length_eq_zero_iff.1 hzero)

theorem resume_of_short (h : c.Recalls header rows) (hpage : page.Serves content)
    (hshort : page.data.length < rows.length) :
    c.resume page = match page.feed.broken with
      | none => .mismatch page.data.length
      | some fault => .broken fault := by
  have hrows : rows ≠ [] := by
    rintro rfl
    simp at hshort
  have hholds := hpage.holds_feed
  rw [resume, if_neg (h.delivered_ne_zero hrows)]
  cases htable : page.table with
  | nil =>
    have hdata : page.data = [] := by simp [Page.data, htable]
    rw [htable] at hholds
    rw [Feed.next_of_holds_nil _ hholds, hdata]
    cases page.feed.broken <;> rfl
  | cons first data =>
    have hdata : page.data = data := by simp [Page.data, htable]
    rw [htable] at hholds
    rw [hdata] at hshort ⊢
    obtain ⟨rest, hnext, hrest, hbroken⟩ := Feed.next_of_holds_cons _ first data hholds
    have hskip := (Feed.skip_of_holds c.delivered 0 first rest data hrest).2
      (by rw [h.delivered]; exact hshort)
    rw [hbroken, Nat.zero_add] at hskip
    rw [hnext]
    simp only [hskip]
    cases page.feed.broken <;> rfl

/-- A page that has as many rows as were delivered is gone on with if the last one of them is
the row delivered last, and refused otherwise. -/
theorem resume_of_long (h : c.Recalls header rows) (hpage : page.Serves content)
    (hrows : rows ≠ []) (hlong : rows.length ≤ page.data.length) :
    (page.Repeats rows → ∃ after, c.resume page = .ready after ∧
      after.Behind page header rows ∧ c.SameCount after) ∧
    (¬ page.Repeats rows → c.resume page = .mismatch rows.length) := by
  have hpos : 0 < rows.length := List.length_pos_iff.2 hrows
  have hholds := hpage.holds_feed
  cases htable : page.table with
  | nil => simp [Page.data, htable] at hlong; exact absurd hlong hrows
  | cons first data =>
    have hdata : page.data = data := by simp [Page.data, htable]
    rw [htable] at hholds
    obtain ⟨rest, hnext, hrest, hbroken⟩ := Feed.next_of_holds_cons _ first data hholds
    obtain ⟨behind, hskip, hbehind, hkept⟩ :=
      (Feed.skip_of_holds c.delivered 0 first rest data hrest).1
        (by rw [h.delivered, ← hdata]; exact hlong)
    have htake : data.take rows.length ≠ [] := by
      rw [← hdata]
      exact List.ne_nil_of_length_pos (by rw [List.length_take]; omega)
    have hlast : some ((first :: data.take c.delivered).getLast (by simp)) =
        (page.data.take rows.length).getLast? := by
      simp only [h.delivered, hdata]
      rw [List.getLast_cons htake, List.getLast?_eq_some_getLast htake]
    have hresume : c.resume page =
        if (page.data.take rows.length).getLast? = rows.getLast? then
          .ready { c with feed := behind } else .mismatch rows.length := by
      rw [resume, if_neg (h.delivered_ne_zero hrows), hnext]
      simp only [hskip]
      rw [hlast, h.lastRow, h.delivered]
      by_cases heq : (page.data.take rows.length).getLast? = rows.getLast?
      · rw [if_pos heq, if_pos heq.symm]
      · rw [if_neg heq, if_neg (Ne.symm heq)]
    constructor
    · intro hsame
      refine ⟨{ c with feed := behind }, by rw [hresume, if_pos hsame.2], ?_, rfl, rfl⟩
      refine ⟨⟨h.delivered, h.lastRow, h.header⟩, hkept.trans hbroken,
        fun hnil => absurd hnil hrows, fun _ => ⟨hlong, ?_⟩⟩
      rw [hdata, ← h.delivered]
      exact hbehind
    · intro hother
      rw [hresume, if_neg fun heq => hother ⟨hlong, heq⟩]

theorem resume_of_repeats (h : c.Recalls header rows) (hpage : page.Serves content)
    (hsame : page.Repeats rows) :
    ∃ after, c.resume page = .ready after ∧ after.Behind page header rows ∧
      c.SameCount after := by
  by_cases hrows : rows = []
  · subst hrows
    exact ⟨_, resume_of_delivered_zero c page h.delivered,
      ⟨⟨h.delivered, h.lastRow, fun hne => absurd rfl hne⟩, rfl,
        fun _ => ⟨rfl, hpage.holds_feed⟩, fun hne => absurd rfl hne⟩, rfl, rfl⟩
  · exact (resume_of_long h hpage hrows hsame.1).1 hsame

theorem resume_of_other (h : c.Recalls header rows) (hpage : page.Serves content)
    (hlong : rows.length ≤ page.data.length) (hother : ¬ page.Repeats rows) :
    c.resume page = .mismatch rows.length := by
  have hrows : rows ≠ [] := by
    rintro rfl
    exact hother page.repeats_nil
  exact (resume_of_long h hpage hrows hlong).2 hother

end Resuming

end Cursor

/-- An outcome of a fetch is what a reading says; behind a row the cursor stands behind it. -/
def Reading.Describes (reference : ResultReference) (rows : List (List String)) :
    Reading → Cursor.Outcome → Prop
  | .row page header fields, .ok (some r, c) =>
    r = .ofFields header fields ∧ c.Behind page header (rows ++ [fields]) ∧
      c.reference = reference
  | .exhausted, .ok (none, _) => True
  | .failed e, .error e' => e' = e
  | _, _ => False

namespace Cursor

/-- What a page is worth to the cursor that takes it up follows the rules: it settles the
fetch as one of them says, or the recovery goes on from what the cursor recalls. -/
def Recovery.Follows (ctx : StreamContext) (c : Cursor) (page : Page) (fault : String)
    (header : List String) (rows : List (List String)) : Recovery → Prop
  | .settled outcome => ∃ reading, reading.Describes c.reference rows outcome ∧
      ∀ attempts < ctx.retryLimit,
        Replay ctx c.reference header rows attempts fault [page] reading
  | .again newFault after => after.Recalls header rows ∧ c.SameCount after ∧
      ∀ attempts < ctx.retryLimit, ∀ pages reading,
        Replay ctx c.reference header rows (attempts + 1) newFault pages reading →
          Replay ctx c.reference header rows attempts fault (page :: pages) reading

section Taking

variable {ctx : StreamContext} {c : Cursor} {page : Page} {content fault : String}
  {header : List String} {rows : List (List String)}

theorem takeUp_follows_of_short (h : c.Recalls header rows) (hpage : page.Serves content)
    (hshort : page.data.length < rows.length) :
    (takeUp ctx c fault page).Follows ctx c page fault header rows := by
  have hresume := resume_of_short h hpage hshort
  by_cases hends : page.Ends
  · rw [(Page.broken_feed_eq_none_iff page).2 hends] at hresume
    rw [takeUp, hresume]
    exact ⟨.failed _, rfl, fun attempts hroom => .short attempts fault page hroom hends hshort⟩
  · obtain ⟨pageFault, -, hfeed⟩ := page.broken_feed_of_not_ends hends
    rw [hfeed] at hresume
    rw [takeUp, hresume]
    exact ⟨h, ⟨rfl, rfl⟩, fun attempts hroom pages reading hreplay =>
      .interrupted attempts fault page pages reading hroom hends hshort hreplay⟩

theorem takeUp_follows_of_other (h : c.Recalls header rows) (hpage : page.Serves content)
    (hlong : rows.length ≤ page.data.length) (hother : ¬ page.Repeats rows) :
    (takeUp ctx c fault page).Follows ctx c page fault header rows := by
  rw [takeUp, resume_of_other h hpage hlong hother]
  exact ⟨.failed _, rfl, fun attempts hroom => .different attempts fault page hroom hlong hother⟩

theorem takeUp_follows_of_repeats (h : c.Recalls header rows) (hpage : page.Serves content)
    (hsame : page.Repeats rows) :
    (takeUp ctx c fault page).Follows ctx c page fault header rows := by
  obtain ⟨resumed, hresume, hbehind, hcounted⟩ := resume_of_repeats h hpage hsame
  rw [takeUp, hresume]
  simp only
  rcases hsame.length_or_row with hlength | ⟨fields, hrow⟩
  · obtain ⟨after, hread, hafter, hcounted'⟩ :=
      read_of_behind_end resumed page header rows hbehind (Nat.le_of_eq hlength)
    by_cases hends : page.Ends
    · rw [(Page.broken_feed_eq_none_iff page).2 hends] at hread
      rw [hread]
      exact ⟨.exhausted, trivial, fun attempts hroom =>
        .exhausted attempts fault page hroom hsame hends hlength⟩
    · obtain ⟨pageFault, hfault, hfeed⟩ := page.broken_feed_of_not_ends hends
      rw [hfeed] at hread
      rw [hread]
      exact ⟨hafter, ⟨hcounted'.1.trans hcounted.1, hcounted'.2.trans hcounted.2⟩,
        fun attempts hroom pages reading hreplay => .broken attempts fault pageFault page pages
          reading hroom hsame hends hlength hfault hreplay⟩
  · obtain ⟨after, hread, hafter, hcounted'⟩ :=
      read_of_behind_row resumed page header fields rows hbehind hrow
    rw [hread]
    exact ⟨.row page _ fields, ⟨rfl, hafter, hcounted'.1.trans hcounted.1⟩,
      fun attempts hroom => .row attempts fault page fields hroom hsame hrow⟩

theorem takeUp_follows (h : c.Recalls header rows) (hpage : page.Serves content) :
    (takeUp ctx c fault page).Follows ctx c page fault header rows := by
  by_cases hshort : page.data.length < rows.length
  · exact takeUp_follows_of_short h hpage hshort
  · by_cases hsame : page.Repeats rows
    · exact takeUp_follows_of_repeats h hpage hsame
    · exact takeUp_follows_of_other h hpage (Nat.le_of_not_lt hshort) hsame

end Taking

section Runs

variable (P : ResultReference → Page → Prop)
  (hP : ∀ reference page, P reference page → page.IsText) (ctx : StreamContext)
  (header : List String) (rows : List (List String))

include hP

/-- A recovery from texts ends as the rules say. -/
theorem trace_recover (budget : Nat) (fault : String) (c : Cursor) (h : c.Recalls header rows)
    (hbudget : budget = ctx.retryLimit - c.reconnects)
    (log : List (Program.Exchange services)) (outcome : Outcome)
    (ht : Program.Trace (recover ctx budget fault c) log outcome) (hlog : Serving P log) :
    ∃ pages reading, log = openings ctx.job c.reference pages ∧
      (∀ page ∈ pages, P c.reference page) ∧
      Replay ctx c.reference header rows c.reconnects fault pages reading ∧
      reading.Describes c.reference rows outcome := by
  -- Only a page that breaks again goes on, and the cursor still recalls the same rows then.
  induction budget generalizing fault c log with
  | zero =>
    obtain ⟨rfl, rfl⟩ := (Program.trace_done_iff _ outcome log).1 ht
    exact ⟨[], _, rfl, by simp, .spent c.reconnects fault (by omega), rfl⟩
  | succ budget ih =>
    obtain ⟨reply, rest, rfl, hrest⟩ := (Program.trace_ask_iff _ _ log outcome).1 ht
    obtain ⟨page, hreply, hpage⟩ := hlog ctx.job c.reference reply List.mem_cons_self
    subst hreply
    obtain ⟨content, hcontent⟩ := hP c.reference page hpage
    have hroom : c.reconnects < ctx.retryLimit := by omega
    have hcount : c.countReconnect.Recalls header rows := ⟨h.delivered, h.lastRow, h.header⟩
    have hfollows : (takeUp ctx c.countReconnect fault page).Follows ctx c.countReconnect page
        fault header rows := takeUp_follows hcount hcontent
    simp only at hrest
    cases htake : takeUp ctx c.countReconnect fault page with
    | settled settled =>
      rw [htake] at hrest hfollows
      obtain ⟨rfl, rfl⟩ := (Program.trace_done_iff settled outcome rest).1 hrest
      obtain ⟨reading, hdescribes, hrule⟩ := hfollows
      exact ⟨[page], reading, rfl, by simpa using hpage, hrule c.reconnects hroom, hdescribes⟩
    | again newFault after =>
      rw [htake] at hrest hfollows
      obtain ⟨hafter, ⟨href, hreconnects⟩, hrule⟩ := hfollows
      replace href : after.reference = c.reference := href
      replace hreconnects : after.reconnects = c.reconnects + 1 := hreconnects
      obtain ⟨pages, reading, rfl, hpages, hreplay, hdescribes⟩ :=
        ih newFault after hafter (by omega) rest hrest fun job reference reply hmem =>
          hlog job reference reply (List.mem_cons_of_mem _ hmem)
      rw [href] at hpages hdescribes
      rw [href, hreconnects] at hreplay
      exact ⟨page :: pages, reading, by rw [href]; rfl, List.forall_mem_cons.2 ⟨hpage, hpages⟩,
        hrule c.reconnects hroom pages reading hreplay, hdescribes⟩

/-- Every fetch ends as the rules say, whatever texts are served. -/
theorem trace_next (c : Cursor) (page : Page) (h : c.Behind page header rows)
    (log : List (Program.Exchange services)) (outcome : Outcome)
    (ht : Program.Trace (next ctx c) log outcome) (hlog : Serving P log) :
    ∃ pages reading, log = openings ctx.job c.reference pages ∧
      (∀ page ∈ pages, P c.reference page) ∧
      Fetched ctx c.reference page header rows c.reconnects pages reading ∧
      reading.Describes c.reference rows outcome := by
  by_cases hrow : page.data.length ≤ rows.length
  · have hlength : page.data.length = rows.length := by
      by_cases hrows : rows = []
      · simpa [hrows] using hrow
      · exact Nat.le_antisymm hrow (h.rest hrows).1
    obtain ⟨after, hread, hafter, href, hreconnects⟩ :=
      read_of_behind_end c page header rows h hrow
    by_cases hends : page.Ends
    · rw [(Page.broken_feed_eq_none_iff page).2 hends] at hread
      rw [next, hread] at ht
      obtain ⟨rfl, rfl⟩ := (Program.trace_done_iff _ outcome log).1 ht
      exact ⟨[], .exhausted, rfl, by simp, .exhausted hends hlength, trivial⟩
    · obtain ⟨fault, hfault, hfeed⟩ := page.broken_feed_of_not_ends hends
      rw [hfeed] at hread
      rw [next, hread] at ht
      obtain ⟨pages, reading, rfl, hpages, hreplay, hdescribes⟩ :=
        trace_recover P hP ctx header rows _ fault after hafter rfl log outcome ht hlog
      rw [href] at hpages hdescribes
      rw [href, hreconnects] at hreplay
      exact ⟨pages, reading, by rw [href], hpages,
        .broken fault pages reading hends hlength hfault hreplay, hdescribes⟩
  · obtain ⟨fields, hfields⟩ : ∃ fields, page.data[rows.length]? = some fields :=
      ⟨_, List.getElem?_eq_getElem (Nat.lt_of_not_le hrow)⟩
    obtain ⟨after, hread, hafter, href, -⟩ :=
      read_of_behind_row c page header fields rows h hfields
    rw [next, hread] at ht
    obtain ⟨rfl, rfl⟩ := (Program.trace_done_iff _ outcome log).1 ht
    exact ⟨[], _, rfl, by simp, .row fields hfields, rfl, hafter, href⟩

end Runs

theorem takeUp_of_ready (ctx : StreamContext) (c resumed after : Cursor) (fault : String)
    (page : Page) (r : Record) (hresume : c.resume page = .ready resumed)
    (hread : resumed.read = .record r after) :
    takeUp ctx c fault page = .settled (.ok (some r, after)) := by
  rw [takeUp, hresume]
  simp only [hread]

theorem takeUp_of_mismatch (ctx : StreamContext) (c : Cursor) (fault : String) (page : Page)
    (skipped : Nat) (h : c.resume page = .mismatch skipped) :
    takeUp ctx c fault page =
      .settled (.error (.repositionMismatch ctx.entity ctx.job c.reference skipped)) := by
  rw [takeUp, h]

/-- One page opened again settles a fetch. -/
theorem trace_next_of_takeUp (ctx : StreamContext) (c : Cursor) (fault : String) (page : Page)
    (outcome : Outcome) (hread : c.read = .broken fault c) (hroom : c.reconnects < ctx.retryLimit)
    (htake : takeUp ctx c.countReconnect fault page = .settled outcome) :
    Program.Trace (c.next ctx) (openings ctx.job c.reference [page]) outcome := by
  obtain ⟨budget, hbudget⟩ := Nat.exists_eq_succ_of_ne_zero (Nat.sub_ne_zero_of_lt hroom)
  rw [next, hread]
  simp only [hbudget]
  refine (Program.trace_ask_iff _ _ _ _).2 ⟨(.ok page : Except ExtractError Page), [], rfl, ?_⟩
  simp only [htake]
  exact .done _

end Cursor

end Harvest
