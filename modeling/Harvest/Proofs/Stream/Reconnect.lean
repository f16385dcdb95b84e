import Harvest.Proofs.Stream.Replay

/-!
# Reading a result across reconnects

`Cursor.Reached` collects the cursors that reading a result can lead to when every open of it
gives a text, the texts being unrelated to each other and broken off anywhere. The main
statement, `Cursor.fetch_of_reached`, says that each fetch from such a cursor ends as the
rules of `Fetched` and `Replay` say: behind a break a row is delivered only where the page
that was opened repeats the rows delivered, and it is the row behind them.

The rules take a page that breaks right behind the byte-order mark for an ended one, so such
a break is not recovered from (`Cursor.mark_break_not_recovered`).
-/

namespace Harvest

open Program (Trace)

namespace Cursor

/-- `Reached ctx reference page rows c`: by reading the result to which `reference` points a
cursor `c` can be reached that has delivered the raw rows `rows` and reads `page`. -/
inductive Reached (ctx : StreamContext) (reference : ResultReference) :
    Page → List (List String) → Cursor → Prop
  | opened (page : Page) (hpage : page.IsText) :
    Reached ctx reference page [] (.start reference page)
  /-- The budget of reconnects is renewed. -/
  | renewed (page : Page) (rows : List (List String)) (c : Cursor)
      (h : Reached ctx reference page rows c) :
    Reached ctx reference page rows { c with reconnects := 0 }
  /-- A row is fetched while `pages` are opened; the last one of them is being read then. -/
  | fetched (page : Page) (rows : List (List String)) (c : Cursor)
      (h : Reached ctx reference page rows c) (pages : List Page)
      (hpages : ∀ p ∈ pages, p.IsText) (r : Record) (after : Cursor) (fields : List String)
      (ht : Trace (c.next ctx) (openings ctx.job reference pages) (.ok (some r, after)))
      (hlast : after.lastRow = some fields) :
    Reached ctx reference (pages.getLastD page) (rows ++ [fields]) after

end Cursor

/-- The outcome of a fetch that a reading stands for; behind a row its page is being read. -/
def Reading.Answers (ctx : StreamContext) (reference : ResultReference)
    (rows : List (List String)) (outcome : Cursor.Outcome) : Reading → Prop
  | .row page header fields =>
    ∃ after, outcome = .ok (some (.ofFields header fields), after) ∧
      Cursor.Reached ctx reference page (rows ++ [fields]) after
  | .exhausted => ∃ after, outcome = .ok (none, after)
  | .failed e => outcome = .error e

theorem openings_injective {job : String} {reference : ResultReference} {xs ys : List Page}
    (h : openings job reference xs = openings job reference ys) : xs = ys := by
  refine (List.map_inj_right ?_).1 h
  intro p q hpq
  cases hpq
  rfl

/-- The row that a recovery ends with is read from the page opened last. -/
theorem Replay.getLast?_of_row {ctx : StreamContext} {reference : ResultReference}
    {header : List String} {rows : List (List String)} {attempts : Nat} {fault : String}
    {pages : List Page} {reading : Reading}
    (h : Replay ctx reference header rows attempts fault pages reading) (page : Page)
    (header' fields : List String) (hrow : reading = .row page header' fields) :
    pages.getLast? = some page := by
  induction h with
  | spent => cases hrow
  | short => cases hrow
  | different => cases hrow
  | exhausted => cases hrow
  | row =>
    cases hrow
    rfl
  | interrupted attempts fault p pages reading hroom hbreak hshort h ih =>
    rw [List.getLast?_cons, ih hrow]
    rfl
  | broken attempts fault newFault p pages reading hroom hsame hbreak hlength hfault h ih =>
    rw [List.getLast?_cons, ih hrow]
    rfl

theorem Fetched.getLastD_of_row {ctx : StreamContext} {reference : ResultReference}
    {page p : Page} {header header' fields : List String} {rows : List (List String)}
    {attempts : Nat} {pages : List Page}
    (h : Fetched ctx reference page header rows attempts pages (.row p header' fields)) :
    pages.getLastD page = p := by
  cases h with
  | row => rfl
  | broken fault _ _ hbreak hlength hfault h =>
    rw [List.getLastD_eq_getLast?, h.getLast?_of_row p header' fields rfl]
    rfl

namespace Cursor

variable {ctx : StreamContext} {reference : ResultReference} {page : Page}
  {rows : List (List String)} {c : Cursor}

theorem Behind.header_getD {header : List String} (h : c.Behind page header rows) :
    c.Behind page (c.header.getD []) rows := by
  by_cases hrows : rows = []
  · exact ⟨⟨h.delivered, h.lastRow, fun hne => absurd hrows hne⟩, h.broken, h.fresh, h.rest⟩
  · rw [h.header hrows]
    exact h

/-- A cursor that was reached stands behind the rows delivered of the page being read. -/
theorem Reached.behind (h : Reached ctx reference page rows c) :
    c.Behind page (c.header.getD []) rows ∧ c.reference = reference := by
  induction h with
  | opened page hpage =>
    obtain ⟨content, hcontent⟩ := hpage
    exact ⟨behind_start reference page content _ hcontent, rfl⟩
  | renewed page rows c h ih => exact ⟨ih.1.renew 0, ih.2⟩
  | fetched page rows c h pages hpages r after fields ht hlast ih =>
    obtain ⟨hbehind, rfl⟩ := ih
    obtain ⟨pages', reading, heq, -, hfetched, hdescribes⟩ :=
      trace_next (fun _ p => p.IsText) (fun _ _ hp => hp) ctx _ rows c page hbehind _ _ ht
        (serving_openings _ _ _ _ hpages)
    obtain rfl := openings_injective heq
    cases reading with
    | exhausted => exact hdescribes.elim
    | failed e => exact hdescribes.elim
    | row p header' fields' =>
      obtain ⟨-, hafter, href⟩ := hdescribes
      have hfields : fields = fields' := by
        have hrow := hafter.lastRow
        rw [hlast] at hrow
        simpa using hrow
      rw [hfields, hfetched.getLastD_of_row]
      exact ⟨hafter.header_getD, href⟩

/-- Every fetch from a cursor that was reached, whatever texts are served from then on, ends
as the rules say. -/
theorem fetch_of_reached (ctx : StreamContext) (reference : ResultReference) (page : Page)
    (rows : List (List String)) (c : Cursor) (hc : Reached ctx reference page rows c)
    (log : List (Program.Exchange services)) (outcome : Outcome)
    (ht : Trace (c.next ctx) log outcome) (hlog : Serving (fun _ p => p.IsText) log) :
    ∃ pages reading, log = openings ctx.job reference pages ∧
      Fetched ctx reference page (c.header.getD []) rows c.reconnects pages reading ∧
      reading.Answers ctx reference rows outcome := by
  obtain ⟨hbehind, rfl⟩ := hc.behind
  obtain ⟨pages, reading, rfl, hpages, hfetched, hdescribes⟩ :=
    trace_next (fun _ p => p.IsText) (fun _ _ hp => hp) ctx _ rows c page hbehind log outcome
      ht hlog
  refine ⟨pages, reading, rfl, hfetched, ?_⟩
  cases reading with
  | exhausted =>
    rcases outcome with e | ⟨_ | r, after⟩
    · exact hdescribes.elim
    · exact ⟨after, rfl⟩
    · exact hdescribes.elim
  | failed e =>
    rcases outcome with e' | ⟨_ | r, after⟩
    · exact congrArg Except.error hdescribes
    · exact hdescribes.elim
    · exact hdescribes.elim
  | row p header fields =>
    rcases outcome with e | ⟨_ | r, after⟩
    · exact hdescribes.elim
    · exact hdescribes.elim
    · obtain ⟨rfl, hafter, -⟩ := hdescribes
      refine ⟨after, rfl, ?_⟩
      have hlast : after.lastRow = some fields := by simpa using hafter.lastRow
      have hreached := Reached.fetched page rows c hc pages hpages _ after fields ht hlast
      rwa [hfetched.getLastD_of_row] at hreached

theorem reached_behind_cut (ctx : StreamContext) (reference : ResultReference)
    (content : String) (n : Nat) (c : Cursor)
    (hread : (start reference (.cut content n "dropped")).read =
      .record (.ofFields ["A"] ["1"]) c) (hlast : c.lastRow = some ["1"]) :
    Reached ctx reference (.cut content n "dropped") [["1"]] c := by
  have hpage : (Page.cut content n "dropped").IsText := ⟨content, .inr ⟨n, "dropped", rfl⟩⟩
  refine .fetched _ [] _ (.opened _ hpage) [] (by simp) (.ofFields ["A"] ["1"]) c ["1"] ?_ hlast
  rw [next, hread]
  exact .done _

/-- A result of two rows whose stream breaks between them: the page opened then is passed
through the first one, and the second one is delivered. -/
theorem fetch_after_reconnect :
    ∃ c after,
      Reached ⟨"Account", "750", 1⟩ ⟨"b", "r"⟩ (.cut "A\n1\n2\n" 4 "dropped") [["1"]] c ∧
      Trace (c.next ⟨"Account", "750", 1⟩) (openings "750" ⟨"b", "r"⟩ [.whole "A\n1\n2\n"])
        (.ok (some (.ofFields ["A"] ["2"]), after)) ∧
      Serving (fun _ p => p.IsText) (openings "750" ⟨"b", "r"⟩ [.whole "A\n1\n2\n"]) ∧
      ∃ pages reading,
        openings "750" ⟨"b", "r"⟩ [.whole "A\n1\n2\n"] = openings "750" ⟨"b", "r"⟩ pages ∧
        Fetched ⟨"Account", "750", 1⟩ ⟨"b", "r"⟩ (.cut "A\n1\n2\n" 4 "dropped")
          (c.header.getD []) [["1"]] c.reconnects pages reading ∧
        reading.Answers ⟨"Account", "750", 1⟩ ⟨"b", "r"⟩ [["1"]]
          (.ok (some (.ofFields ["A"] ["2"]), after)) := by
  have hreached := reached_behind_cut ⟨"Account", "750", 1⟩ ⟨"b", "r"⟩ "A\n1\n2\n" 4
    ⟨⟨"b", "r"⟩, ⟨[], some "dropped"⟩, some ["A"], 1, some ["1"], 0⟩ (by decide +kernel) rfl
  have hresume : (Cursor.mk ⟨"b", "r"⟩ ⟨[], some "dropped"⟩ (some ["A"]) 1 (some ["1"]) 1).resume
      (.whole "A\n1\n2\n") =
      .ready ⟨⟨"b", "r"⟩, ⟨[⟨⟨2, 3, 4⟩, [[50]]⟩], none⟩, some ["A"], 1, some ["1"], 1⟩ := by
    decide +kernel
  have htrace := trace_next_of_takeUp ⟨"Account", "750", 1⟩
    ⟨⟨"b", "r"⟩, ⟨[], some "dropped"⟩, some ["A"], 1, some ["1"], 0⟩ "dropped"
    (.whole "A\n1\n2\n") (.ok (some (.ofFields ["A"] ["2"]),
      ⟨⟨"b", "r"⟩, ⟨[], none⟩, some ["A"], 2, some ["2"], 1⟩)) (by decide +kernel) (by decide)
    (takeUp_of_ready _ _ _ _ _ _ _ hresume (by decide +kernel))
  have hserving := serving_openings (fun _ p => p.IsText) "750" ⟨"b", "r"⟩
    [.whole "A\n1\n2\n"] (by simpa using ⟨"A\n1\n2\n", .inl rfl⟩)
  exact ⟨_, _, hreached, htrace, hserving,
    fetch_of_reached _ _ _ _ _ hreached _ _ htrace hserving⟩

/-- A page that breaks right behind the byte-order mark, and so before the row delivered, is
not followed by another open, although the budget has room: the fetch fails as if the page
had ended without a row. -/
theorem mark_break_not_recovered :
    ∃ c, Reached ⟨"Account", "750", 5⟩ ⟨"b", "r"⟩ (.cut "\uFEFFA\n1\n2\n" 7 "dropped")
        [["1"]] c ∧
      c.reconnects < 5 ∧ (Page.cut "\uFEFFA\n1\n2\n" 3 "dropped").data.length < 1 ∧
      Trace (c.next ⟨"Account", "750", 5⟩)
        (openings "750" ⟨"b", "r"⟩ [.cut "\uFEFFA\n1\n2\n" 3 "dropped"])
        (.error (.repositionMismatch "Account" "750" ⟨"b", "r"⟩ 0)) := by
  refine ⟨⟨⟨"b", "r"⟩, ⟨[], some "dropped"⟩, some ["A"], 1, some ["1"], 0⟩, ?_, by decide,
    by decide +kernel, ?_⟩
  · exact reached_behind_cut _ _ _ _ _ (by decide +kernel) rfl
  · have hresume : (Cursor.mk ⟨"b", "r"⟩ ⟨[], some "dropped"⟩ (some ["A"]) 1 (some ["1"])
        1).resume (.cut "\uFEFFA\n1\n2\n" 3 "dropped") = .mismatch 0 := by
      decide +kernel
    exact trace_next_of_takeUp ⟨"Account", "750", 5⟩ _ "dropped" _ _ (by decide +kernel)
      (by decide) (takeUp_of_mismatch _ _ _ _ _ hresume)

end Cursor

end Harvest
