import Harvest.Proofs.Stream.Page
import Harvest.Stream.Cursor

/-!
# Where a cursor stands

A cursor knows what it has delivered: how many rows, the last of them and their header
(`Cursor.Recalls`). Between two fetches it also stands behind as many rows of the page being
read (`Cursor.Behind`). From there reading gives the next row of the page if it has one
(`Cursor.read_of_behind_row`), and else meets the end or the break of the page
(`Cursor.read_of_behind_end`).
-/

namespace Harvest

/-- The header under which the page is read on: its own one where nothing was delivered. -/
def Page.headerAfter (p : Page) (header : List String) (rows : List (List String)) :
    List String :=
  if rows = [] then p.header else header

namespace Cursor

/-- The cursor knows the rows delivered: their number, the last one, and their header. -/
structure Recalls (c : Cursor) (header : List String) (rows : List (List String)) : Prop where
  delivered : c.delivered = rows.length
  lastRow : c.lastRow = rows.getLast?
  header : rows ≠ [] → c.header = some header

/-- The cursor stands behind as many rows of the page as were delivered. -/
structure Behind (c : Cursor) (page : Page) (header : List String)
    (rows : List (List String)) : Prop extends c.Recalls header rows where
  broken : c.feed.broken = page.feed.broken
  fresh : rows = [] → c.header = none ∧ c.feed.Holds page.table
  rest : rows ≠ [] → rows.length ≤ page.data.length ∧ c.feed.Holds (page.data.drop rows.length)

theorem behind_start (reference : ResultReference) (page : Page) (content : String)
    (header : List String) (h : page.Serves content) :
    (start reference page).Behind page header [] where
  delivered := rfl
  lastRow := rfl
  header := fun hne => absurd rfl hne
  broken := rfl
  fresh := fun _ => ⟨rfl, h.holds_feed⟩
  rest := fun hne => absurd rfl hne

theorem Behind.renew {c : Cursor} {page : Page} {header : List String}
    {rows : List (List String)} (h : c.Behind page header rows) (n : Nat) :
    ({ c with reconnects := n } : Cursor).Behind page header rows :=
  ⟨⟨h.delivered, h.lastRow, h.header⟩, h.broken, h.fresh, h.rest⟩

/-- Two cursors on the same result with the same reconnects counted. -/
def SameCount (c d : Cursor) : Prop := d.reference = c.reference ∧ d.reconnects = c.reconnects

theorem read_of_header (c : Cursor) (header : List String) (h : c.header = some header) :
    c.read = c.readRow header := by
  simp [read, h]

theorem read_of_row (c : Cursor) (first : List String) (rest : Feed) (h : c.header = none)
    (hnext : c.feed.next = .row first rest) :
    c.read = ({ c with header := some first, feed := rest } : Cursor).readRow first := by
  simp [read, h, hnext]

theorem read_of_holds_nil (c : Cursor) (h : c.header = none) (hholds : c.feed.Holds []) :
    c.read = match c.feed.broken with
      | none => .exhausted c
      | some fault => .broken fault c := by
  rw [read, h]
  simp only [Feed.next_of_holds_nil c.feed hholds]
  cases c.feed.broken <;> rfl

theorem readRow_of_holds_cons (c : Cursor) (header fields : List String)
    (table : List (List String)) (h : c.feed.Holds (fields :: table)) :
    ∃ rest, rest.Holds table ∧ rest.broken = c.feed.broken ∧
      c.readRow header = .record (.ofFields header fields)
        { c with feed := rest, delivered := c.delivered + 1, lastRow := some fields } := by
  obtain ⟨rest, hnext, hholds, hbroken⟩ := Feed.next_of_holds_cons c.feed fields table h
  exact ⟨rest, hholds, hbroken, readRow_of_row c header fields rest hnext⟩

theorem readRow_of_holds_nil (c : Cursor) (header : List String) (h : c.feed.Holds []) :
    c.readRow header = match c.feed.broken with
      | none => .exhausted c
      | some fault => .broken fault c := by
  rw [readRow, Feed.next_of_holds_nil c.feed h]
  cases c.feed.broken <;> rfl

theorem behind_advance (c : Cursor) (page : Page) (header fields : List String)
    (rows : List (List String)) (hrows : c.delivered = rows.length)
    (hheader : c.header = some header) (hrow : page.data[rows.length]? = some fields)
    (feed : Feed) (hfeed : feed.Holds (page.data.drop (rows.length + 1)))
    (hbroken : feed.broken = page.feed.broken) :
    ({ c with feed := feed, delivered := c.delivered + 1, lastRow := some fields } :
      Cursor).Behind page header (rows ++ [fields]) where
  delivered := by simp [hrows]
  lastRow := by simp
  header := fun _ => hheader
  broken := hbroken
  fresh := fun hnil => absurd hnil (by simp)
  rest := fun _ => by
    have hlt : rows.length < page.data.length := (List.getElem?_eq_some_iff.1 hrow).1
    simpa using ⟨hlt, hfeed⟩

/-- Where the page has another row, it is read. -/
theorem read_of_behind_row (c : Cursor) (page : Page) (header fields : List String)
    (rows : List (List String)) (h : c.Behind page header rows)
    (hrow : page.data[rows.length]? = some fields) :
    ∃ after, c.read = .record (.ofFields (page.headerAfter header rows) fields) after ∧
      after.Behind page (page.headerAfter header rows) (rows ++ [fields]) ∧
      c.SameCount after := by
  by_cases hrows : rows = []
  · subst hrows
    obtain ⟨hnone, hholds⟩ := h.fresh rfl
    obtain ⟨first, data, htable⟩ : ∃ first data, page.table = first :: data := by
      cases htable : page.table with
      | nil => simp [Page.data, htable] at hrow
      | cons first data => exact ⟨first, data, rfl⟩
    have hdata : page.data = data := by simp [Page.data, htable]
    have hfirst : page.headerAfter header [] = first := by
      simp [Page.headerAfter, Page.header, htable]
    obtain ⟨others, hothers⟩ : ∃ others, data = fields :: others := by
      cases data with
      | nil => simp [hdata] at hrow
      | cons second others =>
        have hsecond : second = fields := by simpa [hdata] using hrow
        exact ⟨others, by rw [hsecond]⟩
    rw [htable, hothers] at hholds
    obtain ⟨rest, hnext, hrest, hbroken⟩ := Feed.next_of_holds_cons c.feed first _ hholds
    obtain ⟨behind, hbehind, hkept, hread⟩ := readRow_of_holds_cons
      { c with header := some first, feed := rest } first fields others hrest
    rw [hfirst, read_of_row c first rest hnone hnext, hread]
    refine ⟨_, rfl, ?_, rfl, rfl⟩
    exact behind_advance { c with header := some first, feed := rest } page first fields []
      h.delivered rfl hrow behind (by simpa [hdata, hothers] using hbehind)
      (hkept.trans (hbroken.trans h.broken))
  · have hheader := h.header hrows
    have hdrop : page.data.drop rows.length = fields :: page.data.drop (rows.length + 1) := by
      obtain ⟨hlt, hget⟩ := List.getElem?_eq_some_iff.1 hrow
      rw [List.drop_eq_getElem_cons hlt, hget]
    have hholds := (h.rest hrows).2
    rw [hdrop] at hholds
    obtain ⟨behind, hbehind, hkept, hread⟩ := readRow_of_holds_cons c header fields _ hholds
    have hsame : page.headerAfter header rows = header := if_neg hrows
    rw [hsame, read_of_header c header hheader, hread]
    exact ⟨_, rfl, behind_advance c page header fields rows h.delivered hheader hrow behind
      hbehind (hkept.trans h.broken), rfl, rfl⟩

/-- Where the page has no other row, its end or its break is met. -/
theorem read_of_behind_end (c : Cursor) (page : Page) (header : List String)
    (rows : List (List String)) (h : c.Behind page header rows)
    (hrow : page.data.length ≤ rows.length) :
    ∃ after, (c.read = match page.feed.broken with
        | none => .exhausted after
        | some fault => .broken fault after) ∧
      after.Recalls header rows ∧ c.SameCount after := by
  by_cases hrows : rows = []
  · subst hrows
    obtain ⟨hnone, hholds⟩ := h.fresh rfl
    have hdata : page.data = [] := by simpa using hrow
    cases htable : page.table with
    | nil =>
      rw [htable] at hholds
      exact ⟨c, h.broken ▸ read_of_holds_nil c hnone hholds, h.toRecalls, rfl, rfl⟩
    | cons first data =>
      have hnil : data = [] := by simpa [Page.data, htable] using hdata
      rw [htable, hnil] at hholds
      obtain ⟨rest, hnext, hrest, hbroken⟩ := Feed.next_of_holds_cons c.feed first [] hholds
      refine ⟨{ c with header := some first, feed := rest }, ?_,
        ⟨h.delivered, h.lastRow, fun hne => absurd rfl hne⟩, rfl, rfl⟩
      rw [read_of_row c first rest hnone hnext, ← h.broken, ← hbroken]
      exact readRow_of_holds_nil { c with header := some first, feed := rest } first hrest
  · have hheader := h.header hrows
    have hholds := (h.rest hrows).2
    rw [List.drop_eq_nil_of_le hrow] at hholds
    refine ⟨c, ?_, h.toRecalls, rfl, rfl⟩
    rw [read_of_header c header hheader, ← h.broken]
    exact readRow_of_holds_nil c header hholds

end Cursor

end Harvest
