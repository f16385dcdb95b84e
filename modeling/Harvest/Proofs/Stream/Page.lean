import Harvest.Proofs.Csv.Cut
import Harvest.Stream.Feed

/-!
# Pages of a text

`Page.Serves p content` says that a page gives the text `content`, all of it or up to a
fault after any number of bytes. `Page.table p` is what can be read of it, row by row, the
header coming first. The table of a page is the beginning of the table of the text it serves
(`Page.Serves.table_isPrefix`), and its feed gives just the rows of the table
(`Page.Serves.holds_feed`).

`Page.Ends` says that a reader takes the page for complete. That is so where the page ends
without fault, but also where it breaks right behind the byte-order mark.
-/

namespace Harvest

/-- The decodings of rows; a row that is no text is left out. -/
def Csv.texts (rows : List Csv.Row) : List (List String) :=
  rows.filterMap fun row => row.text.toOption

/-- The rows of a text that is read to its end, the header coming first. -/
def Csv.table (content : String) : List (List String) :=
  Csv.texts (Csv.rows (Utf8.encodeString content))

namespace Page

/-- The rows of a page, of which those after a fault are lost. -/
def rows (p : Page) : List Csv.Row :=
  match p.broken with
  | none => Csv.rows p.bytes
  | some _ => Csv.completedRows p.bytes

/-- What can be read of a page, the header coming first. -/
def table (p : Page) : List (List String) := Csv.texts p.rows

def header (p : Page) : List String := p.table.headD []

/-- The rows of a page after its header. -/
def data (p : Page) : List (List String) := p.table.tail

/-- A page that gives all of a text. -/
def whole (content : String) : Page := ⟨Utf8.encodeString content, none⟩

/-- A page that gives the first `n` bytes of a text, and then breaks. -/
def cut (content : String) (n : Nat) (fault : String) : Page :=
  ⟨(Utf8.encodeString content).take n, some fault⟩

/-- The page gives the text, all of it or cut anywhere. -/
def Serves (p : Page) (content : String) : Prop :=
  p = .whole content ∨ ∃ n fault, p = .cut content n fault

/-- The page gives some text. -/
def IsText (p : Page) : Prop := ∃ content, p.Serves content

/-- The page ends without fault, or its fault goes unnoticed. -/
def Ends (p : Page) : Prop := p.broken = none ∨ p.bytes = Csv.byteOrderMark

end Page

namespace Csv

theorem map_text_eq (rows : List Row) (h : ∀ row ∈ rows, ∃ fields, row.text = .ok fields) :
    rows.map Row.text = (texts rows).map .ok := by
  induction rows with
  | nil => rfl
  | cons row rows ih =>
    obtain ⟨fields, hrow⟩ := h row List.mem_cons_self
    have hrest := ih fun r hr => h r (List.mem_cons_of_mem _ hr)
    simp [texts, hrow, Except.toOption] at hrest ⊢
    exact hrest

theorem texts_isPrefix {xs ys : List Row} (h : xs <+: ys) : texts xs <+: texts ys := by
  obtain ⟨rest, rfl⟩ := h
  exact ⟨texts rest, by simp [texts]⟩

/-- A text loses no row when it is decoded. -/
theorem map_text_rows (content : String) :
    (rows (Utf8.encodeString content)).map Row.text = (table content).map .ok :=
  map_text_eq _ fun row hrow => exists_text_of_mem_rows content.toList row hrow

end Csv

/-- The feed gives the rows of the table, and no row besides. -/
def Feed.Holds (f : Feed) (table : List (List String)) : Prop :=
  f.rows.map Csv.Row.text = table.map .ok

namespace Feed

theorem next_of_holds_nil (f : Feed) (h : f.Holds []) :
    f.next = match f.broken with
      | none => .finished
      | some fault => .broken fault := by
  rcases f with ⟨rows, broken⟩
  have hrows : rows = [] := by simpa [Holds] using h
  subst hrows
  cases broken <;> rfl

theorem next_of_holds_cons (f : Feed) (fields : List String) (table : List (List String))
    (h : f.Holds (fields :: table)) :
    ∃ rest, f.next = .row fields rest ∧ rest.Holds table ∧ rest.broken = f.broken := by
  rcases f with ⟨rows, broken⟩
  cases rows with
  | nil => simp [Holds] at h
  | cons row rows =>
    simp only [Holds, List.map_cons, List.cons.injEq] at h
    exact ⟨⟨rows, broken⟩, next_cons row rows broken fields h.1, h.2, rfl⟩

theorem skip_of_holds (n passed : Nat) (last : List String) (f : Feed)
    (table : List (List String)) (h : f.Holds table) :
    (n ≤ table.length →
      ∃ rest, skip n passed last f = .landed ((last :: table.take n).getLast (by simp)) rest ∧
        rest.Holds (table.drop n) ∧ rest.broken = f.broken) ∧
    (table.length < n →
      skip n passed last f = match f.broken with
        | none => .short (passed + table.length)
        | some fault => .broken fault) := by
  induction n generalizing passed last f table with
  | zero => exact ⟨fun _ => ⟨f, rfl, h, rfl⟩, fun hlt => absurd hlt (Nat.not_lt_zero _)⟩
  | succ n ih =>
    cases table with
    | nil =>
      refine ⟨fun hle => absurd hle (by simp), fun _ => ?_⟩
      rw [skip, next_of_holds_nil f h]
      cases f.broken <;> rfl
    | cons fields table =>
      obtain ⟨rest, hnext, hholds, hbroken⟩ := next_of_holds_cons f fields table h
      obtain ⟨hland, hshort⟩ := ih (passed + 1) fields rest table hholds
      have hstep : skip (n + 1) passed last f = skip n (passed + 1) fields rest := by
        rw [skip, hnext]
      rw [hstep]
      constructor
      · intro hle
        obtain ⟨behind, hskip, hbehind, hkept⟩ := hland (by simpa using hle)
        exact ⟨behind, hskip.trans (by simp), by simpa using hbehind, hkept.trans hbroken⟩
      · intro hlt
        rw [hshort (by simpa using hlt), hbroken, List.length_cons]
        cases f.broken <;> simp [Nat.add_assoc, Nat.add_comm 1]

end Feed

namespace Page

theorem broken_feed_eq_none_iff (p : Page) : p.feed.broken = none ↔ p.Ends := by
  rcases p with ⟨bytes, broken⟩
  cases broken with
  | none => simp [feed, Ends]
  | some fault =>
    by_cases h : bytes = Csv.byteOrderMark <;> simp [feed, Ends, h]

theorem broken_feed_of_not_ends (p : Page) (h : ¬ p.Ends) :
    ∃ fault, p.broken = some fault ∧ p.feed.broken = some fault := by
  rcases p with ⟨bytes, broken⟩
  cases broken with
  | none => exact absurd (.inl rfl) h
  | some fault =>
    have hbytes : bytes ≠ Csv.byteOrderMark := fun hb => h (.inr hb)
    exact ⟨fault, rfl, by simp [feed, hbytes]⟩

theorem rows_feed (p : Page) : p.feed.rows = p.rows := by
  rcases p with ⟨bytes, broken⟩
  cases broken with
  | none => rfl
  | some fault =>
    by_cases h : bytes = Csv.byteOrderMark <;> simp [feed, rows, h]

namespace Serves

variable {p : Page} {content : String}

theorem rows_isPrefix (h : p.Serves content) : p.rows <+: Csv.rows (Utf8.encodeString content) := by
  rcases h with rfl | ⟨n, fault, rfl⟩
  · exact List.prefix_refl _
  · exact Csv.completedRows_take_isPrefix _ n

/-- What can be read of a page is the beginning of what its text holds. -/
theorem table_isPrefix (h : p.Serves content) : p.table <+: Csv.table content :=
  Csv.texts_isPrefix h.rows_isPrefix

theorem table_eq (h : p.Serves content) (hwhole : p.broken = none) :
    p.table = Csv.table content := by
  rcases h with rfl | ⟨n, fault, rfl⟩
  · rfl
  · simp [cut] at hwhole

theorem holds_feed (h : p.Serves content) : p.feed.Holds p.table := by
  unfold Feed.Holds
  rw [rows_feed]
  refine Csv.map_text_eq _ ?_
  intro row hrow
  exact Csv.exists_text_of_mem_rows content.toList row (h.rows_isPrefix.subset hrow)

end Serves

end Page

end Harvest
