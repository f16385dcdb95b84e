import Harvest.Proofs.Stream.Naming

/-!
# Where a read meets the break of a page

`Page.Breaks` tells by the page alone whether reading on behind the rows delivered, or passing over
them again, runs into the fault that ends the page. A `Standing` is what is known from outside of
a result that is being read. From a cursor that stands there each read and each page that is taken
up fails with a broken stream exactly where the page breaks (`Cursor.StandsAt.read_fits`,
`Cursor.Knows.takeUp_fits`), whatever bytes the page holds.
-/

namespace Harvest

open Program (Trace Exchange)

/-- The error is that of a stream for which the budget of reconnects is spent. -/
def ExtractError.Transient (e : ExtractError) : Prop :=
  ∃ entity job reference attempts fault, e = .transientStream entity job reference attempts fault

/-- The page breaks before there is a row behind these ones. What can be read of it is text, and if
they are as many rows, then the last one is the row delivered last: otherwise a read or a replay
ends for another reason before it meets the break. A page that breaks right behind the byte-order
mark is taken for complete, no read fails there. -/
def Page.Breaks (p : Page) (rows : List (List String)) : Prop :=
  ¬ p.Ends ∧ p.rows.length ≤ rows.length + 1 ∧ (∀ n < p.rows.length, (p.line? n).isSome) ∧
    (rows ≠ [] → p.rows.length = rows.length + 1 → p.line? rows.length = rows.getLast?)

/-- As many rows can be read of the page as were delivered. A page that breaks is then met by the
read behind these rows, not while they are passed over. -/
def Page.TakenUp (p : Page) (rows : List (List String)) : Prop :=
  rows = [] ∨ rows.length < p.rows.length

instance (p : Page) (rows : List (List String)) : Decidable (p.TakenUp rows) :=
  inferInstanceAs (Decidable (_ ∨ _))

/-- The fault that is told behind a page that breaks. The one told before it gives way if the break
is met by a read. -/
def Page.told (p : Page) (rows : List (List String)) (fault : String) : String :=
  if p.TakenUp rows then p.broken.getD fault else fault

/-- A result that is being read, as it is known from outside. -/
structure Standing where
  reference : ResultReference
  /-- The page opened last. -/
  page : Page
  /-- The rows delivered from the result. -/
  rows : List (List String)
  /-- Reconnects since the result was opened first, or since the budget was renewed after that. -/
  reconnects : Nat

namespace Standing

/-- The next read, or the replay of the rows, meets the break of the page. -/
def Breaks (s : Standing) : Prop := s.page.Breaks s.rows

def deliver (s : Standing) (fields : List String) : Standing :=
  { s with rows := s.rows ++ [fields] }

theorem not_breaks_of_ends {s : Standing} (h : s.page.Ends) : ¬ s.Breaks :=
  fun hbreaks => hbreaks.1 h

theorem not_breaks_of_invalid {s : Standing} {n : Nat} (hn : n < s.page.rows.length)
    (h : s.page.line? n = none) : ¬ s.Breaks := fun hbreaks => by
  have hsome := hbreaks.2.2.1 n hn
  rw [h] at hsome
  cases hsome

end Standing

theorem Page.lt_of_line?_eq_some {p : Page} {n : Nat} {fields : List String}
    (h : p.line? n = some fields) : n < p.rows.length := by
  obtain ⟨row, hrow, -⟩ := Option.bind_eq_some_iff.1 h
  exact (List.getElem?_eq_some_iff.1 hrow).1

namespace Feed

/-- The feed stands before the line `n` of the page, the header being the first one. -/
structure At (f : Feed) (p : Page) (n : Nat) : Prop where
  rows : f.rows = p.rows.drop n
  broken : f.broken = p.feed.broken

theorem at_feed (p : Page) : p.feed.At p 0 := ⟨p.rows_feed, rfl⟩

variable {p : Page} {f : Feed} {n : Nat}

/-- What reading the line `n` of a page comes to. -/
def Next.Fits (p : Page) (n : Nat) : Next → Prop
  | .row fields rest => p.line? n = some fields ∧ rest.At p (n + 1)
  | .finished => p.Ends
  | .broken fault => ¬ p.Ends ∧ p.rows.length ≤ n ∧ p.broken = some fault
  | .invalid _ => n < p.rows.length ∧ p.line? n = none

theorem At.next_fits (h : f.At p n) : f.next.Fits p n := by
  cases hnext : f.next with
  | row fields rest =>
    obtain ⟨hline, hrows⟩ := line?_of_next h.rows hnext
    obtain ⟨-, -, -, hbroken⟩ := (next_eq_row_iff f rest fields).1 hnext
    exact ⟨hline, hrows, hbroken.trans h.broken⟩
  | finished =>
    rw [next] at hnext
    split at hnext
    · split at hnext <;> cases hnext
      exact (Page.broken_feed_eq_none_iff p).1 (h.broken.symm.trans ‹_›)
    · split at hnext <;> cases hnext
  | broken fault =>
    rw [next] at hnext
    split at hnext
    · split at hnext <;> cases hnext
      have hfeed : p.feed.broken = some fault := h.broken ▸ ‹f.broken = some fault›
      have hends : ¬ p.Ends := fun hends => by
        rw [(Page.broken_feed_eq_none_iff p).2 hends] at hfeed
        cases hfeed
      obtain ⟨_, hbroken, hsame⟩ := p.broken_feed_of_not_ends hends
      exact ⟨hends, List.drop_eq_nil_iff.1 (h.rows.symm.trans ‹_›),
        hbroken.trans (hsame.symm.trans hfeed)⟩
    · split at hnext <;> cases hnext
  | invalid fault =>
    rw [next] at hnext
    split at hnext
    · split at hnext <;> cases hnext
    · next row rest hrows =>
      split at hnext <;> cases hnext
      have hrow : p.rows[n]? = some row := by
        rw [← List.head?_drop, ← h.rows, hrows, List.head?_cons]
      refine ⟨(List.getElem?_eq_some_iff.1 hrow).1, ?_⟩
      rw [Page.line?, hrow, Option.bind_some, ‹row.text = _›]
      rfl

/-- What passing over `k` lines behind the line `n` of a page comes to. -/
def Skipped.Fits (p : Page) (n k : Nat) : Skipped → Prop
  | .landed last rest =>
    p.line? (n + k) = some last ∧ rest.At p (n + k + 1) ∧
      ∀ i ≤ n + k, n < i → (p.line? i).isSome
  | .short _ => p.Ends
  | .broken _ =>
    ¬ p.Ends ∧ p.rows.length ≤ n + k ∧ ∀ i < p.rows.length, n < i → (p.line? i).isSome
  | .invalid _ => ∃ i < p.rows.length, p.line? i = none

/-- A line more is passed over. -/
theorem Skipped.Fits.behind {k : Nat} {fields : List String} {skipped : Skipped}
    (h : skipped.Fits p (n + 1) k) (hline : p.line? (n + 1) = some fields) :
    skipped.Fits p n (k + 1) := by
  have hsum : n + 1 + k = n + (k + 1) := by omega
  have hfirst {i : Nat} (hlt : n < i) (hi : ¬ n + 1 < i) : (p.line? i).isSome := by
    obtain rfl : i = n + 1 := by omega
    rw [hline]
    rfl
  cases skipped with
  | landed last rest =>
    obtain ⟨hlast, hrest, htexts⟩ := h
    rw [hsum] at hlast hrest htexts
    refine ⟨hlast, hrest, fun i hle hlt => ?_⟩
    by_cases hi : n + 1 < i
    · exact htexts i hle hi
    · exact hfirst hlt hi
  | short rows => exact h
  | broken fault =>
    obtain ⟨hends, hlength, htexts⟩ := h
    refine ⟨hends, hsum ▸ hlength, fun i hi hlt => ?_⟩
    by_cases hi' : n + 1 < i
    · exact htexts i hi hi'
    · exact hfirst hlt hi'
  | invalid fault => exact h

theorem At.skip_fits (k passed : Nat) {last : List String} (h : f.At p (n + 1))
    (hlast : p.line? n = some last) : (f.skip k passed last).Fits p n k := by
  induction k generalizing n passed last f with
  | zero => exact ⟨hlast, h, fun i hle hlt => absurd hlt (Nat.not_lt.2 hle)⟩
  | succ k ih =>
    have hfits := h.next_fits
    rw [skip]
    cases hnext : f.next with
    | row fields rest =>
      rw [hnext] at hfits
      obtain ⟨hline, hrest⟩ := hfits
      exact (ih (passed + 1) hrest hline).behind hline
    | finished =>
      rw [hnext] at hfits
      exact hfits
    | broken fault =>
      rw [hnext] at hfits
      obtain ⟨hends, hlength, -⟩ := hfits
      exact ⟨hends, by omega, fun i hi hlt => by omega⟩
    | invalid fault =>
      rw [hnext] at hfits
      exact ⟨n + 1, hfits⟩

end Feed

namespace Cursor

/-- The cursor knows what was delivered of the result. -/
structure Knows (c : Cursor) (s : Standing) : Prop where
  reference : c.reference = s.reference
  reconnects : c.reconnects = s.reconnects
  delivered : c.delivered = s.rows.length
  lastRow : c.lastRow = s.rows.getLast?
  header : s.rows ≠ [] → c.header.isSome

/-- The cursor stands on the page behind the rows delivered, or before its header if there are
none. -/
structure StandsAt (c : Cursor) (s : Standing) : Prop extends c.Knows s where
  fresh : s.rows = [] → c.header = none
  feed : c.feed.At s.page (if s.rows = [] then 0 else s.rows.length + 1)
  texts : s.rows ≠ [] → ∀ n ≤ s.rows.length, (s.page.line? n).isSome
  last : s.rows ≠ [] → s.page.line? s.rows.length = s.rows.getLast?

variable {c : Cursor} {s : Standing}

theorem standsAt_start (reference : ResultReference) (page : Page) :
    (start reference page).StandsAt ⟨reference, page, [], 0⟩ where
  reference := rfl
  reconnects := rfl
  delivered := rfl
  lastRow := rfl
  header := fun h => absurd rfl h
  fresh := fun _ => rfl
  feed := Feed.at_feed page
  texts := fun h => absurd rfl h
  last := fun h => absurd rfl h

/-- The page being read was taken up. -/
theorem StandsAt.takenUp (h : c.StandsAt s) : s.page.TakenUp s.rows := by
  by_cases hrows : s.rows = []
  · exact .inl hrows
  · have hlast := h.last hrows
    rw [List.getLast?_eq_some_getLast hrows] at hlast
    exact .inr (Page.lt_of_line?_eq_some hlast)

theorem StandsAt.renew (h : c.StandsAt s) :
    ({ c with reconnects := 0 } : Cursor).StandsAt { s with reconnects := 0 } :=
  ⟨⟨h.reference, rfl, h.delivered, h.lastRow, h.header⟩, h.fresh, h.feed, h.texts, h.last⟩

/-- A record was read that has the fields of the row behind those delivered. -/
def Delivers (s : Standing) (r : Record) (after : Cursor) : Prop :=
  ∃ fields header, s.page.line? (s.rows.length + 1) = some fields ∧ r = .ofFields header fields ∧
    after.StandsAt (s.deliver fields)

/-- What a read comes to: it fails with a broken stream just where the page breaks, with its
fault. -/
def Step.Fits (s : Standing) : Step → Prop
  | .record r after => Delivers s r after
  | .exhausted _ => ¬ s.Breaks
  | .broken fault after => s.Breaks ∧ s.page.broken = some fault ∧ after.Knows s
  | .invalid _ => ¬ s.Breaks

theorem Knows.readRow_fits {header : List String} (h : c.Knows s) (hheader : c.header.isSome)
    (hfeed : c.feed.At s.page (s.rows.length + 1))
    (htexts : ∀ n ≤ s.rows.length, (s.page.line? n).isSome)
    (hlast : s.rows ≠ [] → s.page.line? s.rows.length = s.rows.getLast?) :
    (c.readRow header).Fits s := by
  have hfits := hfeed.next_fits
  rw [readRow]
  cases hnext : c.feed.next with
  | row fields rest =>
    rw [hnext] at hfits
    obtain ⟨hline, hrest⟩ := hfits
    have hlength : (s.rows ++ [fields]).length = s.rows.length + 1 := by simp
    refine ⟨fields, header, hline, rfl, ⟨h.reference, h.reconnects, ?_, ?_, fun _ => hheader⟩,
      fun hnil => ?_, ?_, fun _ n hn => ?_, fun _ => ?_⟩
    · exact (congrArg (· + 1) h.delivered).trans hlength.symm
    · exact (List.getLast?_concat ..).symm
    · exact absurd hnil (by simp [Standing.deliver])
    · have hne : (s.deliver fields).rows ≠ [] := by simp [Standing.deliver]
      rw [if_neg hne]
      exact hlength ▸ hrest
    · rcases Nat.lt_or_ge s.rows.length n with hlt | hle
      · obtain rfl : n = s.rows.length + 1 := Nat.le_antisymm (hlength ▸ hn) hlt
        exact hline ▸ rfl
      · exact htexts n hle
    · exact (hlength ▸ hline : s.page.line? (s.rows ++ [fields]).length = _).trans
        (List.getLast?_concat ..).symm
  | finished =>
    rw [hnext] at hfits
    exact Standing.not_breaks_of_ends hfits
  | broken fault =>
    rw [hnext] at hfits
    obtain ⟨hends, hlength, hfault⟩ := hfits
    exact ⟨⟨hends, hlength, fun n hn => htexts n (by omega), fun hrows _ => hlast hrows⟩, hfault, h⟩
  | invalid fault =>
    rw [hnext] at hfits
    exact Standing.not_breaks_of_invalid hfits.1 hfits.2

theorem StandsAt.read_fits (h : c.StandsAt s) : c.read.Fits s := by
  by_cases hrows : s.rows = []
  · have hlength : s.rows.length = 0 := by rw [hrows, List.length_nil]
    have hfeed := h.feed
    rw [if_pos hrows] at hfeed
    have hfits := hfeed.next_fits
    rw [read, h.fresh hrows]
    cases hnext : c.feed.next with
    | row header rest =>
      rw [hnext] at hfits
      obtain ⟨hline, hrest⟩ := hfits
      refine Knows.readRow_fits (c := { c with header := some header, feed := rest })
        ⟨h.reference, h.reconnects, h.delivered, h.lastRow, fun _ => rfl⟩ rfl (hlength ▸ hrest)
        (fun n hn => ?_) h.last
      obtain rfl : n = 0 := by omega
      rw [hline]
      rfl
    | finished =>
      rw [hnext] at hfits
      exact Standing.not_breaks_of_ends hfits
    | broken fault =>
      rw [hnext] at hfits
      obtain ⟨hends, hempty, hfault⟩ := hfits
      exact ⟨⟨hends, by omega, fun n hn => by omega, fun hne => absurd hrows hne⟩, hfault,
        h.toKnows⟩
    | invalid fault =>
      rw [hnext] at hfits
      exact Standing.not_breaks_of_invalid hfits.1 hfits.2
  · obtain ⟨header, hheader⟩ := Option.isSome_iff_exists.1 (h.header hrows)
    have hfeed := h.feed
    rw [if_neg hrows] at hfeed
    rw [read_of_header c header hheader]
    exact h.readRow_fits (h.header hrows) hfeed (h.texts hrows) h.last

/-- What taking up a page comes to. -/
def Resumed.Fits (s : Standing) : Resumed → Prop
  | .ready resumed => resumed.StandsAt s
  | .mismatch _ => ¬ s.Breaks
  | .broken _ => s.Breaks ∧ ¬ s.page.TakenUp s.rows
  | .invalid _ => ¬ s.Breaks

theorem Knows.resume_fits (h : c.Knows s) : (c.resume s.page).Fits s := by
  by_cases hrows : s.rows = []
  · have hzero : c.delivered = 0 := by rw [h.delivered, hrows, List.length_nil]
    rw [resume_of_delivered_zero c s.page hzero]
    refine ⟨⟨h.reference, h.reconnects, h.delivered, h.lastRow, fun hne => absurd hrows hne⟩,
      fun _ => rfl, ?_, fun hne => absurd hrows hne, fun hne => absurd hrows hne⟩
    rw [if_pos hrows]
    exact Feed.at_feed s.page
  have hpos : c.delivered ≠ 0 := by
    rw [h.delivered]
    exact fun hzero => hrows (List.length_eq_zero_iff.1 hzero)
  have hfits := (Feed.at_feed s.page).next_fits
  rw [resume, if_neg hpos]
  cases hnext : s.page.feed.next with
  | finished =>
    rw [hnext] at hfits
    exact Standing.not_breaks_of_ends hfits
  | broken fault =>
    rw [hnext] at hfits
    obtain ⟨hends, hempty, -⟩ := hfits
    refine ⟨⟨hends, by omega, fun n hn => by omega, fun _ hlength => by omega⟩, ?_⟩
    exact not_or.2 ⟨hrows, by omega⟩
  | invalid fault =>
    rw [hnext] at hfits
    exact Standing.not_breaks_of_invalid hfits.1 hfits.2
  | row header rest =>
    rw [hnext] at hfits
    obtain ⟨hheader, hrest⟩ := hfits
    have hfirst : (s.page.line? 0).isSome := by rw [hheader]; rfl
    have hskip := hrest.skip_fits c.delivered 0 hheader
    rw [h.delivered] at hskip ⊢
    dsimp only
    cases hskipped : rest.skip s.rows.length 0 header with
    | short rows =>
      rw [hskipped] at hskip
      exact Standing.not_breaks_of_ends hskip
    | broken fault =>
      rw [hskipped] at hskip
      obtain ⟨hends, hlength, htexts⟩ := hskip
      refine ⟨⟨hends, by omega, fun n hn => ?_, fun _ hsame => by omega⟩,
        not_or.2 ⟨hrows, by omega⟩⟩
      rcases Nat.eq_zero_or_pos n with rfl | hlt
      · exact hfirst
      · exact htexts n hn hlt
    | invalid fault =>
      rw [hskipped] at hskip
      obtain ⟨n, hn, hnone⟩ := hskip
      exact Standing.not_breaks_of_invalid hn hnone
    | landed last behind =>
      rw [hskipped] at hskip
      obtain ⟨hlast, hbehind, htexts⟩ := hskip
      rw [Nat.zero_add] at hlast hbehind htexts
      dsimp only
      split
      · next hsame =>
        refine ⟨⟨h.reference, h.reconnects, rfl, h.lastRow, h.header⟩,
          fun hnil => absurd hnil hrows, ?_, fun _ n hn => ?_, fun _ => ?_⟩
        · rw [if_neg hrows]
          exact hbehind
        · rcases Nat.eq_zero_or_pos n with rfl | hlt
          · exact hfirst
          · exact htexts n hn hlt
        · rw [hlast, ← hsame, h.lastRow]
      · next hother =>
        -- the rows passed over are all that can be read, so the last one decides
        rintro ⟨-, hlength, -, hrepeats⟩
        have hlt := Page.lt_of_line?_eq_some hlast
        have hsame := hrepeats hrows (by omega)
        rw [hlast, ← h.lastRow] at hsame
        exact hother hsame.symm

/-- A fetch is settled without a break being met. -/
def Settles (s : Standing) : Outcome → Prop
  | .ok (some r, after) => Delivers s r after
  | .ok (none, _) => ¬ s.Breaks
  | .error e => ¬ s.Breaks ∧ ¬ e.Transient

/-- What a page is worth that was opened again behind a fault. -/
def Recovery.Fits (s : Standing) (fault : String) : Recovery → Prop
  | .settled outcome => Settles s outcome
  | .again newFault after => s.Breaks ∧ newFault = s.page.told s.rows fault ∧ after.Knows s

theorem Knows.takeUp_fits (ctx : StreamContext) (fault : String) (h : c.Knows s) :
    (takeUp ctx c fault s.page).Fits s fault := by
  have hresume := h.resume_fits
  rw [takeUp]
  cases hresumed : c.resume s.page with
  | broken other =>
    rw [hresumed] at hresume
    exact ⟨hresume.1, (if_neg hresume.2).symm, h⟩
  | mismatch skipped =>
    rw [hresumed] at hresume
    exact ⟨hresume, by simp [ExtractError.Transient]⟩
  | invalid row =>
    rw [hresumed] at hresume
    exact ⟨hresume, by simp [ExtractError.Transient]⟩
  | ready resumed =>
    rw [hresumed] at hresume
    have hread := hresume.read_fits
    dsimp only
    cases hstep : resumed.read with
    | record r after =>
      rw [hstep] at hread
      exact hread
    | exhausted after =>
      rw [hstep] at hread
      exact hread
    | broken newFault after =>
      rw [hstep] at hread
      obtain ⟨hbreaks, hfault, hafter⟩ := hread
      refine ⟨hbreaks, ?_, hafter⟩
      rw [Page.told, if_pos hresume.takenUp, hfault, Option.getD_some]
    | invalid row =>
      rw [hstep] at hread
      exact ⟨hread, by simp [ExtractError.Transient]⟩

end Cursor

end Harvest
