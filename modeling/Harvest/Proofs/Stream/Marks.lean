import Harvest.Proofs.Stream.Breaking
import Mathlib.Data.List.Forall2
import Mathlib.Data.List.Infix

/-!
# What happens while rows are fetched

Seen from outside, fetching rows is a sequence of marks (`Mark`), and at each position only some of
them are possible (`Moves`): where the page being read breaks, the result is opened again as long as
fewer reconnects than the limit were made since it was opened first and since the budget was renewed
last, and otherwise the budget is spent. From this it follows how often a result is opened again
before a budget begins anew (`Walk.countP_reopens_le`). An `Account` ties marks to the exchanges
they stand for and to the rows or the error that the caller is told.
-/

namespace Harvest

open Program (Trace Exchange)

/-- What happens while rows are fetched, as far as it is seen from outside. -/
inductive Mark
  /-- The budget of reconnects is renewed. -/
  | renewed
  /-- A result is opened for the first time. -/
  | opened (reference : ResultReference) (reply : Except ExtractError Page)
  /-- The result being read is opened again. -/
  | reopened (reference : ResultReference) (reply : Except ExtractError Page)
  | delivered (fields : List String)
  /-- The result being read is left at its end. -/
  | exhausted
  /-- What was read is refused. -/
  | rejected (e : ExtractError)
  /-- The stream broke, and no reconnect is left. -/
  | spent (reference : ResultReference) (fault : String)

namespace Mark

/-- The exchange with the services that a mark stands for. -/
def exchange? (job : String) : Mark → Option (Exchange services)
  | .opened reference reply => some ⟨.openResult job reference, reply⟩
  | .reopened reference reply => some ⟨.openResult job reference, reply⟩
  | _ => none

def row? : Mark → Option (List String)
  | .delivered fields => some fields
  | _ => none

/-- The result that is opened for the first time. -/
def first? : Mark → Option ResultReference
  | .opened reference _ => some reference
  | _ => none

/-- The error with which an open was refused. -/
def refusal? : Mark → Option ExtractError
  | .opened _ (.error e) => some e
  | .reopened _ (.error e) => some e
  | _ => none

/-- The error that a mark means for the call. -/
def error? (context : StreamContext) : Mark → Option ExtractError
  | .rejected e => some e
  | .spent reference fault =>
    some (.transientStream context.entity context.job reference context.retryLimit fault)
  | mark => mark.refusal?

/-- The mark begins a budget of its own. -/
def Grants (mark : Mark) : Prop := mark = .renewed ∨ mark.first?.isSome

def reopens : Mark → Bool
  | .reopened .. => true
  | _ => false

def spends : Mark → Bool
  | .spent .. => true
  | _ => false

def opens (mark : Mark) : Bool := mark.first?.isSome || mark.reopens

/-- Counts the reconnects since the budget began. -/
def tally (n : Nat) : Mark → Nat
  | .renewed => 0
  | .opened .. => 0
  | .reopened .. => n + 1
  | _ => n

end Mark

/-- How many reconnects were made since the last first open and the last renewal. -/
def reconnectsMade (marks : List Mark) : Nat := marks.foldl Mark.tally 0

/-- The results that were not opened yet, and the one being read. -/
structure Position where
  pending : List ResultReference
  current : Option Standing

namespace Position

/-- Nothing is read any more. -/
def closed : Position := ⟨[], none⟩

def renew (p : Position) : Position :=
  { p with current := p.current.map fun s => { s with reconnects := 0 } }

/-- Reading on meets the break of a page. -/
def Broken (p : Position) : Prop := ∃ s, p.current = some s ∧ s.Breaks

end Position

/-- Which mark can follow at a position, and where it leads to. -/
inductive Moves (limit : Nat) : Position → Mark → Position → Prop
  | renewed (p : Position) : Moves limit p .renewed p.renew
  | opened (reference : ResultReference) (pending : List ResultReference) (page : Page) :
    Moves limit ⟨reference :: pending, none⟩ (.opened reference (.ok page))
      ⟨pending, some ⟨reference, page, [], 0⟩⟩
  | refused (reference : ResultReference) (pending : List ResultReference) (e : ExtractError) :
    Moves limit ⟨reference :: pending, none⟩ (.opened reference (.error e)) .closed
  | reopened (pending : List ResultReference) (s : Standing) (page : Page) (hbreaks : s.Breaks)
      (hroom : s.reconnects < limit) :
    Moves limit ⟨pending, some s⟩ (.reopened s.reference (.ok page))
      ⟨pending, some { s with page := page, reconnects := s.reconnects + 1 }⟩
  | lost (pending : List ResultReference) (s : Standing) (e : ExtractError) (hbreaks : s.Breaks)
      (hroom : s.reconnects < limit) :
    Moves limit ⟨pending, some s⟩ (.reopened s.reference (.error e)) .closed
  | spent (pending : List ResultReference) (s : Standing) (fault : String) (hbreaks : s.Breaks)
      (hspent : s.reconnects = limit) :
    Moves limit ⟨pending, some s⟩ (.spent s.reference fault) .closed
  | delivered (pending : List ResultReference) (s : Standing) (fields : List String)
      (hrow : s.page.line? (s.rows.length + 1) = some fields) :
    Moves limit ⟨pending, some s⟩ (.delivered fields) ⟨pending, some (s.deliver fields)⟩
  | exhausted (pending : List ResultReference) (s : Standing) (hunbroken : ¬ s.Breaks) :
    Moves limit ⟨pending, some s⟩ .exhausted ⟨pending, none⟩
  | rejected (pending : List ResultReference) (s : Standing) (e : ExtractError)
      (hunbroken : ¬ s.Breaks) (hother : ¬ e.Transient) :
    Moves limit ⟨pending, some s⟩ (.rejected e) .closed

/-- Marks that follow each other. -/
inductive Walk (limit : Nat) : Position → List Mark → Position → Prop
  | nil (p : Position) : Walk limit p [] p
  | cons (p p' p'' : Position) (mark : Mark) (marks : List Mark) (hmove : Moves limit p mark p')
      (h : Walk limit p' marks p'') : Walk limit p (mark :: marks) p''

namespace Walk

variable {limit : Nat} {p p' p'' : Position} {marks more : List Mark}

theorem single {mark : Mark} (h : Moves limit p mark p') : Walk limit p [mark] p' :=
  .cons p p' p' mark [] h (.nil p')

theorem append (h : Walk limit p marks p') (h' : Walk limit p' more p'') :
    Walk limit p (marks ++ more) p'' := by
  induction h with
  | nil p => exact h'
  | cons p q q' mark marks hmove h ih => exact .cons p q p'' mark _ hmove (ih h')

theorem split (h : Walk limit p (marks ++ more) p'') :
    ∃ p', Walk limit p marks p' ∧ Walk limit p' more p'' := by
  induction marks generalizing p with
  | nil => exact ⟨p, .nil p, h⟩
  | cons mark marks ih =>
    cases h with
    | cons _ q _ _ _ hmove h =>
      obtain ⟨p', hmarks, hmore⟩ := ih h
      exact ⟨p', .cons p q p' mark marks hmove hmarks, hmore⟩

end Walk

/-- At most so many reconnects were made as the limit grants. -/
def Position.Within (limit : Nat) (p : Position) : Prop :=
  ∀ s, p.current = some s → s.reconnects ≤ limit

theorem Moves.within {limit : Nat} {p p' : Position} {mark : Mark} (h : Moves limit p mark p')
    (hp : p.Within limit) : p'.Within limit := by
  intro s' hs'
  cases h with
  | renewed =>
    obtain ⟨s, -, rfl⟩ := Option.map_eq_some_iff.1 hs'
    exact Nat.zero_le _
  | opened =>
    cases hs'
    exact Nat.zero_le _
  | reopened pending s page hbreaks hroom =>
    cases hs'
    exact hroom
  | delivered pending s fields hrow =>
    cases hs'
    exact hp s rfl
  | _ => cases hs'

/-- Where the page being read breaks, the result is opened again or the budget is spent, and only
there. -/
theorem Moves.broken_iff {limit : Nat} {p p' : Position} {mark : Mark} (h : Moves limit p mark p')
    (hmark : mark ≠ .renewed) : p.Broken ↔ mark.reopens ∨ mark.spends := by
  have hunbroken {s : Standing} (hs : ¬ s.Breaks) : ¬ Position.Broken ⟨p.pending, some s⟩ := by
    rintro ⟨_, ⟨⟩, hbreaks⟩
    exact hs hbreaks
  have hidle (pending : List ResultReference) : ¬ Position.Broken ⟨pending, none⟩ := by
    rintro ⟨_, ⟨⟩, -⟩
  cases h with
  | renewed => exact absurd rfl hmark
  | opened reference pending page => simpa [Mark.reopens, Mark.spends] using hidle _
  | refused reference pending e => simpa [Mark.reopens, Mark.spends] using hidle _
  | reopened pending s page hbreaks hroom => exact iff_of_true ⟨s, rfl, hbreaks⟩ (.inl rfl)
  | lost pending s e hbreaks hroom => exact iff_of_true ⟨s, rfl, hbreaks⟩ (.inl rfl)
  | spent pending s fault hbreaks hspent => exact iff_of_true ⟨s, rfl, hbreaks⟩ (.inr rfl)
  | delivered pending s fields hrow =>
    refine iff_of_false (hunbroken fun hbreaks => ?_) (by simp [Mark.reopens, Mark.spends])
    exact absurd (Page.lt_of_line?_eq_some hrow) (Nat.not_lt.2 hbreaks.2.1)
  | exhausted pending s hs =>
    exact iff_of_false (hunbroken hs) (by simp [Mark.reopens, Mark.spends])
  | rejected pending s e hs hother =>
    exact iff_of_false (hunbroken hs) (by simp [Mark.reopens, Mark.spends])

/-- How many reconnects count where the result is opened again, and where the budget is spent. -/
theorem Moves.reconnects {limit : Nat} {p p' : Position} {mark : Mark} (h : Moves limit p mark p')
    (n : Nat) (hn : ∀ s, p.current = some s → n = s.reconnects) :
    (mark.reopens → n < limit) ∧ (mark.spends → n = limit) := by
  cases h with
  | reopened pending s page hbreaks hroom =>
    exact ⟨fun _ => hn s rfl ▸ hroom, nofun⟩
  | lost pending s e hbreaks hroom => exact ⟨fun _ => hn s rfl ▸ hroom, nofun⟩
  | spent pending s fault hbreaks hspent => exact ⟨nofun, fun _ => hn s rfl ▸ hspent⟩
  | _ => exact ⟨nofun, nofun⟩

namespace Walk

variable {limit : Nat} {p p' : Position} {marks : List Mark}

theorem within (h : Walk limit p marks p') (hp : p.Within limit) : p'.Within limit := by
  induction h with
  | nil p => exact hp
  | cons p q q' mark marks hmove h ih => exact ih (hmove.within hp)

/-- Where no result is being read, only a mark that grants a budget can follow. -/
theorem eq_nil (h : Walk limit p marks p') (hp : p.current = none)
    (hgrants : ∀ mark ∈ marks, ¬ mark.Grants) : marks = [] := by
  cases h with
  | nil => rfl
  | cons _ _ _ mark marks hmove h =>
    have hgrant := hgrants mark List.mem_cons_self
    cases hmove with
    | renewed => exact absurd (.inl rfl) hgrant
    | opened => exact absurd (.inr rfl) hgrant
    | refused => exact absurd (.inr rfl) hgrant
    | _ => cases hp

/-- As long as no budget begins anew, no more reconnects are made than are left of it. -/
theorem reopens_le (h : Walk limit p marks p') (hgrants : ∀ mark ∈ marks, ¬ mark.Grants)
    (s : Standing) (hs : p.current = some s) (hle : s.reconnects ≤ limit) :
    s.reconnects + marks.countP Mark.reopens ≤ limit := by
  induction h generalizing s with
  | nil p => exact hle
  | cons p q q' mark marks hmove h ih =>
    have hrest : ∀ mark ∈ marks, ¬ mark.Grants :=
      fun mark hmem => hgrants mark (List.mem_cons_of_mem _ hmem)
    cases hmove with
    | renewed => exact absurd (.inl rfl) (hgrants _ List.mem_cons_self)
    | opened => cases hs
    | refused => cases hs
    | reopened pending s page hbreaks hroom =>
      cases hs
      have hcount := ih hrest _ rfl hroom
      rw [List.countP_cons_of_pos rfl]
      dsimp only at hcount
      omega
    | lost pending s e hbreaks hroom =>
      cases hs
      rw [h.eq_nil rfl hrest]
      exact hroom
    | delivered pending s fields hrow =>
      cases hs
      exact ih hrest (s.deliver fields) rfl hle
    | _ =>
      cases hs
      rw [h.eq_nil rfl hrest]
      exact hle

/-- The marks tell how many reconnects count. -/
theorem foldl_tally (h : Walk limit p marks p') (n : Nat)
    (hn : ∀ s, p.current = some s → n = s.reconnects) (s : Standing)
    (hs : p'.current = some s) : marks.foldl Mark.tally n = s.reconnects := by
  induction h generalizing n with
  | nil p => exact hn s hs
  | cons p q q' mark marks hmove h ih =>
    refine ih (mark.tally n) (fun s' hs' => ?_) hs
    cases hmove with
    | renewed =>
      obtain ⟨s, -, rfl⟩ := Option.map_eq_some_iff.1 hs'
      rfl
    | opened =>
      cases hs'
      rfl
    | reopened pending s page hbreaks hroom =>
      cases hs'
      exact congrArg (· + 1) (hn s rfl)
    | delivered pending s fields hrow =>
      cases hs'
      exact hn s rfl
    | _ => cases hs'

/-- Results are opened for the first time in the order in which they are listed. -/
theorem firsts_isPrefix (h : Walk limit p marks p') :
    marks.filterMap Mark.first? <+: p.pending := by
  induction h with
  | nil p => exact List.nil_prefix
  | cons p q q' mark marks hmove h ih =>
    cases hmove with
    | opened reference pending page => exact (List.prefix_cons_inj reference).2 ih
    | refused reference pending e =>
      exact (List.prefix_cons_inj reference).2 (ih.trans List.nil_prefix)
    | lost => exact ih.trans List.nil_prefix
    | spent => exact ih.trans List.nil_prefix
    | rejected => exact ih.trans List.nil_prefix
    | _ => exact ih

/-- In a stretch within which no budget begins, a result is opened again at most as often as the
limit grants. -/
theorem countP_reopens_le (h : Walk limit p marks p') (hp : p.Within limit) {stretch : List Mark}
    (hstretch : stretch <:+: marks) (hgrants : ∀ mark ∈ stretch, ¬ mark.Grants) :
    stretch.countP Mark.reopens ≤ limit := by
  obtain ⟨before, behind, rfl⟩ := hstretch
  rw [List.append_assoc] at h
  obtain ⟨q, hbefore, hrest⟩ := h.split
  obtain ⟨q', hwalk, -⟩ := hrest.split
  cases hcurrent : q.current with
  | none =>
    rw [hwalk.eq_nil hcurrent hgrants]
    exact Nat.zero_le _
  | some s =>
    have hcount := hwalk.reopens_le hgrants s hcurrent (hbefore.within hp s hcurrent)
    omega

end Walk

/-- The record has the fields of a row, under some header. -/
def PairsTo (fields : List String) (r : Record) : Prop := ∃ header, r = .ofFields header fields

/-- What marks tell the caller: rows, an error that the last mark means, or that the reader had
failed before. -/
inductive Tells (context : StreamContext) (marks : List Mark) :
    Except ExtractError (List Record) → Prop
  | rows (records : List Record) (hquiet : ∀ mark ∈ marks, mark.error? context = none)
      (hrows : List.Forall₂ PairsTo (marks.filterMap Mark.row?) records) :
    Tells context marks (.ok records)
  | failed (before : List Mark) (last : Mark) (e : ExtractError) (hmarks : marks = before ++ [last])
      (hquiet : ∀ mark ∈ before, mark.error? context = none)
      (hlast : last.error? context = some e) : Tells context marks (.error e)
  | aborted (e : ExtractError) (hquiet : ∀ mark ∈ marks, mark.error? context = none)
      (hother : ¬ e.Transient) : Tells context marks (.error e)

theorem Tells.append {context : StreamContext} {marks more : List Mark} {records : List Record}
    {o : Except ExtractError (List Record)} (h : Tells context marks (.ok records))
    (h' : Tells context more o) : Tells context (marks ++ more) (o.map (records ++ ·)) := by
  obtain ⟨_, hquiet, hrows⟩ := h
  cases h' with
  | rows others hquiet' hrows' =>
    refine .rows _ (List.forall_mem_append.2 ⟨hquiet, hquiet'⟩) ?_
    rw [List.filterMap_append]
    exact List.rel_append hrows hrows'
  | failed before last e hmarks hquiet' hlast =>
    refine .failed (marks ++ before) last e ?_ (List.forall_mem_append.2 ⟨hquiet, hquiet'⟩) hlast
    rw [hmarks, List.append_assoc]
  | aborted e hquiet' hother =>
    exact .aborted e (List.forall_mem_append.2 ⟨hquiet, hquiet'⟩) hother

/-- An account of the exchanges that rows took, or the error that came instead of them. -/
structure Account (context : StreamContext) (p : Position) (log : List (Exchange services))
    (marks : List Mark) (p' : Position) (o : Except ExtractError (List Record)) : Prop where
  walk : Walk context.retryLimit p marks p'
  exchanges : log = marks.filterMap (Mark.exchange? context.job)
  kept : Mark.renewed ∉ marks
  tells : Tells context marks o
  shut : ∀ e, o = .error e → p' = .closed

namespace Account

variable {context : StreamContext} {p p' p'' : Position} {log more : List (Exchange services)}
  {marks others : List Mark} {records : List Record} {o : Except ExtractError (List Record)}

theorem nil (context : StreamContext) (p : Position) : Account context p [] [] p (.ok []) :=
  ⟨.nil p, rfl, by simp, .rows [] (by simp) .nil, fun e h => by cases h⟩

theorem length_rows (h : Account context p log marks p' (.ok records)) :
    (marks.filterMap Mark.row?).length = records.length := by
  obtain ⟨_, -, hrows⟩ := h.tells
  exact hrows.length_eq

theorem append (h : Account context p log marks p' (.ok records))
    (h' : Account context p' more others p'' o) :
    Account context p (log ++ more) (marks ++ others) p'' (o.map (records ++ ·)) := by
  refine ⟨h.walk.append h'.walk, ?_, ?_, h.tells.append h'.tells, fun e he => ?_⟩
  · rw [h.exchanges, h'.exchanges, List.filterMap_append]
  · exact List.not_mem_append h.kept h'.kept
  · cases o with
    | error e' => exact h'.shut e' rfl
    | ok records => cases he

/-- A mark that neither delivers a row nor means an error. -/
theorem quiet {mark : Mark} (hmove : Moves context.retryLimit p mark p')
    (hrenew : mark ≠ .renewed) (herror : mark.error? context = none) (hrow : mark.row? = none) :
    Account context p (mark.exchange? context.job).toList [mark] p' (.ok []) := by
  refine ⟨.single hmove, ?_, by simpa using hrenew.symm, .rows [] (by simpa using herror) ?_,
    fun e h => by cases h⟩
  · cases h : mark.exchange? context.job <;> simp [h]
  · simp [hrow]

theorem cons {mark : Mark} (hmove : Moves context.retryLimit p mark p') (hrenew : mark ≠ .renewed)
    (herror : mark.error? context = none) (hrow : mark.row? = none)
    (h : Account context p' log marks p'' o) :
    Account context p ((mark.exchange? context.job).toList ++ log) (mark :: marks) p'' o := by
  have happend := (Account.quiet hmove hrenew herror hrow).append h
  cases o <;> exact happend

theorem row {fields : List String} {r : Record}
    (hmove : Moves context.retryLimit p (.delivered fields) p') (hr : PairsTo fields r) :
    Account context p [] [.delivered fields] p' (.ok [r]) :=
  ⟨.single hmove, rfl, by simp, .rows [r] (by simp [Mark.error?, Mark.refusal?])
    (.cons hr .nil), fun e h => by cases h⟩

theorem error {mark : Mark} {e : ExtractError} (hmove : Moves context.retryLimit p mark .closed)
    (hrenew : mark ≠ .renewed) (herror : mark.error? context = some e) :
    Account context p (mark.exchange? context.job).toList [mark] .closed (.error e) := by
  refine ⟨.single hmove, ?_, by simpa using hrenew.symm,
    .failed [] mark e rfl (by simp) herror, fun _ _ => rfl⟩
  cases h : mark.exchange? context.job <;> simp [h]

end Account

end Harvest
