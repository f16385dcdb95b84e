import Harvest.Proofs.Stream.Marks

/-!
# Pages opened again, one after the other

A fetch opens a result again until a page is read on, an open is refused or the budget is spent: its
marks are reopenings and one mark more. A `Course` is made of such fetches, of first opens and of
renewals. So where a budget is spent there is an `Outage` behind it: the result as it was known
before its stream broke, and the pages opened since then, all of which break as well
(`Course.exists_outage`, `Walk.breaks_of_spent`). The fault told at last is that of the last page
that was taken up (`brokeLast_toldBehind`).
-/

namespace Harvest

open Program (Exchange)

namespace Mark

/-- The result was opened again, and it is read on. -/
def resumes : Mark → Bool
  | .reopened _ (.ok _) => true
  | _ => false

/-- A row was delivered, or a budget begins. -/
def Anew (mark : Mark) : Prop := mark.Grants ∨ mark.row?.isSome

theorem Grants.resumes_eq_false {mark : Mark} (h : mark.Grants) : mark.resumes = false := by
  rcases h with rfl | hfirst
  · rfl
  · cases mark <;> first | rfl | cases hfirst

end Mark

/-- The marks of a result that is opened again and again. -/
def reopenings (reference : ResultReference) (pages : List Page) : List Mark :=
  pages.map fun page => .reopened reference (.ok page)

theorem resumes_of_mem_reopenings {reference : ResultReference} {pages : List Page} {mark : Mark}
    (h : mark ∈ reopenings reference pages) : mark.resumes = true := by
  obtain ⟨page, -, rfl⟩ := List.mem_map.1 h
  rfl

section Told

variable {rows : List (List String)} {page : Page} {pages : List Page} {fault first : String}

/-- The fault that is told behind pages that break one after the other. -/
def toldBehind (rows : List (List String)) (fault : String) (pages : List Page) : String :=
  pages.foldl (fun fault page => page.told rows fault) fault

/-- Of the pages taken up, the last one broke with the fault. -/
def BrokeLast (rows : List (List String)) (pages : List Page) (fault : String) : Prop :=
  ∃ before page behind, pages = before ++ page :: behind ∧ page.TakenUp rows ∧
    page.broken = some fault ∧ ∀ other ∈ behind, ¬ other.TakenUp rows

theorem brokeLast_toldBehind (htaken : page.TakenUp rows) (hfirst : page.broken = some first)
    (hbreaks : ∀ other ∈ pages, other.Breaks rows) :
    BrokeLast rows (page :: pages) (toldBehind rows first pages) := by
  -- The last page either was taken up, or it changes nothing about what was told before.
  induction pages using List.reverseRecOn with
  | nil => exact ⟨[], page, [], rfl, htaken, hfirst, by simp⟩
  | append_singleton pages other ih =>
    rw [List.forall_mem_append, List.forall_mem_singleton] at hbreaks
    have htold : toldBehind rows first (pages ++ [other]) =
        other.told rows (toldBehind rows first pages) := by
      rw [toldBehind, List.foldl_append]
      rfl
    by_cases hother : other.TakenUp rows
    · obtain ⟨fault, hfault, -⟩ := other.broken_feed_of_not_ends hbreaks.2.1
      refine ⟨page :: pages, other, [], rfl, hother, ?_, by simp⟩
      rw [htold, Page.told, if_pos hother, hfault, Option.getD_some]
    · obtain ⟨before, last, behind, hpages, hlast, hfault, hbehind⟩ := ih hbreaks.1
      refine ⟨before, last, behind ++ [other], ?_, hlast, ?_, ?_⟩
      · rw [← List.cons_append, hpages, List.append_assoc, List.cons_append]
      · rw [htold, Page.told, if_neg hother, hfault]
      · exact List.forall_mem_append.2 ⟨hbehind, List.forall_mem_singleton.2 hother⟩

/-- Faults that differ tell whether a page was taken up behind the first one. -/
theorem BrokeLast.first_iff (h : BrokeLast rows (page :: pages) fault)
    (hdistinct : ((page :: pages).map Page.broken).Nodup) :
    page.broken = some fault ↔ ∀ other ∈ pages, ¬ other.TakenUp rows := by
  obtain ⟨before, last, behind, hpages, hlast, hfault, hbehind⟩ := h
  cases before with
  | nil =>
    cases hpages
    exact iff_of_true hfault hbehind
  | cons _ before =>
    cases hpages
    rw [List.map_cons, List.nodup_cons] at hdistinct
    refine iff_of_false (fun hsame => hdistinct.1 ?_) fun hnone => hnone last (by simp) hlast
    rw [hsame, ← hfault]
    exact List.mem_map_of_mem (by simp)

end Told

/-- The fault is the one that is told if the stream breaks, and so do the pages opened again. -/
def Standing.Tells (s : Standing) (pages : List Page) (fault : String) : Prop :=
  ∃ first, s.page.broken = some first ∧ s.page.TakenUp s.rows ∧
    fault = toldBehind s.rows first pages

/-- Marks that follow each other, fetch by fetch. -/
inductive Course (limit : Nat) : Position → List Mark → Position → Prop
  | nil (p : Position) : Course limit p [] p
  | begun (p p' p'' : Position) (mark : Mark) (marks : List Mark) (hmove : Moves limit p mark p')
      (hgrants : mark.Grants) (h : Course limit p' marks p'') :
    Course limit p (mark :: marks) p''
  | fetched (pending : List ResultReference) (s : Standing) (pages : List Page) (mark : Mark)
      (p' p'' : Position) (marks : List Mark)
      (hwalk : Walk limit ⟨pending, some s⟩ (reopenings s.reference pages ++ [mark]) p')
      (hstops : mark.resumes = false)
      (htells : ∀ reference fault, mark = .spent reference fault → s.Tells pages fault)
      (h : Course limit p' marks p'') :
    Course limit ⟨pending, some s⟩ (reopenings s.reference pages ++ mark :: marks) p''

theorem Course.append {limit : Nat} {p p' p'' : Position} {marks more : List Mark}
    (h : Course limit p marks p') (h' : Course limit p' more p'') :
    Course limit p (marks ++ more) p'' := by
  induction h with
  | nil p => exact h'
  | begun p q q' mark marks hmove hgrants h ih => exact .begun p q p'' mark _ hmove hgrants (ih h')
  | fetched pending s pages mark q q' marks hwalk hstops htells h ih =>
    rw [List.append_assoc]
    exact .fetched pending s pages mark q p'' _ hwalk hstops htells (ih h')

/-- An account whose marks follow each other fetch by fetch. -/
structure Chronicle (context : StreamContext) (p : Position) (log : List (Exchange services))
    (marks : List Mark) (p' : Position) (o : Except ExtractError (List Record)) : Prop
    extends Account context p log marks p' o where
  course : Course context.retryLimit p marks p'

namespace Chronicle

variable {context : StreamContext} {p p' p'' : Position} {log more : List (Exchange services)}
  {marks others : List Mark} {records : List Record} {o : Except ExtractError (List Record)}

theorem nil (context : StreamContext) (p : Position) : Chronicle context p [] [] p (.ok []) :=
  ⟨.nil context p, .nil p⟩

theorem append (h : Chronicle context p log marks p' (.ok records))
    (h' : Chronicle context p' more others p'' o) :
    Chronicle context p (log ++ more) (marks ++ others) p'' (o.map (records ++ ·)) :=
  ⟨h.toAccount.append h'.toAccount, h.course.append h'.course⟩

theorem opened {reference : ResultReference} {pending : List ResultReference} {page : Page}
    (h : Chronicle context ⟨pending, some ⟨reference, page, [], 0⟩⟩ log marks p' o) :
    Chronicle context ⟨reference :: pending, none⟩
      (⟨.openResult context.job reference, .ok page⟩ :: log)
      (.opened reference (.ok page) :: marks) p' o :=
  ⟨.cons (.opened reference pending page) (by simp) rfl rfl h.toAccount,
    .begun _ _ p' _ marks (.opened reference pending page) (.inr rfl) h.course⟩

theorem refused (reference : ResultReference) (pending : List ResultReference) (e : ExtractError) :
    Chronicle context ⟨reference :: pending, none⟩ [⟨.openResult context.job reference, .error e⟩]
      [.opened reference (.error e)] .closed (.error e) :=
  ⟨.error (.refused reference pending e) (by simp) rfl,
    .begun _ _ _ _ [] (.refused reference pending e) (.inr rfl) (.nil _)⟩

end Chronicle

/-- A stretch within which a result was opened again only. -/
structure Outage where
  /-- What happened before. -/
  before : List Mark
  /-- The results that were not opened yet. -/
  pending : List ResultReference
  /-- The result as it was known when its stream broke. -/
  standing : Standing
  /-- The pages opened since then. -/
  pages : List Page

namespace Outage

/-- The outage ends the marks, the budget is spent behind them, and the fault is told. -/
structure Behind (limit : Nat) (p : Position) (marks : List Mark) (reference : ResultReference)
    (fault : String) (o : Outage) : Prop where
  marks_eq : marks = o.before ++ reopenings o.standing.reference o.pages
  begins : ∀ mark, o.before.getLast? = some mark → mark.resumes = false
  reaches : Walk limit p o.before ⟨o.pending, some o.standing⟩
  spends : ∃ p', Walk limit ⟨o.pending, some o.standing⟩
    (reopenings o.standing.reference o.pages ++ [.spent reference fault]) p'
  tells : o.standing.Tells o.pages fault

variable {limit : Nat} {p q : Position} {marks : List Mark} {reference : ResultReference}
  {fault : String} {o : Outage}

/-- The stream that breaks is the one that is being read at first. -/
theorem behind_at_once {pending : List ResultReference} {s : Standing} {pages : List Page}
    (hspends : Walk limit ⟨pending, some s⟩
      (reopenings s.reference pages ++ [.spent reference fault]) p)
    (htells : s.Tells pages fault) :
    (Outage.mk [] pending s pages).Behind limit ⟨pending, some s⟩ (reopenings s.reference pages)
      reference fault where
  marks_eq := rfl
  begins := nofun
  reaches := .nil _
  spends := ⟨p, hspends⟩
  tells := htells

theorem Behind.prepend {lead : List Mark} {last : Mark} (hlead : Walk limit q (lead ++ [last]) p)
    (hlast : last.resumes = false) (h : o.Behind limit p marks reference fault) :
    { o with before := lead ++ last :: o.before }.Behind limit q (lead ++ last :: marks) reference
      fault := by
  have hjoined : lead ++ last :: o.before = lead ++ [last] ++ o.before := List.append_cons ..
  refine ⟨?_, fun mark hmark => ?_, ?_, h.spends, h.tells⟩
  · rw [h.marks_eq, List.append_assoc, List.cons_append]
  · dsimp only at hmark
    rw [hjoined, List.getLast?_append, List.getLast?_concat] at hmark
    cases hbefore : o.before.getLast? with
    | none =>
      rw [hbefore] at hmark
      exact Option.some.inj hmark ▸ hlast
    | some other =>
      rw [hbefore] at hmark
      exact h.begins mark (hbefore.trans hmark)
  · dsimp only
    exact hjoined ▸ hlead.append h.reaches

end Outage

/-- Behind every budget that is spent there is an outage. -/
theorem Course.exists_outage {limit : Nat} {p p' : Position} {marks front rest : List Mark}
    {reference : ResultReference} {fault : String} (h : Course limit p marks p')
    (hmarks : marks = front ++ .spent reference fault :: rest) :
    ∃ o : Outage, o.Behind limit p front reference fault := by
  -- Either it is this fetch by which the budget is spent, or its marks come before the outage.
  induction h generalizing front with
  | nil p => simp at hmarks
  | begun p q q' mark marks hmove hgrants h ih =>
    rcases front with _ | ⟨first, front⟩
    · cases hmarks
      rcases hgrants with hsame | hfirst
      · cases hsame
      · cases hfirst
    · cases hmarks
      obtain ⟨o, ho⟩ := ih rfl
      have hlead : Walk limit p ([] ++ [mark]) q := .single hmove
      exact ⟨_, ho.prepend hlead hgrants.resumes_eq_false⟩
  | fetched pending s pages mark q q' marks hwalk hstops htells h ih =>
    rcases List.append_eq_append_iff.1 hmarks with ⟨behind, rfl, hbehind⟩ | ⟨passed, hpassed, hrest⟩
    · rcases behind with _ | ⟨first, behind⟩
      · cases hbehind
        rw [List.append_nil]
        exact ⟨_, Outage.behind_at_once hwalk (htells _ _ rfl)⟩
      · cases hbehind
        obtain ⟨o, ho⟩ := ih rfl
        exact ⟨_, ho.prepend hwalk hstops⟩
    · rcases passed with _ | ⟨first, passed⟩
      · cases hrest
        obtain rfl : reopenings s.reference pages = front := by rw [hpassed, List.append_nil]
        exact ⟨_, Outage.behind_at_once hwalk (htells _ _ rfl)⟩
      · cases hrest
        have hmem : Mark.spent reference fault ∈ reopenings s.reference pages := by
          rw [hpassed]
          simp
        cases resumes_of_mem_reopenings hmem

/-- While a result is opened again and again each page breaks, and the budget is spent by them. -/
theorem Walk.breaks_of_spent {limit : Nat} {pending : List ResultReference} {s : Standing}
    {reference other : ResultReference} {pages : List Page} {fault : String} {p' : Position}
    (h : Walk limit ⟨pending, some s⟩ (reopenings reference pages ++ [.spent other fault]) p') :
    (∀ page ∈ s.page :: pages, page.Breaks s.rows) ∧ s.reconnects + pages.length = limit ∧
      other = s.reference := by
  induction pages generalizing s with
  | nil =>
    cases h with
    | cons _ _ _ _ _ hmove _ =>
      cases hmove with
      | spent _ _ _ hbreaks hspent => exact ⟨List.forall_mem_singleton.2 hbreaks, hspent, rfl⟩
  | cons page pages ih =>
    cases h with
    | cons _ _ _ _ _ hmove h =>
      cases hmove with
      | reopened _ _ _ hbreaks hroom =>
        obtain ⟨hothers, hcount, hsame⟩ := ih h
        refine ⟨List.forall_mem_cons.2 ⟨hbreaks, hothers⟩, ?_, hsame⟩
        dsimp only at hcount
        rw [List.length_cons]
        omega

end Harvest
