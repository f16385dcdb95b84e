import Harvest.Proofs.Stream.Budget

/-!
# Which fault is told

When the budget of a result is spent, the caller is told one of the faults met since the last row,
or since the budget began. `Batcher.transient_tells_last_read` says which one: that of the page that
was taken up last. Where the replay of the rows breaks each time, that is the first fault of all. A
page on which the rows are passed over, and one that is opened before there are any, has its own
fault told, also if no row was read of it (`Batcher.later_fault_told`).
-/

namespace Harvest

open Program (Trace Exchange)

/-- A page that is read on is reached by a row, by a first open, by a renewal or by another open. -/
theorem Walk.anew_of_reading {limit : Nat} {p : Position} {marks : List Mark} {mark : Mark}
    {pending : List ResultReference} {s : Standing}
    (h : Walk limit p (marks ++ [mark]) ⟨pending, some s⟩) (hstops : mark.resumes = false) :
    mark.Anew := by
  obtain ⟨q, -, hlast⟩ := h.split
  cases hlast with
  | cons _ _ _ _ _ hmove hend =>
    cases hmove with
    | renewed => exact .inl (.inl rfl)
    | opened => exact .inl (.inr rfl)
    | delivered => exact .inr rfl
    | reopened => cases hstops
    | _ => cases hend

namespace Outage

/-- How the budget of a result came to be spent, and the fault that is told of it. -/
structure Explains (limit : Nat) (references : List ResultReference) (marks : List Mark)
    (reference : ResultReference) (fault : String) (o : Outage) : Prop where
  marks_eq : marks = o.before ++ reopenings reference o.pages ++ [.spent reference fault]
  /-- Before it a row was delivered, or the budget began. -/
  since : ∃ earlier mark, o.before = earlier ++ [mark] ∧ mark.Anew
  reaches : Walk limit ⟨references, none⟩ o.before ⟨o.pending, some o.standing⟩
  reference_eq : o.standing.reference = reference
  spent : o.standing.reconnects + o.pages.length = limit
  /-- The faults met since then are those of the page that was being read, and of all the pages
  opened after it. -/
  breaks : ∀ page ∈ o.standing.page :: o.pages, page.Breaks o.standing.rows
  told : BrokeLast o.standing.rows (o.standing.page :: o.pages) fault
  /-- If the faults differ, the first one is told just where each replay met the break. -/
  first_told_iff : ((o.standing.page :: o.pages).map Page.broken).Nodup →
    (o.standing.page.broken = some fault ↔ ∀ page ∈ o.pages, ¬ page.TakenUp o.standing.rows)

theorem Behind.explains {limit : Nat} {references : List ResultReference} {marks : List Mark}
    {reference : ResultReference} {fault : String} {o : Outage}
    (h : o.Behind limit ⟨references, none⟩ marks reference fault) :
    o.Explains limit references (marks ++ [.spent reference fault]) reference fault := by
  obtain ⟨p', hspends⟩ := h.spends
  obtain ⟨hbreaks, hspent, hreference⟩ := hspends.breaks_of_spent
  obtain ⟨first, hfirst, htaken, htold⟩ := h.tells
  have hlast : BrokeLast o.standing.rows (o.standing.page :: o.pages) fault :=
    htold ▸ brokeLast_toldBehind htaken hfirst (List.forall_mem_cons.1 hbreaks).2
  refine ⟨?_, ?_, h.reaches, hreference.symm, hspent, hbreaks, hlast, hlast.first_iff⟩
  · rw [h.marks_eq, hreference]
  · have hreaches := h.reaches
    rcases List.eq_nil_or_concat o.before with hnil | ⟨earlier, mark, hbefore⟩
    · rw [hnil] at hreaches
      cases hreaches
    · rw [List.concat_eq_append] at hbefore
      rw [hbefore] at hreaches
      refine ⟨earlier, mark, hbefore, hreaches.anew_of_reading (h.begins mark ?_)⟩
      rw [hbefore, List.getLast?_concat]

end Outage

namespace Batcher

/-- Each call that fails with a broken stream has an outage behind it, and it tells the fault of the
page that was taken up last. -/
def TellLastRead (context : StreamContext) (references : List ResultReference)
    (turns : List Turn) : Prop :=
  ∀ done turn rest, turns = done ++ turn :: rest → (∀ mark ∈ turn.marks, mark.refusal? = none) →
    ∀ entity job reference attempts fault,
      turn.reply = .error (.transientStream entity job reference attempts fault) →
      ∃ o : Outage, o.Explains context.retryLimit references
        (done.flatMap Turn.marks ++ turn.marks) reference fault

/-- Whatever is called in whatever order, and whatever pages are served. -/
theorem transient_tells_last_read (context : StreamContext) (references : List ResultReference)
    (settings : Settings) (schema : Option (List String)) (cs : List Call)
    (log : List (Exchange services)) (replies : List (Except ExtractError Reply)) (after : Batcher)
    (ht : Trace ((start (.start context references) settings schema).calls cs) log
      (replies, after)) :
    ∃ turns last, Turns context (max settings.batchSize 1) ⟨references, none⟩ turns last ∧
      turns.map Turn.call = cs ∧ turns.map Turn.reply = replies ∧
      log = (turns.flatMap Turn.marks).filterMap (Mark.exchange? context.job) ∧
      TellLastRead context references turns := by
  have hat : (ResultReader.start context references).At context ⟨references, none⟩ :=
    .between rfl rfl rfl
  have hidle : Position.Within context.retryLimit ⟨references, none⟩ := by rintro s ⟨⟩
  obtain ⟨turns, last, hturns, hcourse, hcalls, hreplies, hlog⟩ :=
    course_of_trace_calls (b := start (.start context references) settings schema) cs hat ht
  refine ⟨turns, last, hturns, hcalls, hreplies, hlog, ?_⟩
  rintro done turn rest rfl hgranted entity job reference attempts fault hreply
  obtain ⟨q, q', -, hleads⟩ :=
    hturns.leads_of_mem hidle (List.mem_append_right _ List.mem_cons_self)
  obtain ⟨-, hlast⟩ := (hleads.transient_iff hgranted entity job reference attempts fault).1 hreply
  obtain ⟨within, hwithin⟩ := List.getLast?_eq_some_iff.1 hlast
  have hmarks : (done ++ turn :: rest).flatMap Turn.marks =
      done.flatMap Turn.marks ++ within ++ .spent reference fault :: rest.flatMap Turn.marks := by
    rw [List.flatMap_append, List.flatMap_cons, hwithin]
    simp
  obtain ⟨o, ho⟩ := hcourse.exists_outage hmarks
  refine ⟨o, ?_⟩
  rw [hwithin, ← List.append_assoc]
  exact ho.explains

/-- A result of two rows. Its stream breaks behind them twice, and then within the second row. -/
def brokenPages : List Page :=
  [.cut "A\n1\n2\n" 6 "first", .cut "A\n1\n2\n" 6 "second", .cut "A\n1\n2\n" 4 "third"]

/-- Fetches of a result that may be opened again twice. -/
def fetches (limit n : Nat) : Program services (List (Except ExtractError Reply) × Batcher) :=
  (start (.start ⟨"Account", "750", limit⟩ [⟨"b", "r"⟩]) { batchSize := 1 } none).calls
    (List.replicate n .fetch)

/-- The third open breaks while the rows are passed over, so the fault of the second one is told. -/
theorem transient_tells_last_read_second :
    ∃ log replies after, Trace ((start (.start ⟨"Account", "750", 2⟩ [⟨"b", "r"⟩])
        { batchSize := 1 } none).calls [.fetch, .fetch, .fetch]) log (replies, after) ∧
      log.filterMap Exchange.page? = brokenPages ∧
      replies = [.ok (.fetched (.row (.ofFields ["A"] ["1"]))),
        .ok (.fetched (.row (.ofFields ["A"] ["2"]))),
        .error (.transientStream "Account" "750" ⟨"b", "r"⟩ 2 "second")] ∧
      ∃ turns last, Turns ⟨"Account", "750", 2⟩ 1 ⟨[⟨"b", "r"⟩], none⟩ turns last ∧
        turns.map Turn.call = [.fetch, .fetch, .fetch] ∧ turns.map Turn.reply = replies ∧
        log = (turns.flatMap Turn.marks).filterMap (Mark.exchange? "750") ∧
        TellLastRead ⟨"Account", "750", 2⟩ [⟨"b", "r"⟩] turns := by
  have ht := Program.trace_play servePages (fetches 2 3) brokenPages
  have hplayed : (Program.play servePages (fetches 2 3) brokenPages).1.filterMap Exchange.page? =
        brokenPages ∧
      (Program.play servePages (fetches 2 3) brokenPages).2.1.1 =
        [.ok (.fetched (.row (.ofFields ["A"] ["1"]))),
          .ok (.fetched (.row (.ofFields ["A"] ["2"]))),
          .error (.transientStream "Account" "750" ⟨"b", "r"⟩ 2 "second")] := by
    decide +kernel
  exact ⟨_, _, _, ht, hplayed.1, hplayed.2, transient_tells_last_read _ _ _ _ _ _ _ _ ht⟩

/-- The fault told is not always the first one met since the last row. -/
theorem later_fault_told :
    ∃ log after, Trace ((start (.start ⟨"Account", "750", 1⟩ [⟨"b", "r"⟩])
        { batchSize := 1 } none).calls [.fetch, .fetch]) log
        ([.ok (.fetched (.row (.ofFields ["A"] ["1"]))),
          .error (.transientStream "Account" "750" ⟨"b", "r"⟩ 1 "second")], after) ∧
      log.filterMap Exchange.page? = [.cut "A\n1\n" 4 "first", .cut "A\n1\n" 4 "second"] := by
  let pages : List Page := [.cut "A\n1\n" 4 "first", .cut "A\n1\n" 4 "second"]
  have ht : Trace (fetches 1 2) (Program.play servePages (fetches 1 2) pages).1
      ((Program.play servePages (fetches 1 2) pages).2.1.1,
        (Program.play servePages (fetches 1 2) pages).2.1.2) := Program.trace_play _ _ _
  have hplayed : (Program.play servePages (fetches 1 2) pages).1.filterMap Exchange.page? =
        pages ∧
      (Program.play servePages (fetches 1 2) pages).2.1.1 =
        [.ok (.fetched (.row (.ofFields ["A"] ["1"]))),
          .error (.transientStream "Account" "750" ⟨"b", "r"⟩ 1 "second")] := by
    decide +kernel
  rw [hplayed.2] at ht
  exact ⟨_, _, ht, hplayed.1⟩

end Batcher

end Harvest
