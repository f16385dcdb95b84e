import Harvest.Proofs.Local.Hosting
import Harvest.Proofs.Stream.Delivery
import Mathlib.Data.List.Forall2

/-!
# Reading results to their end

A reader whose results are all served whole gives their records in order, and then tells at every
fetch that there is no other one (`ResultReader.play_fetches`). Nothing is assumed of what else the
services do: only that each result is there whenever the reader may open it (`Gives`).
-/

namespace Harvest

open Program (play)

namespace Cursor

/-- The cursor stands in a page that gives all of a text, and `rest` are the records of the text
behind those delivered. -/
def Awaits (c : Cursor) (rest : List Record) : Prop :=
  ∃ content rows, c.Behind (.whole content) (Csv.header content) rows ∧
    rest = ((Csv.data content).drop rows.length).map (.ofFields (Csv.header content))

theorem awaits_start (reference : ResultReference) (content : String) :
    (start reference (.whole content)).Awaits (Csv.records content) :=
  ⟨content, [], behind_start reference _ content _ (.inl rfl), rfl⟩

variable (ctx : StreamContext) {c : Cursor}

theorem next_of_awaits_cons {record : Record} {rest : List Record} (h : c.Awaits (record :: rest)) :
    ∃ after, c.next ctx = .done (.ok (some record, after)) ∧ after.Awaits rest := by
  obtain ⟨content, rows, hbehind, hrest⟩ := h
  cases hdrop : (Csv.data content).drop rows.length with
  | nil =>
    rw [hdrop] at hrest
    cases hrest
  | cons fields others =>
    rw [hdrop] at hrest
    obtain ⟨rfl, rfl⟩ := List.cons.inj hrest
    have hrow : (Page.whole content).data[rows.length]? = some fields := by
      have hhead := congrArg List.head? hdrop
      rwa [List.head?_drop] at hhead
    obtain ⟨after, hread, hafter, -⟩ :=
      read_of_behind_row c (.whole content) (Csv.header content) fields rows hbehind hrow
    have hheader : (Page.whole content).headerAfter (Csv.header content) rows =
        Csv.header content := by
      unfold Page.headerAfter
      split
      · rfl
      · rfl
    rw [hheader] at hread hafter
    refine ⟨after, by rw [next, hread], content, rows ++ [fields], hafter, ?_⟩
    rw [List.length_append, List.length_singleton, ← List.drop_drop, hdrop]
    rfl

theorem next_of_awaits_nil (h : c.Awaits []) :
    ∃ after, c.next ctx = .done (.ok (none, after)) := by
  obtain ⟨content, rows, hbehind, hrest⟩ := h
  have hshort : (Page.whole content).data.length ≤ rows.length :=
    List.drop_eq_nil_iff.1 (List.map_eq_nil_iff.1 hrest.symm)
  obtain ⟨after, hread, -⟩ :=
    read_of_behind_end c (.whole content) (Csv.header content) rows hbehind hshort
  replace hread : c.read = .exhausted after := hread
  exact ⟨after, by rw [next, hread]⟩

end Cursor

namespace ResultReader

/-- The answers to `n` fetches: these records in order, and then that there is no other one. -/
def drained (n : Nat) (records : List Record) : List (Except ExtractError Fetch) :=
  (records.map (fun record => .ok (.row record)) ++ List.replicate n (.ok .finished) :
    List (Except ExtractError Fetch)).take n

theorem drained_nil (n : Nat) : drained (n + 1) [] = .ok .finished :: drained n [] := by
  simp [drained, List.replicate_succ]

theorem drained_cons (n : Nat) (record : Record) (records : List Record) :
    drained (n + 1) (record :: records) = .ok (.row record) :: drained n records := by
  simp [drained, List.take_append, List.take_replicate]
  omega

section Serving

variable {σ : Type} (answer : (r : Request) → σ → r.Reply × σ) (job : String) (here : σ → Prop)

/-- Wherever the services are, they give all of a text for a result, and stay where they may be. -/
def Gives (reference : ResultReference) (content : String) : Prop :=
  ∀ s, here s → ∃ s', answer (.openResult job reference) s = (.ok (.whole content), s') ∧ here s'

/-- The reader did not fail, and gives `rest` if its results are served. -/
structure Awaits (r : ResultReader) (rest : List Record) : Prop where
  failure : r.failure = none
  context : r.context.job = job
  rest : ∃ begun texts, List.Forall₂ (Gives answer job here) r.pending texts ∧
    rest = begun ++ texts.flatMap Csv.records ∧
    match r.cursor with
    | none => begun = []
    | some c => c.Awaits begun

/-- What a fetch answers and leaves of a reader that awaits these records. -/
def Fetched (rest : List Record) (o : Outcome × σ) : Prop :=
  o.1.1 = .ok (match rest with
    | [] => .finished
    | record :: _ => .row record) ∧
  o.1.2.Awaits answer job here rest.tail ∧ here o.2

variable {answer job here}

theorem fetched_deliver {r : ResultReader} {record : Record} {begun : List Record} {c : Cursor}
    {texts : List String} {s : σ} (hfailure : r.failure = none) (hjob : r.context.job = job)
    (htexts : List.Forall₂ (Gives answer job here) r.pending texts) (hc : c.Awaits begun)
    (hs : here s) :
    Fetched answer job here (record :: begun ++ texts.flatMap Csv.records)
      (r.deliver record c, s) :=
  ⟨rfl, ⟨hfailure, hjob, begun, texts, htexts, rfl, hc⟩, hs⟩

/-- A reader between two results goes on to the next one that has a record. -/
theorem play_fetchPending {r : ResultReader} {pending : List ResultReference} {texts : List String}
    {s : σ} (hfailure : r.failure = none) (hjob : r.context.job = job) (hcursor : r.cursor = none)
    (htexts : List.Forall₂ (Gives answer job here) pending texts) (hs : here s) :
    Fetched answer job here (texts.flatMap Csv.records)
      (play answer (fetchPending r pending) s).2 := by
  induction htexts generalizing r s with
  | nil =>
    refine ⟨rfl, ⟨hfailure, hjob, [], [], .nil, rfl, ?_⟩, hs⟩
    change match r.cursor with
      | none => ([] : List Record) = []
      | some c => c.Awaits []
    rw [hcursor]
  | @cons reference content pending texts hgives htexts ih =>
    obtain ⟨s', hopened, hs'⟩ := hgives s hs
    subst hjob
    have hstart := Cursor.awaits_start reference content
    rw [fetchPending, Program.snd_play_ask (S := services) answer hopened, List.flatMap_cons]
    dsimp only
    cases hrecords : Csv.records content with
    | nil =>
      -- a result without records is left for the next one
      rw [hrecords] at hstart
      obtain ⟨after, hnext⟩ := Cursor.next_of_awaits_nil r.context hstart
      rw [hnext]
      exact ih hfailure rfl rfl hs'
    | cons record others =>
      rw [hrecords] at hstart
      obtain ⟨after, hnext, hafter⟩ := Cursor.next_of_awaits_cons r.context hstart
      rw [hnext]
      exact fetched_deliver (r := { r with pending := pending }) hfailure rfl htexts hafter hs'

theorem Awaits.play_next {r : ResultReader} {rest : List Record} {s : σ}
    (h : r.Awaits answer job here rest) (hs : here s) :
    Fetched answer job here rest (play answer r.next s).2 := by
  obtain ⟨hfailure, hjob, begun, texts, htexts, rfl, hcursor⟩ := h
  rw [next, hfailure]
  cases hc : r.cursor with
  | none =>
    rw [hc] at hcursor
    obtain rfl : begun = [] := hcursor
    exact play_fetchPending hfailure hjob hc htexts hs
  | some c =>
    rw [hc] at hcursor
    replace hcursor : c.Awaits begun := hcursor
    cases begun with
    | nil =>
      obtain ⟨after, hnext⟩ := Cursor.next_of_awaits_nil r.context hcursor
      simp only [hnext]
      exact play_fetchPending (r := r.leave after) hfailure hjob rfl htexts hs
    | cons record others =>
      obtain ⟨after, hnext, hafter⟩ := Cursor.next_of_awaits_cons r.context hcursor
      simp only [hnext]
      exact fetched_deliver hfailure hjob htexts hafter hs

theorem Awaits.play_fetches (n : Nat) {r : ResultReader} {rest : List Record} {s : σ}
    (h : r.Awaits answer job here rest) (hs : here s) :
    (play answer (r.fetches n) s).2.1.1 = drained n rest := by
  induction n generalizing r rest s with
  | zero => rfl
  | succ n ih =>
    obtain ⟨hanswer, hawaits, hs'⟩ := h.play_next hs
    rw [fetches, Program.snd_play_bind, Program.snd_play_bind]
    change (play answer r.next s).2.1.1 :: _ = _
    rw [hanswer, ih hawaits hs']
    cases rest with
    | nil => exact (drained_nil n).symm
    | cons record rest => exact (drained_cons n record rest).symm

/-- Results that are served whole are read to their end. -/
theorem play_fetches {context : StreamContext} {references : List ResultReference}
    {texts : List String} {s : σ}
    (h : List.Forall₂ (Gives answer context.job here) references texts) (hs : here s) (n : Nat) :
    (play answer ((start context references).fetches n) s).2.1.1 =
      drained n (texts.flatMap Csv.records) :=
  Awaits.play_fetches n ⟨rfl, rfl, [], texts, h, rfl, rfl⟩ hs

end Serving

end ResultReader

end Harvest
