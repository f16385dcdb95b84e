import Harvest.Proofs.Job.Rounds
import Mathlib.Data.List.Destutter

/-!
# The pace of the questions for batches

What may come directly behind an exchange is a matter of few cases (`Rota.Next`), and a preparation
that asks for its batches in rounds keeps to them (`Rota.Rounds.obeys`). The pace of the questions
is read off from that: one batch at a time, one sleep between two questions, and neither a question
nor a sleep more than is needed (`JobPlan.prepare_keeps_pace`).
-/

namespace Harvest

open Engine
open Program (Trace Exchange)
open Polling (Round waits)

section Projections

/-- The job and the batch that are asked for. -/
def asking? : Exchange services → Option (String × String)
  | ⟨.batchStatus job id, _⟩ => some (job, id)
  | _ => none

/-- The answer to a question for a batch, with the batch that was asked for. -/
def answer? : Exchange services → Option (String × BatchInfo)
  | ⟨.batchStatus _ id, .ok b⟩ => some (id, b)
  | _ => none

/-- The seconds of a sleep. -/
def sleeping? : Exchange services → Option Nat
  | ⟨.sleep seconds, _⟩ => some seconds
  | _ => none

variable {x : Exchange services} {log : List (Exchange services)}

theorem Quiet.asking?_eq_none (h : Quiet x) : asking? x = none := by
  obtain ⟨r, reply⟩ := x
  cases r <;> first | rfl | exact h.elim

theorem Quiet.answer?_eq_none (h : Quiet x) : answer? x = none := by
  obtain ⟨r, reply⟩ := x
  cases r <;> first | rfl | exact h.elim

theorem Quiet.sleeping?_eq_none (h : Quiet x) : sleeping? x = none := by
  obtain ⟨r, reply⟩ := x
  cases r <;> first | rfl | exact h.elim

theorem filterMap_eq_nil_of_quiet {β : Type} {f : Exchange services → Option β}
    (hf : ∀ {x}, Quiet x → f x = none) (h : ∀ x ∈ log, Quiet x) : log.filterMap f = [] :=
  List.filterMap_eq_nil_iff.2 fun x hx => hf (h x hx)

end Projections

namespace Polling

variable {job id : String} {interval patience : Nat} {final : BatchState → Bool}
  {polls : List (Exchange services)} {result : Except ExtractError BatchInfo}

theorem asking_waits (bs : List BatchInfo) :
    (waits job interval id bs).filterMap asking? = List.replicate bs.length (job, id) := by
  induction bs with
  | nil => rfl
  | cons b bs ih => exact congrArg ((job, id) :: ·) ih

theorem answer_waits (bs : List BatchInfo) :
    (waits job interval id bs).filterMap answer? = bs.map fun b => (id, b) := by
  induction bs with
  | nil => rfl
  | cons b bs ih => exact congrArg ((id, b) :: ·) ih

theorem sleeping_waits (bs : List BatchInfo) :
    (waits job interval id bs).filterMap sleeping? = List.replicate bs.length interval := by
  induction bs with
  | nil => rfl
  | cons b bs ih => exact congrArg (interval :: ·) ih

/-- In a round nothing but its batch is asked for. -/
theorem Round.asking (h : Round job interval patience final id polls result) :
    ∃ n, polls.filterMap asking? = List.replicate (n + 1) (job, id) := by
  obtain ⟨bs, reply, rfl⟩ : ∃ bs reply,
      polls = waits job interval id bs ++ [asked job id reply] := by
    cases h <;> exact ⟨_, _, rfl⟩
  refine ⟨bs.length, ?_⟩
  rw [List.filterMap_append, asking_waits, List.replicate_succ']
  rfl

end Polling

namespace Rota

variable (r : Rota)

/-- The patience ended with the batch still at work: the last answers are all about it, and there
were as many of them as the patience allows. -/
def Exhausted (id : String) (log : List (Exchange services)) : Prop :=
  ∃ bs : List BatchInfo, bs.length = r.patience + 1 ∧ (∀ b ∈ bs, r.isFinal id b.state = false) ∧
    bs.map (fun b => (id, b)) <:+ log.filterMap answer?

/-- The number of answers by which a batch is not done with. -/
def others (log : List (Exchange services)) : Nat :=
  (log.filterMap answer?).countP fun answer => !r.isFinal answer.1 answer.2.state

/-- It does not begin with a sleep. -/
def Rested (log : List (Exchange services)) : Prop :=
  ∀ seconds rest, log ≠ ⟨.sleep seconds, ()⟩ :: rest

/-- What may come behind an exchange. -/
inductive Next (gaveUp : String → Prop) : Exchange services → List (Exchange services) → Prop
  | quiet (x : Exchange services) (after : List (Exchange services)) (hx : Quiet x)
      (hafter : Rested after) :
    Next gaveUp x after
  | slept (id : String) (reply : Except ExtractError BatchInfo) (rest : List (Exchange services)) :
    Next gaveUp ⟨.sleep r.interval, ()⟩ (asked r.job id reply :: rest)
  | pending (id : String) (b : BatchInfo) (reply : Except ExtractError BatchInfo)
      (rest : List (Exchange services)) (hb : r.isFinal id b.state = false) :
    Next gaveUp (asked r.job id (.ok b)) (⟨.sleep r.interval, ()⟩ :: asked r.job id reply :: rest)
  | exhausted (id : String) (b : BatchInfo) (after : List (Exchange services))
      (hb : r.isFinal id b.state = false) (hgave : gaveUp id) (hafter : ∀ x ∈ after, Quiet x) :
    Next gaveUp (asked r.job id (.ok b)) after
  | refused (id : String) (e : ExtractError) (after : List (Exchange services))
      (hafter : ∀ x ∈ after, Quiet x) :
    Next gaveUp (asked r.job id (.error e)) after
  | settled (id : String) (b : BatchInfo) (after : List (Exchange services))
      (hb : r.isFinal id b.state = true) (hfresh : ∀ reply, asked r.job id reply ∉ after)
      (hrested : Rested after) (hbehind : r.Behind id b.state after)
      (hlast : (r.primary :: r.children).getLast? = some id → ∀ x ∈ after, Quiet x) :
    Next gaveUp (asked r.job id (.ok b)) after

/-- Behind every exchange comes what may come there. -/
def Obeys (gaveUp : String → Prop) (log : List (Exchange services)) : Prop :=
  ∀ x after, x :: after <:+ log → r.Next gaveUp x after

variable {r} {gaveUp : String → Prop} {log rest : List (Exchange services)} {ids left : List String}
  {stop : Option ExtractError}

theorem rested_of_quiet (h : ∀ x ∈ log, Quiet x) : Rested log := by
  rintro seconds rest rfl
  exact h _ List.mem_cons_self

theorem Obeys.cons {x : Exchange services} (hx : r.Next gaveUp x log) (h : r.Obeys gaveUp log) :
    r.Obeys gaveUp (x :: log) := by
  intro y after hsuffix
  rcases List.suffix_cons_iff.1 hsuffix with heq | hsuffix
  · cases heq
    exact hx
  · exact h y after hsuffix

theorem obeys_of_quiet (h : ∀ x ∈ log, Quiet x) : r.Obeys gaveUp log := by
  intro x after hsuffix
  have hall : ∀ y ∈ x :: after, Quiet y := fun y hy => h y (hsuffix.subset hy)
  obtain ⟨hx, hafter⟩ := List.forall_mem_cons.1 hall
  exact .quiet x after hx (rested_of_quiet hafter)

theorem obeys_waits {id : String} {reply : Except ExtractError BatchInfo} (bs : List BatchInfo)
    (hbs : ∀ b ∈ bs, r.isFinal id b.state = false)
    (h : r.Obeys gaveUp (asked r.job id reply :: rest)) :
    r.Obeys gaveUp (waits r.job r.interval id bs ++ asked r.job id reply :: rest) ∧
      ∃ reply' rest', waits r.job r.interval id bs ++ asked r.job id reply :: rest =
        asked r.job id reply' :: rest' := by
  induction bs with
  | nil => exact ⟨h, reply, rest, rfl⟩
  | cons b bs ih =>
    obtain ⟨hb, hbs⟩ := List.forall_mem_cons.1 hbs
    obtain ⟨hobeys, reply', rest', heq⟩ := ih hbs
    have heq' : waits r.job r.interval id (b :: bs) ++ asked r.job id reply :: rest =
        asked r.job id (.ok b) :: ⟨.sleep r.interval, ()⟩ :: asked r.job id reply' :: rest' :=
      congrArg (asked r.job id (.ok b) :: ⟨.sleep r.interval, ()⟩ :: ·) heq
    rw [heq']
    rw [heq] at hobeys
    exact ⟨.cons (.pending id b reply' rest' hb) (.cons (.slept id reply' rest') hobeys), _, _, rfl⟩

theorem destutter_replicate_append {α : Type} [DecidableEq α] {a : α} {l : List α} (h : a ∉ l)
    (n : Nat) : (List.replicate (n + 1) a ++ l).destutter (· ≠ ·) = a :: l.destutter (· ≠ ·) := by
  induction n with
  | zero =>
    cases l with
    | nil => rfl
    | cons b l =>
      have hne : a ≠ b := fun hab => h (hab ▸ List.mem_cons_self)
      change (a :: b :: l).destutter (· ≠ ·) = _
      rw [List.destutter_cons_cons, if_pos hne, List.destutter_cons']
  | succ n ih =>
    have hhead : List.replicate (n + 1) a ++ l = a :: (List.replicate n a ++ l) := rfl
    rw [hhead] at ih
    change (a :: a :: (List.replicate n a ++ l)).destutter (· ≠ ·) = _
    rw [List.destutter_cons_cons, if_neg (fun hne => hne rfl), ← List.destutter_cons', ih]

namespace Rounds

/-- Only the batches that may be asked for are asked for. -/
theorem mem_ids (h : r.Rounds ids log stop left) :
    ∀ q ∈ log.filterMap asking?, ∃ id ∈ ids, q = (r.job, id) := by
  induction h with
  | nil ids => exact List.forall_mem_nil _
  | quiet ids x log stop left hx h ih =>
    rw [List.filterMap_cons_none hx.asking?_eq_none]
    exact ih
  | settled id ids polls b rest stop left hround hfresh hbehind hrest ih =>
    obtain ⟨n, hn⟩ := hround.asking
    rw [List.filterMap_append, hn]
    refine List.forall_mem_append.2 ⟨fun q hq => ?_, fun q hq => ?_⟩
    · exact ⟨id, List.mem_cons_self, List.eq_of_mem_replicate hq⟩
    · obtain ⟨id', hid', rfl⟩ := ih q hq
      exact ⟨id', List.mem_cons_of_mem _ hid', rfl⟩
  | broken id ids polls e rest hround hrest =>
    obtain ⟨n, hn⟩ := hround.asking
    rw [List.filterMap_append, hn, filterMap_eq_nil_of_quiet Quiet.asking?_eq_none hrest,
      List.append_nil]
    exact fun q hq => ⟨id, List.mem_cons_self, List.eq_of_mem_replicate hq⟩

/-- A batch that may not be asked for is not. -/
theorem not_mem (h : r.Rounds ids log stop left) {id : String} (hid : id ∉ ids)
    (reply : Except ExtractError BatchInfo) : asked r.job id reply ∉ log := by
  intro hmem
  obtain ⟨id', hid', heq⟩ := h.mem_ids (r.job, id) (List.mem_filterMap.2 ⟨_, hmem, rfl⟩)
  cases heq
  exact hid hid'

/-- The batches take turns in their order, up to those that are left. -/
theorem turns (h : r.Rounds ids log stop left) :
    (log.filterMap asking?).destutter (· ≠ ·) ++ left.map (r.job, ·) = ids.map (r.job, ·) := by
  induction h with
  | nil ids => rfl
  | quiet ids x log stop left hx h ih =>
    rw [List.filterMap_cons_none hx.asking?_eq_none]
    exact ih
  | settled id ids polls b rest stop left hround hfresh hbehind hrest ih =>
    obtain ⟨n, hn⟩ := hround.asking
    have hnew : (r.job, id) ∉ rest.filterMap asking? := by
      intro hmem
      obtain ⟨id', hid', heq⟩ := hrest.mem_ids _ hmem
      cases heq
      exact hfresh hid'
    rw [List.filterMap_append, hn, destutter_replicate_append hnew, List.cons_append, ih]
    rfl
  | broken id ids polls e rest hround hrest =>
    obtain ⟨n, hn⟩ := hround.asking
    rw [List.filterMap_append, hn, filterMap_eq_nil_of_quiet Quiet.asking?_eq_none hrest,
      destutter_replicate_append List.not_mem_nil]
    rfl

theorem rested (h : r.Rounds ids log stop left) : Rested log := by
  have hpolls {polls rest : List (Exchange services)} {id : String}
      {reply : Except ExtractError BatchInfo}
      (hround : Round r.job r.interval r.patience (r.isFinal id) id polls reply) :
      Rested (polls ++ rest) := by
    intro seconds rest' heq
    obtain ⟨bs, reply', rfl⟩ : ∃ bs reply', polls =
        waits r.job r.interval id bs ++ [asked r.job id reply'] := by
      cases hround <;> exact ⟨_, _, rfl⟩
    cases bs <;> cases heq
  cases h with
  | nil => exact nofun
  | quiet _ x log _ _ hx h =>
    rintro seconds rest ⟨⟩
    exact hx
  | settled id ids polls b rest stop left hround hfresh hbehind hrest => exact hpolls hround
  | broken id ids polls e rest hround hrest => exact hpolls hround

theorem quiet_of_nil (h : r.Rounds [] log stop left) : ∀ x ∈ log, Quiet x := by
  generalize hids : ([] : List String) = ids at h
  induction h with
  | nil => exact List.forall_mem_nil _
  | quiet ids x log stop left hx h ih => exact List.forall_mem_cons.2 ⟨hx, ih hids⟩
  | settled => cases hids
  | broken => cases hids

end Rounds

/-- Behind the last element of a list there is none. -/
theorem eq_nil_of_suffix {all : List String} {id : String} (hsuffix : id :: ids <:+ all)
    (hlast : all.getLast? = some id) (hfresh : id ∉ ids) : ids = [] := by
  obtain ⟨first, rfl⟩ := hsuffix
  rw [List.getLast?_append, List.getLast?_cons, Option.some_or] at hlast
  cases h : ids.getLast? with
  | none => exact List.getLast?_eq_none_iff.1 h
  | some other =>
    rw [h, Option.getD_some] at hlast
    cases hlast
    exact absurd (List.mem_of_getLast? h) hfresh

theorem Exhausted.append {id : String} (h : r.Exhausted id log) (first : List (Exchange services)) :
    r.Exhausted id (first ++ log) := by
  obtain ⟨bs, hlength, hbs, hsuffix⟩ := h
  refine ⟨bs, hlength, hbs, ?_⟩
  rw [List.filterMap_append]
  exact hsuffix.trans (List.suffix_append _ _)

theorem exhausted_of_waits {id : String} {bs : List BatchInfo} {b : BatchInfo}
    (hbs : ∀ b ∈ bs, r.isFinal id b.state = false) (hb : r.isFinal id b.state = false)
    (hlength : bs.length = r.patience) (hrest : ∀ x ∈ rest, Quiet x) :
    r.Exhausted id ((waits r.job r.interval id bs ++ [asked r.job id (.ok b)]) ++ rest) := by
  refine ⟨bs ++ [b], by simp [hlength], ?_, ?_⟩
  · exact List.forall_mem_append.2 ⟨hbs, List.forall_mem_singleton.2 hb⟩
  · rw [List.filterMap_append, List.filterMap_append, Polling.answer_waits, List.map_append,
      filterMap_eq_nil_of_quiet Quiet.answer?_eq_none hrest, List.append_nil]
    exact List.suffix_rfl

theorem others_append (first rest : List (Exchange services)) :
    r.others (first ++ rest) = r.others first + r.others rest := by
  rw [others, List.filterMap_append, List.countP_append]
  rfl

theorem others_eq_zero_of_quiet (h : ∀ x ∈ log, Quiet x) : r.others log = 0 := by
  rw [others, filterMap_eq_nil_of_quiet Quiet.answer?_eq_none h]
  rfl

theorem others_waits {id : String} {bs : List BatchInfo}
    (hbs : ∀ b ∈ bs, r.isFinal id b.state = false) :
    r.others (waits r.job r.interval id bs) = bs.length := by
  rw [others, Polling.answer_waits, List.countP_map]
  refine List.countP_eq_length.2 fun b hb => ?_
  simp [hbs b hb]

theorem others_asked (id : String) (b : BatchInfo) :
    r.others [asked r.job id (.ok b)] = (!r.isFinal id b.state).toNat := by
  change List.countP _ [(id, b)] = _
  cases h : r.isFinal id b.state <;> simp [h]

/-- There is one sleep for each answer by which a batch is not done with, and each of them lasts as
long as the others; only the last sleep is missing if the patience ends. -/
theorem Rounds.sleeps (h : r.Rounds ids log stop left) :
    ∃ n, log.filterMap sleeping? = List.replicate n r.interval ∧
      (r.others log = n ∨ r.others log = n + 1 ∧
        ∃ id, stop = some (.unsettled r.job id) ∧ r.Exhausted id log) := by
  induction h with
  | nil ids => exact ⟨0, rfl, .inl rfl⟩
  | quiet ids x log stop left hx h ih =>
    have hothers : r.others (x :: log) = r.others log := by
      rw [others, List.filterMap_cons_none hx.answer?_eq_none, others]
    rw [List.filterMap_cons_none hx.sleeping?_eq_none, hothers]
    obtain ⟨n, hn, hcount⟩ := ih
    refine ⟨n, hn, hcount.imp_right fun ⟨hmore, id, hid, hexhausted⟩ => ?_⟩
    exact ⟨hmore, id, hid, hexhausted.append [x]⟩
  | settled id ids polls b rest stop left hround hfresh hbehind hrest ih =>
    obtain ⟨n, hn, hcount⟩ := ih
    obtain ⟨m, hm, hothers⟩ : ∃ m, polls.filterMap sleeping? = List.replicate m r.interval ∧
        r.others polls = m := by
      cases hround with
      | settled bs _ hbs hb =>
        refine ⟨bs.length, ?_, ?_⟩
        · rw [List.filterMap_append, Polling.sleeping_waits]
          exact List.append_nil _
        · rw [others_append, others_waits hbs, others_asked, hb]
          rfl
    refine ⟨m + n, ?_, ?_⟩
    · rw [List.filterMap_append, hm, hn, List.replicate_append_replicate]
    · rw [others_append, hothers]
      refine hcount.imp (congrArg (m + ·)) fun ⟨hmore, id, hid, hexhausted⟩ => ?_
      exact ⟨by rw [hmore, Nat.add_assoc], id, hid, hexhausted.append polls⟩
  | broken id ids polls e rest hround hrest =>
    have hnone := filterMap_eq_nil_of_quiet Quiet.sleeping?_eq_none hrest
    rw [others_append, others_eq_zero_of_quiet hrest, List.filterMap_append, hnone, List.append_nil,
      Nat.add_zero]
    cases hround with
    | refused bs _ hbs =>
      refine ⟨bs.length, ?_, .inl ?_⟩
      · rw [List.filterMap_append, Polling.sleeping_waits]
        exact List.append_nil _
      · rw [others_append, others_waits hbs]
        rfl
    | exhausted bs b hbs hb hlength =>
      refine ⟨bs.length, ?_, .inr ⟨?_, id, rfl, exhausted_of_waits hbs hb hlength hrest⟩⟩
      · rw [List.filterMap_append, Polling.sleeping_waits]
        exact List.append_nil _
      · rw [others_append, others_waits hbs, others_asked, hb]
        rfl

/-- A preparation that asks in rounds keeps to what may come behind each exchange. -/
theorem Rounds.obeys (h : r.Rounds ids log stop left)
    (hsuffix : ids <:+ r.primary :: r.children)
    (hgave : ∀ id, stop = some (.unsettled r.job id) → r.Exhausted id log → gaveUp id) :
    r.Obeys gaveUp log := by
  induction h with
  | nil ids => exact obeys_of_quiet (List.forall_mem_nil _)
  | quiet ids x log stop left hx h ih =>
    exact .cons (.quiet x log hx h.rested)
      (ih hsuffix fun id hid hexhausted => hgave id hid (hexhausted.append [x]))
  | settled id ids polls b rest stop left hround hfresh hbehind hrest ih =>
    have hobeys := ih ((List.suffix_cons id ids).trans hsuffix)
      fun id hid hexhausted => hgave id hid (hexhausted.append polls)
    cases hround with
    | settled bs _ hbs hb =>
      rw [List.append_assoc]
      refine (obeys_waits bs hbs (.cons ?_ hobeys)).1
      refine .settled id b rest hb (hrest.not_mem hfresh) hrest.rested hbehind fun hlast => ?_
      obtain rfl := eq_nil_of_suffix hsuffix hlast hfresh
      exact hrest.quiet_of_nil
  | broken id ids polls e rest hround hrest =>
    cases hround with
    | refused bs _ hbs =>
      rw [List.append_assoc]
      exact (obeys_waits bs hbs (.cons (.refused id e rest hrest) (obeys_of_quiet hrest))).1
    | exhausted bs b hbs hb hlength =>
      have hgaveUp := hgave id rfl (exhausted_of_waits hbs hb hlength hrest)
      rw [List.append_assoc]
      exact (obeys_waits bs hbs (.cons (.exhausted id b rest hb hgaveUp hrest)
        (obeys_of_quiet hrest))).1

/-- How the batches of a job are asked for, whatever states are told. -/
structure KeepsPace {α : Type} (r : Rota) (log : List (Exchange services))
    (result : Except ExtractError α) : Prop where
  /-- The batches take turns in their order. -/
  in_order : (log.filterMap asking?).destutter (· ≠ ·) <+: (r.primary :: r.children).map (r.job, ·)
  /-- All of them had their turn where the preparation ends well. -/
  all_asked : ∀ a, result = .ok a →
    (log.filterMap asking?).destutter (· ≠ ·) = (r.primary :: r.children).map (r.job, ·)
  /-- The children are those that are listed directly behind the last answer for the batch that was
  split. -/
  listed : ∀ before b after, log = before ++ asked r.job r.primary (.ok b) :: after →
    r.isFinal r.primary b.state = true → b.state = .notProcessed → ∃ reply rest,
      after = ⟨.listBatches r.job, reply⟩ :: rest ∧
        ∀ batches, reply = .ok batches → r.children = (batches.drop 1).map BatchInfo.id
  /-- A batch is done with before the next one is asked for. -/
  one_at_a_time : ∀ before id reply mid id' reply' after,
    log = before ++ asked r.job id reply :: (mid ++ asked r.job id' reply' :: after) → id' ≠ id →
    (∀ x ∈ mid, asking? x = none) → ∃ b, reply = .ok b ∧ r.isFinal id b.state = true
  /-- Between two questions for a batch there is nothing but one sleep. -/
  one_sleep : ∀ before id reply mid reply' after,
    log = before ++ asked r.job id reply :: (mid ++ asked r.job id reply' :: after) →
    (∀ reply'', asked r.job id reply'' ∉ mid) → mid = [⟨.sleep r.interval, ()⟩]
  /-- As long as a batch is not done with it is asked for again, unless the patience ends. -/
  goes_on : ∀ before id b after, log = before ++ asked r.job id (.ok b) :: after →
    r.isFinal id b.state = false →
      (∃ reply rest, after = ⟨.sleep r.interval, ()⟩ :: asked r.job id reply :: rest) ∨
        result = .error (.unsettled r.job id) ∧ r.Exhausted id log ∧ ∀ x ∈ after, Quiet x
  /-- A batch that is done with is not asked for again, and nobody sleeps before another one is. -/
  final : ∀ before id b after, log = before ++ asked r.job id (.ok b) :: after →
    r.isFinal id b.state = true → (∀ reply, asked r.job id reply ∉ after) ∧
      ∀ mid seconds rest, after = mid ++ ⟨.sleep seconds, ()⟩ :: rest →
        ∃ x ∈ mid, asking? x ≠ none
  /-- There are as many sleeps as answers by which a batch is not done with, each of them as long as
  the interval. -/
  sleeps : ∃ n, log.filterMap sleeping? = List.replicate n r.interval ∧
    (r.others log = n ∨ r.others log = n + 1 ∧
      ∃ id, result = .error (.unsettled r.job id) ∧ r.Exhausted id log)
  /-- Nothing is asked for or waited for behind the last final state that matters. -/
  ends : ∀ before id b after, log = before ++ asked r.job id (.ok b) :: after →
    r.isFinal id b.state = true →
    b.state = .failed ∨ id = r.primary ∧ b.state = .completed ∨
      (r.primary :: r.children).getLast? = some id →
    ∀ x ∈ after, Quiet x

section Reading

variable {before mid after : List (Exchange services)} {id id' : String}
  {reply reply' : Except ExtractError BatchInfo}

theorem Obeys.next {x : Exchange services} (h : r.Obeys gaveUp log)
    (hlog : log = before ++ x :: after) : r.Next gaveUp x after :=
  h x after ⟨before, hlog.symm⟩

/-- Behind a question another one is asked only if the batch is done with, or after one sleep. -/
theorem Next.of_asked (h : r.Next gaveUp (asked r.job id reply) after)
    (hmem : asked r.job id' reply' ∈ after) :
    (∃ b, reply = .ok b ∧ r.isFinal id b.state = true ∧
      ∀ reply'', asked r.job id reply'' ∉ after) ∨
    ∃ reply'' rest, after = ⟨.sleep r.interval, ()⟩ :: asked r.job id reply'' :: rest := by
  cases h with
  | quiet _ _ hx hafter => exact hx.elim
  | pending _ b reply'' rest hb => exact .inr ⟨reply'', rest, rfl⟩
  | exhausted _ b _ hb hgave hafter => exact (hafter _ hmem).elim
  | refused _ e _ hafter => exact (hafter _ hmem).elim
  | settled _ b _ hb hfresh hrested hbehind hlast => exact .inl ⟨b, rfl, hb, hfresh⟩

theorem Obeys.one_sleep (h : r.Obeys gaveUp log)
    (hlog : log = before ++ asked r.job id reply :: (mid ++ asked r.job id reply' :: after))
    (hmid : ∀ reply'', asked r.job id reply'' ∉ mid) : mid = [⟨.sleep r.interval, ()⟩] := by
  rcases (h.next hlog).of_asked (List.mem_append_right mid List.mem_cons_self) with
    ⟨b, -, -, hfresh⟩ | ⟨reply'', rest, heq⟩
  · exact absurd (List.mem_append_right mid List.mem_cons_self) (hfresh reply')
  · match mid, heq with
    | [], heq => cases heq
    | [x], heq =>
      cases heq
      rfl
    | x :: y :: mid, heq =>
      cases heq
      exact absurd (List.mem_cons_of_mem _ List.mem_cons_self) (hmid reply'')

theorem Obeys.one_at_a_time (h : r.Obeys gaveUp log)
    (hlog : log = before ++ asked r.job id reply :: (mid ++ asked r.job id' reply' :: after))
    (hne : id' ≠ id) (hmid : ∀ x ∈ mid, asking? x = none) :
    ∃ b, reply = .ok b ∧ r.isFinal id b.state = true := by
  rcases (h.next hlog).of_asked (List.mem_append_right mid List.mem_cons_self) with
    ⟨b, hb, hfinal, -⟩ | ⟨reply'', rest, heq⟩
  · exact ⟨b, hb, hfinal⟩
  · match mid, heq with
    | [], heq => cases heq
    | [x], heq =>
      cases heq
      exact absurd rfl hne
    | x :: y :: mid, heq =>
      cases heq
      cases hmid _ (List.mem_cons_of_mem _ List.mem_cons_self)

/-- A sleep directly follows a question for a batch. -/
theorem Obeys.asking_of_sleep {x : Exchange services} {seconds : Nat} (h : r.Obeys gaveUp log)
    (hlog : log = before ++ x :: ⟨.sleep seconds, ()⟩ :: after) :
    ∃ id b, x = asked r.job id (.ok b) ∧ r.isFinal id b.state = false := by
  cases h.next hlog with
  | quiet _ _ hx hafter => exact absurd rfl (hafter seconds after)
  | pending id b reply rest hb => exact ⟨id, b, rfl, hb⟩
  | exhausted id b _ hb hgave hafter => exact (hafter _ List.mem_cons_self).elim
  | refused id e _ hafter => exact (hafter _ List.mem_cons_self).elim
  | settled id b _ hb hfresh hrested hbehind hlast => exact absurd rfl (hrested seconds after)

theorem Obeys.final {b : BatchInfo} (h : r.Obeys gaveUp log)
    (hlog : log = before ++ asked r.job id (.ok b) :: after) (hb : r.isFinal id b.state = true) :
    (∀ reply, asked r.job id reply ∉ after) ∧ Rested after ∧ r.Behind id b.state after ∧
      ((r.primary :: r.children).getLast? = some id → ∀ x ∈ after, Quiet x) := by
  cases h.next hlog with
  | quiet _ _ hx hafter => exact hx.elim
  | pending _ _ reply rest hpending => exact absurd hb (by simp [hpending])
  | exhausted _ _ _ hpending hgave hafter => exact absurd hb (by simp [hpending])
  | settled _ _ _ hb hfresh hrested hbehind hlast => exact ⟨hfresh, hrested, hbehind, hlast⟩

end Reading

theorem Rounds.keepsPace {α : Type} {result : Except ExtractError α}
    (h : r.Rounds (r.primary :: r.children) log stop left) (hends : Ends stop left result) :
    r.KeepsPace log result := by
  have hobeys : r.Obeys (fun id => result = .error (.unsettled r.job id) ∧ r.Exhausted id log)
      log := h.obeys List.suffix_rfl fun id hid hexhausted => ⟨hends.1 _ hid, hexhausted⟩
  have hturns := h.turns
  constructor
  · exact ⟨_, hturns⟩
  · intro a ha
    rw [hends.2 a ha, List.map_nil, List.append_nil] at hturns
    exact hturns
  · intro before b after hlog hb hsplit
    exact (hobeys.final hlog hb).2.2.1.listed rfl hsplit
  · exact fun before id reply mid id' reply' after hlog => hobeys.one_at_a_time hlog
  · exact fun before id reply mid reply' after hlog => hobeys.one_sleep hlog
  · intro before id b after hlog hb
    cases hobeys.next hlog with
    | quiet _ _ hx hafter => exact hx.elim
    | pending _ _ reply rest hpending => exact .inl ⟨reply, rest, rfl⟩
    | exhausted _ _ _ hpending hgave hafter => exact .inr ⟨hgave.1, hgave.2, hafter⟩
    | settled _ _ _ hfinal hfresh hrested hbehind hlast =>
      rw [hb] at hfinal
      cases hfinal
  · intro before id b after hlog hb
    obtain ⟨hfresh, hrested, -, -⟩ := hobeys.final hlog hb
    refine ⟨hfresh, ?_⟩
    rintro mid seconds rest rfl
    rcases List.eq_nil_or_concat' mid with rfl | ⟨first, x, rfl⟩
    · exact absurd rfl (hrested seconds rest)
    · have hlast : log = (before ++ asked r.job id (.ok b) :: first) ++
          x :: ⟨.sleep seconds, ()⟩ :: rest := by simp [hlog]
      obtain ⟨id', b', rfl, -⟩ := hobeys.asking_of_sleep hlast
      exact ⟨asked r.job id' (.ok b'), by simp, Option.some_ne_none _⟩
  · obtain ⟨n, hn, hcount⟩ := h.sleeps
    refine ⟨n, hn, hcount.imp_right fun ⟨hmore, id, hid, hexhausted⟩ => ?_⟩
    exact ⟨hmore, id, hends.1 _ hid, hexhausted⟩
  · intro before id b after hlog hb hlast
    obtain ⟨-, -, hbehind, hquiet⟩ := hobeys.final hlog hb
    rcases hlast with hfailed | hdone | hlast
    · exact hbehind.quiet (.inl hfailed)
    · exact hbehind.quiet (.inr hdone)
    · exact hquiet hlast

end Rota

/-- A list of the batches of a job begins with the batch that was submitted and repeats none. -/
def ListsBatches (log : List (Exchange services)) : Prop :=
  ∀ job query submitted batches, ⟨.submitBatch job query, .ok submitted⟩ ∈ log →
    ⟨.listBatches job, .ok batches⟩ ∈ log →
    (∃ first others, batches = first :: others ∧ first.id = submitted.id) ∧
      (batches.map BatchInfo.id).Nodup

namespace JobPlan

variable {plan : JobPlan} {settings : Settings} {patience : Nat} {log : List (Exchange services)}
  {result : Except ExtractError PreparedJob}

/-- The rota of a preparation: its job, the batch that was submitted and those that are listed
behind it, and the interval that the plan stands for. -/
structure Schedules (plan : JobPlan) (settings : Settings) (patience : Nat)
    (log : List (Exchange services)) (result : Except ExtractError PreparedJob) (r : Rota) :
    Prop where
  created : ∃ created, ⟨.createJob (plan.request settings r.chunked), .ok created⟩ ∈ log
  submitted : ∃ submitted, ⟨.submitBatch r.job plan.query, .ok submitted⟩ ∈ log ∧
    submitted.id = r.primary
  children : r.children = [] ∨ ∃ batches, ⟨.listBatches r.job, .ok batches⟩ ∈ log ∧
    r.children = (batches.drop 1).map BatchInfo.id
  interval : ∃ rows, r.interval = pollInterval rows ∧
    if r.chunked then rows = settings.chunkSize else plan.Expects log rows
  patience_eq : r.patience = patience
  prepared : ∀ p, result = .ok p →
    p.job.id = r.job ∧ p.chunked = r.chunked ∧ p.interval = r.interval

/-- Whatever states the service reports: a preparation that comes to its batches asks for one after
the other, each until it is done with, sleeps once between two questions for a batch and nowhere
else, and neither asks nor sleeps any more when the last of them is done with. -/
theorem prepare_keeps_pace (ht : Trace (plan.prepare settings patience) log result)
    (hids : CarriesIds log) (hlists : ListsBatches log) :
    (∀ x ∈ log, Quiet x) ∧ (∃ e, result = .error e) ∨
      ∃ r : Rota, plan.Schedules settings patience log result r ∧ r.KeepsPace log result := by
  obtain ⟨herror, hquiet⟩ | ⟨first, created, info, submitted, second, polls, cleanup, chunked, rows,
    rfl, hreckons, hcounts, hpolls, hcleanup, -⟩ := stages_of_trace_prepare ht
  · exact .inl ⟨hquiet, herror⟩
  obtain ⟨hfirst, hsecond⟩ := List.forall_mem_append.1 hcounts
  have hquiet {log : List (Exchange services)} {kinds : List Request.Kind}
      (h : ∀ x ∈ log, x.request.kind ∈ kinds) (hbatch : .batch ∉ kinds) (htime : .time ∉ kinds) :
      ∀ x ∈ log, Quiet x := fun x hx => quiet_of_kind (h x hx) hbatch htime
  have hlisted : ∀ batches, ⟨.listBatches info.id, .ok batches⟩ ∈ polls →
      (submitted.id :: (batches.drop 1).map BatchInfo.id).Nodup := by
    intro batches hmem
    obtain ⟨⟨head, others, rfl, hhead⟩, hnodup⟩ :=
      hlists info.id plan.query submitted batches (by simp) (by simp [hmem])
    rw [← hhead]
    exact hnodup
  obtain ⟨children, stop, left, -, hchildren, hrounds, hends⟩ :=
    rounds_of_trace_gather hpolls (fun job id b hb => hids job id b (by simp [hb])) hlisted
  have hnone : (polls ++ cleanup).filterMap counting? = [] := by
    rw [List.filterMap_append, filterMap_eq_nil_of_kinds counting?_eq_none
      ((plan.asks_gather _ _ _ _ _).of_trace hpolls) (by decide),
      filterMap_eq_nil_of_kinds counting?_eq_none hcleanup (by decide), List.append_nil]
  refine .inr ⟨⟨info.id, submitted.id, children, chunked, pollInterval rows, patience⟩, ?_, ?_⟩
  · refine ⟨⟨created, by simp⟩, ⟨submitted, by simp, rfl⟩, ?_, ⟨rows, rfl, ?_⟩, rfl, ?_⟩
    · exact hchildren.imp_right fun ⟨batches, hmem, heq⟩ =>
        ⟨batches, by simp [show ⟨.listBatches info.id, .ok batches⟩ ∈ polls from hmem], heq⟩
    · exact hreckons.rows_eq
        (counting_stages _ created info plan.query submitted first second hnone)
    · rintro p rfl
      obtain ⟨hjob, hchunked, hinterval, -⟩ := ok_of_trace_gather hpolls
      exact ⟨congrArg OpenJob.id hjob, hchunked, hinterval⟩
  · have hbegun : ∀ x ∈ first ++ [⟨.createJob (plan.request settings chunked), .ok created⟩,
        ⟨.jobStatus created.id, .ok info⟩, ⟨.submitBatch info.id plan.query, .ok submitted⟩] ++
        second, Quiet x := by
      refine List.forall_mem_append.2 ⟨List.forall_mem_append.2 ⟨?_, ?_⟩, ?_⟩
      · exact hquiet hfirst (by decide) (by decide)
      · exact List.forall_mem_cons.2 ⟨trivial, List.forall_mem_cons.2 ⟨trivial,
          List.forall_mem_singleton.2 trivial⟩⟩
      · exact hquiet hsecond (by decide) (by decide)
    have hall := ((hrounds.append (hquiet hcleanup (by decide) (by decide))).after hbegun).keepsPace
      hends
    simp only [List.append_assoc, List.cons_append, List.nil_append] at hall
    exact hall

/-- The batch that was submitted is split into two, of which the first is waited for. -/
def pacedLog : List (Exchange services) :=
  [⟨.createJob (accounts.request splitting true), .ok accountJob⟩,
    ⟨.jobStatus "750", .ok accountJob⟩,
    ⟨.submitBatch "750" "SELECT Id FROM Account", .ok ⟨"b0", "750", .queued, none⟩⟩,
    asked "750" "b0" (.ok ⟨"b0", "750", .queued, none⟩),
    ⟨.sleep (pollInterval 200000), ()⟩,
    asked "750" "b0" (.ok ⟨"b0", "750", .notProcessed, none⟩),
    ⟨.listBatches "750", .ok [⟨"b0", "750", .notProcessed, none⟩, ⟨"b1", "750", .queued, none⟩,
      ⟨"b2", "750", .queued, none⟩]⟩,
    asked "750" "b1" (.ok ⟨"b1", "750", .notProcessed, none⟩),
    ⟨.sleep (pollInterval 200000), ()⟩,
    asked "750" "b1" (.ok ⟨"b1", "750", .completed, none⟩),
    asked "750" "b2" (.ok ⟨"b2", "750", .completed, none⟩),
    ⟨.listResults "750" "b1", .ok [⟨"b1", "r1"⟩]⟩,
    ⟨.listResults "750" "b2", .ok [⟨"b2", "r2"⟩]⟩]

/-- A child that is told not to be processed is asked for again. -/
theorem prepare_keeps_pace_split : ∃ p, Trace (accounts.prepare splitting 1) pacedLog (.ok p) ∧
    CarriesIds pacedLog ∧ ListsBatches pacedLog ∧
    ∃ r : Rota, accounts.Schedules splitting 1 pacedLog (.ok p) r ∧
      r.KeepsPace pacedLog (.ok p : Except ExtractError PreparedJob) := by
  have ht : Trace (accounts.prepare splitting 1) pacedLog
      (.ok ⟨.ofInfo accountJob, [⟨"b1", "r1"⟩, ⟨"b2", "r2"⟩], true, pollInterval 200000⟩) := by
    unfold pacedLog
    repeat' first | exact .done _ | refine .ask _ _ _ _ _ ?_
  have hids : CarriesIds pacedLog := by
    intro job id b hb
    simp only [pacedLog, List.mem_cons, List.not_mem_nil, or_false] at hb
    rcases hb with hb | hb | hb | hb | hb | hb | hb | hb | hb | hb | hb | hb | hb <;> cases hb <;>
      rfl
  have hlists : ListsBatches pacedLog := by
    intro job query submitted batches hsubmit hlist
    simp only [pacedLog, List.mem_cons, List.not_mem_nil, or_false] at hsubmit hlist
    rcases hsubmit with h | h | h | h | h | h | h | h | h | h | h | h | h <;> cases h
    rcases hlist with h | h | h | h | h | h | h | h | h | h | h | h | h <;> cases h
    exact ⟨⟨_, _, rfl, rfl⟩, by decide⟩
  refine ⟨_, ht, hids, hlists, (prepare_keeps_pace ht hids hlists).resolve_left ?_⟩
  rintro ⟨-, e, he⟩
  cases he

end JobPlan

end Harvest
