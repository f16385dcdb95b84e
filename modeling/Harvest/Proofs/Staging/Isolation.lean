import Harvest.Proofs.Staging.Concurrent
import Harvest.Proofs.Staging.Renaming
import Mathlib.GroupTheory.GroupAction.MultipleTransitivity

/-!
# Clients that use jobs of their own

What is told about jobs that only one client uses is what would be told if the client were alone:
the calls about these jobs make a history by themselves (`History.filter`), and if they are made one
after the other, with the names that are given out then in place of the old ones, they are answered
in the same way (`alone_of_history`).
-/

namespace Harvest

open Disk (Memory)

namespace Staging

variable {ι : Type} {root : String} {m : Memory} {v v' w w' : View} {jobs : String → Bool}

/-- The answers to calls that are made one after the other, nobody else making any. -/
def alone (root : String) : Registry → Memory → List Call → List Answer
  | _, _, [] => []
  | g, m, call :: rest =>
    let left := Staged.onDisk (call.program root) g m
    left.1.1 :: alone root left.1.2 left.2 rest

/-- The client was told something about these jobs. A call that it still works on does not count. -/
def Client.uses (c : Client) (jobs : String → Bool) : Bool :=
  c.told.any fun entry => (subject entry).any jobs

/-- What a client was told that is about no other jobs than these. -/
def Client.about (c : Client) (jobs : String → Bool) : List (Call × Answer) :=
  c.told.filter fun entry => (subject entry).all jobs

/-- The call was made by this client, and is about no other jobs than these. -/
def Event.belongs [DecidableEq ι] (i : ι) (jobs : String → Bool) (e : Event ι) : Bool :=
  (e.call.job? e.names).all jobs && e.client = i

/-- Calls about other jobs than these can be left out of a history. -/
theorem History.filter {h : List (Event ι)} (hh : History root m v h v') {keep : Event ι → Bool}
    (hkeep : ∀ e ∈ h, keep e = true → (e.call.job? e.names).all jobs = true)
    (hdrop : ∀ e ∈ h, keep e = false → (e.call.job? e.names).any jobs = false)
    (hw : ∀ job, jobs job → w job = v job) : ∃ w', History root m w (h.filter keep) w' := by
  -- by induction on the history: the jobs that it leaves agree on these jobs all the time
  induction hh generalizing w with
  | nil v => exact ⟨w, .nil w⟩
  | @cons v v₁ v' e h first rest ih =>
    have ih' {w : View} (hw : ∀ job, jobs job → w job = v₁ job) :=
      ih (fun e he => hkeep e (List.mem_cons_of_mem _ he))
        (fun e he => hdrop e (List.mem_cons_of_mem _ he)) hw
    cases hkept : keep e with
    | true =>
      have hfound : e.call.found w = e.call.found v := by
        have hjobs := hkeep e List.mem_cons_self hkept
        cases hcall : e.call with
        | create r => rfl
        | submit job | inspect job inspection | close job =>
          rw [hcall] at hjobs
          exact hw job hjobs
      obtain ⟨w', hrest⟩ := ih' (w := fun job => if e.call.job? e.names = some job
        then (e.call.serve root m e.names (e.call.found w)).2 else w job) fun job hjob => by
          rw [first.jobs, hw job hjob, hfound]
      rw [List.filter_cons_of_pos hkept]
      exact ⟨w', .cons ⟨hfound ▸ first.length, hfound ▸ first.answer, fun _ => rfl⟩ hrest⟩
    | false =>
      rw [List.filter_cons_of_neg (by simp [hkept])]
      refine ih' fun job hjob => (hw job hjob).trans ?_
      rw [first.jobs, if_neg]
      intro hcall
      have hjobs := hdrop e List.mem_cons_self hkept
      rw [hcall, Option.any_some, hjob] at hjobs
      cases hjobs

/-- The names of a history if they are numbered in order, the first one with this number. -/
def numbered : Nat → List (Event ι) → List String
  | _, [] => []
  | k, e :: rest =>
    (List.range' k e.names.length).map (nameOf e.call.lead) ++ numbered (k + e.names.length) rest

theorem length_numbered (k : Nat) (h : List (Event ι)) :
    (numbered k h).length = (taken h).length := by
  induction h generalizing k with
  | nil => rfl
  | cons e rest ih => simp [numbered, taken_cons, ih]

theorem map_numberOf_numbered (k : Nat) (h : List (Event ι)) :
    (numbered k h).map numberOf = List.range' k (taken h).length := by
  induction h generalizing k with
  | nil => rfl
  | cons e rest ih =>
    have hnumbers : numberOf ∘ nameOf e.call.lead = id := funext (numberOf_nameOf e.call)
    rw [numbered, List.map_append, List.map_map, hnumbers, List.map_id, ih, List.range'_append_1,
      taken_cons, List.length_append]

theorem nodup_numbered (k : Nat) (h : List (Event ι)) : (numbered k h).Nodup := by
  refine List.Nodup.of_map numberOf ?_
  rw [map_numberOf_numbered]
  exact List.nodup_range'

/-- Names can be put in place of as many others by a permutation. -/
theorem exists_perm_map_eq {α : Type} {l l' : List α} (h : l.Nodup) (h' : l'.Nodup)
    (hlength : l.length = l'.length) : ∃ ρ : Equiv.Perm α, l.map ρ = l' := by
  have htransitive := Equiv.Perm.isMultiplyPretransitive α l.length
  obtain ⟨ρ, hρ⟩ := MulAction.exists_smul_eq (Equiv.Perm α)
    (⟨l.get, h.injective_get⟩ : Fin l.length ↪ α)
    ⟨l'.get ∘ Fin.cast hlength, h'.injective_get.comp (Fin.cast_injective hlength)⟩
  refine ⟨ρ, List.ext_get (by simpa using hlength) fun k hk hk' => ?_⟩
  have hk₀ : k < l.length := by simpa using hk
  have hvalue := DFunLike.congr_fun hρ ⟨k, hk₀⟩
  simpa using hvalue

/-- With names that are put in place of the old ones in order, calls are answered alone as they were
in the history. -/
theorem alone_of_history {ρ : String → String} (hρ : Function.Injective ρ) {h : List (Event ι)}
    (hh : History root m v h v') {g : Registry} (hkeyed : View.Keyed g.job?)
    (hg : ∀ job, g.job? (ρ job) = (v job).map (StagedJob.rename ρ))
    (hnames : (taken h).map ρ = numbered g.nextNumber h) :
    alone root g m (h.map (·.call.rename ρ)) = h.map (Answer.rename ρ ·.answer) := by
  induction hh generalizing g with
  | nil v => rfl
  | @cons v v₁ v' e h first rest ih =>
    obtain ⟨x, g', n, hrun, hanswers, hnumber, hkeyed'⟩ :=
      onDisk_program root m (e.call.rename ρ) hkeyed
    have hfound := Call.found_rename hg e.call
    -- as many names are given out as in the history, so they are those in place of the old ones
    have hn : n = e.names.length := by
      have hlength := hanswers.length
      rw [hfound, Call.takes_rename, ← first.length, List.length_map, List.length_range'] at hlength
      exact hlength
    subst hn
    rw [taken_cons, List.map_append, numbered] at hnames
    obtain ⟨hfirst, hrest⟩ := List.append_inj hnames (by simp)
    rw [Call.lead_rename, ← hfirst] at hanswers
    obtain ⟨hx, hg'⟩ := first.rename hρ hg hanswers
    rw [List.map_cons, List.map_cons, alone, hrun, hx]
    exact congrArg _ (ih hkeyed' hg' (hnumber ▸ hrest))

variable [DecidableEq ι] {s : System ι} {h : List (Event ι)} {held : ι → List String}

namespace Sound

/-- What a client was told are its calls in the history. -/
theorem about_eq (hs : Sound root m s h held) (i : ι) (jobs : String → Bool) :
    (s.clients i).about jobs =
      (h.filter (Event.belongs i jobs)).map Event.entry := by
  rw [Client.about, hs.told, List.filter_map, List.filter_filter]
  refine congrArg _ (List.filter_congr fun e he => ?_)
  obtain ⟨w, w', hanswers⟩ := hs.history.exists_answers he
  rw [Event.belongs, ← hanswers.subject_eq]
  rfl

/-- A call is not about these jobs if it does not belong to the only client that was told anything
about them. -/
theorem not_about_of_not_belongs (hs : Sound root m s h held) {i : ι} {jobs : String → Bool}
    (hothers : ∀ j, j ≠ i → (s.clients j).uses jobs = false) {e : Event ι} (he : e ∈ h)
    (hbelongs : e.belongs i jobs = false) : (e.call.job? e.names).any jobs = false := by
  by_cases hclient : e.client = i
  · have hjobs : (e.call.job? e.names).all jobs = false := by
      rcases Bool.and_eq_false_iff.1 hbelongs with hjobs | hother
      · exact hjobs
      · exact absurd hclient (of_decide_eq_false hother)
    cases hjob : e.call.job? e.names with
    | none => rfl
    | some job =>
      rw [hjob] at hjobs
      exact hjobs
  · obtain ⟨w, w', hanswers⟩ := hs.history.exists_answers he
    have htold : e.entry ∈ (s.clients e.client).told := by
      rw [hs.told]
      exact List.mem_map_of_mem (List.mem_filter.2 ⟨he, decide_eq_true rfl⟩)
    rw [← hanswers.subject_eq]
    exact Bool.eq_false_of_not_eq_true (List.any_eq_false.1 (hothers _ hclient) _ htold)

/-- If nobody else was told anything about these jobs, the client could as well have been alone. -/
theorem isolated (hs : Sound root m s h held) {i : ι} {jobs : String → Bool}
    (hothers : ∀ j, j ≠ i → (s.clients j).uses jobs = false) :
    ∃ ρ : Equiv.Perm String,
      alone root {} m (((s.clients i).about jobs).map (·.1.rename ρ)) =
        ((s.clients i).about jobs).map (Answer.rename ρ ·.2) := by
  rw [hs.about_eq]
  obtain ⟨w', hhistory⟩ :
      ∃ w', History root m (fun _ => none) (h.filter (Event.belongs i jobs)) w' :=
    hs.history.filter (fun e _ hkept => (Bool.and_eq_true_iff.1 hkept).1)
      (fun e he hdropped => hs.not_about_of_not_belongs hothers he hdropped) fun _ _ => rfl
  have htaken : (taken (h.filter (Event.belongs i jobs))).Nodup :=
    (List.nodup_append'.1 (hs.once i)).1.sublist (List.filter_sublist.flatMap Event.names)
  obtain ⟨ρ, hρ⟩ := exists_perm_map_eq htaken (nodup_numbered 1 _) (length_numbered 1 _).symm
  refine ⟨ρ, ?_⟩
  rw [List.map_map, List.map_map]
  exact alone_of_history ρ.injective hhistory nofun (fun _ => rfl) hρ

end Sound

/-- However the steps of clients are interleaved, no name is handed out twice, a move shows nothing
or that one call is answered, with all of its effect, jobs only grow and stay as they are once they
are closed, and what a client is told about jobs that nobody else was told about is what it would be
told if it were alone, with other names. -/
theorem clients_do_not_interfere (root : String) (m : Memory) (moves : List (Move ι)) :
    (System.run root m moves).NamesOnce ∧
    (∀ move, (System.run root m moves).Shows root m (System.run root m (moves ++ [move]))) ∧
    (∀ more job j, (System.run root m moves).registry.job? job = some j →
      ∃ j', (System.run root m (moves ++ more)).registry.job? job = some j' ∧ j.Grows j') ∧
    ∀ i jobs, (∀ j, j ≠ i → ((System.run root m moves).clients j).uses jobs = false) →
      ∃ ρ : Equiv.Perm String,
        alone root {} m ((((System.run root m moves).clients i).about jobs).map (·.1.rename ρ)) =
          (((System.run root m moves).clients i).about jobs).map (Answer.rename ρ ·.2) := by
  obtain ⟨h, held, hs⟩ := exists_sound root m moves
  refine ⟨hs.namesOnce, fun move => ?_, fun more job j hj => ?_, fun i jobs => hs.isolated⟩
  · obtain ⟨-, -, -, hshows⟩ := hs.advance move
    rw [System.run_append]
    exact hshows
  · rw [System.run_append]
    exact hs.grows more hj

/-- A disk on which a page is staged. -/
def sharedDisk : Memory :=
  ⟨[(["in"], .directory), (["Account", "in"], .directory), (["a.csv", "Account", "in"], .file [])],
    []⟩

def sharedRequest : JobRequest := ⟨"Account", .query, .parallel, .csv, none⟩

/-- Two clients create a job each. While the first one submits, the second one submits as well, and
closes the first one's job in front of the addition to it. -/
def racingMoves : List (Move Bool) :=
  [.call false (.create { sharedRequest with chunkSize := some 1 }),
    .call true (.create sharedRequest), .step false, .step true, .step true, .step false,
    .call false (.submit "750000000000001"), .step false, .step false,
    .call true (.submit "750000000000002"), .step true, .step true, .step true, .step true,
    .call true (.close "750000000000001"), .step true,
    .step false, .step false, .step false]

theorem racing_clients_do_not_interfere :
    ((System.run "/in" sharedDisk racingMoves).clients false).told.getLast? =
        some (.submit "750000000000001", .error (.remote (.jobNotOpen "750000000000001"))) ∧
      ((System.run "/in" sharedDisk racingMoves).registry.job? "750000000000001").map
        StagedJob.batches = some [] ∧
      ((System.run "/in" sharedDisk racingMoves).clients false).uses
        (· == "750000000000002") = false ∧
      ∃ ρ : Equiv.Perm String,
        alone "/in" {} sharedDisk [.create sharedRequest, .submit (ρ "750000000000002")] =
          [.ok (.job ⟨ρ "750000000000002", "Account", .query, .opened⟩),
            .ok (.batch ⟨ρ "751000000000004", ρ "750000000000002", .completed, none⟩)] := by
  have habout : ((System.run "/in" sharedDisk racingMoves).clients true).about
      (· == "750000000000002") =
      [(.create sharedRequest, .ok (.job ⟨"750000000000002", "Account", .query, .opened⟩)),
        (.submit "750000000000002",
          .ok (.batch ⟨"751000000000004", "750000000000002", .completed, none⟩))] := by
    decide +kernel
  have hother : ((System.run "/in" sharedDisk racingMoves).clients false).uses
      (· == "750000000000002") = false := by
    decide +kernel
  refine ⟨by decide +kernel, by decide +kernel, hother, ?_⟩
  obtain ⟨ρ, hρ⟩ := (clients_do_not_interfere "/in" sharedDisk racingMoves).2.2.2 true
    (· == "750000000000002") fun j hj => by
      obtain rfl : j = false := by simpa using hj
      exact hother
  rw [habout] at hρ
  exact ⟨ρ, hρ⟩

end Staging

end Harvest
