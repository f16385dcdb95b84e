import Harvest.Proofs.Staging.History
import Mathlib.Data.List.Induction
import Mathlib.Data.List.Pairwise
import Mathlib.Logic.Function.Basic

/-!
# Clients of staged results at the same time

Any number of clients make calls on one registry. Each of them works on one call at a time, and a
step of one client is one request to the registry, so the steps of others may stand between any two
of its own. However the steps are interleaved, the calls are answered as in a sequential history
(`exists_sound`): each call happens at its last step, all names differ, and names that were taken
for a call that is still worked on are in no job yet.
-/

namespace Harvest

open Disk (Memory)

namespace Staging

/-- What a client was told of its calls, the oldest one first, and the call that it works on. -/
structure Client where
  told : List (Call × Answer) := []
  working : Option (Call × Program service Answer) := none

namespace Client

/-- The client goes on with what is left of a call. -/
def goOn (c : Client) (call : Call) : Program service Answer → Client
  | .done x => ⟨c.told ++ [(call, x)], none⟩
  | .ask r next => ⟨c.told, some (call, .ask r next)⟩

/-- The names that were handed out to the client. -/
def given (c : Client) : List String := c.told.flatMap handedOut

end Client

/-- What may happen next: a client makes a call, or the request that its call comes to next. -/
inductive Move (ι : Type)
  | call (i : ι) (call : Call)
  | step (i : ι)

/-- Clients of one registry. -/
structure System (ι : Type) where
  registry : Registry := {}
  clients : ι → Client := fun _ => {}

namespace System

variable {ι : Type} [DecidableEq ι]

/-- A client goes on with what is left of a call, on the registry as it is then. -/
def goOn (s : System ι) (i : ι) (call : Call) (left : Program service Answer × Registry) :
    System ι :=
  ⟨left.2, Function.update s.clients i ((s.clients i).goOn call left.1)⟩

theorem clients_goOn_self (s : System ι) (i : ι) (call : Call)
    (left : Program service Answer × Registry) :
    (s.goOn i call left).clients i = (s.clients i).goOn call left.1 :=
  Function.update_self ..

theorem clients_goOn_of_ne (s : System ι) {i j : ι} (h : j ≠ i) (call : Call)
    (left : Program service Answer × Registry) : (s.goOn i call left).clients j = s.clients j :=
  Function.update_of_ne h ..

/-- A client makes no call while it works on one. As no call writes to the disk (`reads_program`),
what a call reads there is the same at any time. -/
def advance (root : String) (m : Memory) (s : System ι) : Move ι → System ι
  | .call i call =>
    match (s.clients i).working with
    | none => s.goOn i call ((call.program root).atDisk m, s.registry)
    | some _ => s
  | .step i =>
    match (s.clients i).working with
    | some (call, p) => s.goOn i call (s.registry.advance m p)
    | none => s

/-- Clients that begin with an empty registry. -/
def run (root : String) (m : Memory) (moves : List (Move ι)) : System ι :=
  moves.foldl (advance root m) {}

end System

/-- The number of a name that was given out. -/
def numberOf (name : String) : Nat := Nat.ofDigitChars 10 (name.toList.drop 3) 0

theorem numberOf_nameOf (call : Call) (n : Nat) : numberOf (nameOf call.lead n) = n := by
  have hdrop : (nameOf call.lead n).toList.drop 3 = Text.padded 12 n := by
    have hlead : call.lead.toList.length = 3 := by cases call <;> simp [Call.lead]
    rw [nameOf, String.toList_append, String.toList_ofList, List.drop_left' hlead]
  rw [numberOf, hdrop, Text.ofDigitChars_padded]

/-- What a client still has to do of its call, these names having been taken for it. -/
def Client.Pends (root : String) (m : Memory) (v : View) (c : Client) (names : List String) :
    Prop :=
  match c.working with
  | none => names = []
  | some (call, p) => Pending root m v call names p

theorem Client.Pends.mono {root : String} {m : Memory} {v v' : View} {c : Client}
    {names : List String} (h : c.Pends root m v names)
    (hkeeps : ∀ job j, v job = some j → ∃ j', v' job = some j' ∧ j.Grows j') :
    c.Pends root m v' names := by
  unfold Pends at h ⊢
  split at h
  · exact h
  · refine Pending.mono h fun job j hj => ?_
    obtain ⟨j', hj', hgrows⟩ := hkeeps job j hj
    exact ⟨j', hj', hgrows.entity, hgrows.size⟩

variable {ι : Type} [DecidableEq ι] {root : String} {m : Memory} {s : System ι}
  {h : List (Event ι)} {held : ι → List String}

/-- The calls that were answered make a history, and clients hold these names for the calls that
they work on. -/
structure Sound (root : String) (m : Memory) (s : System ι) (h : List (Event ι))
    (held : ι → List String) : Prop where
  history : History root m (fun _ => none) h s.registry.job?
  keyed : View.Keyed s.registry.job?
  told : ∀ i, (s.clients i).told = (h.filter (·.client = i)).map Event.entry
  pends : ∀ i, (s.clients i).Pends root m s.registry.job? (held i)
  once : ∀ i, (taken h ++ held i).Nodup
  apart : ∀ i j, i ≠ j → (held i).Disjoint (held j)
  old : ∀ i, ∀ id ∈ taken h ++ held i, numberOf id < s.registry.nextNumber
  known : ∀ job j, s.registry.job? job = some j →
    job ∈ taken h ∧ j.ids.Nodup ∧ ∀ id ∈ j.ids, id ∈ taken h
  separate : ∀ job job' j j' id, s.registry.job? job = some j → s.registry.job? job' = some j' →
    id ∈ j.ids → id ∈ j'.ids → job = job'

namespace Sound

theorem empty (root : String) (m : Memory) : Sound root m ({} : System ι) [] fun _ => [] where
  history := .nil _
  keyed := nofun
  told := fun _ => rfl
  pends := fun _ => rfl
  once := fun _ => List.nodup_nil
  apart := fun _ _ _ => List.disjoint_nil_left _
  old := nofun
  known := nofun
  separate := nofun

/-- Names that are held for a call are in no job. -/
theorem fresh (hs : Sound root m s h held) {i : ι} {id : String} (hid : id ∈ held i) :
    s.registry.job? id = none := by
  refine Option.eq_none_iff_forall_ne_some.2 fun j hj => ?_
  exact (List.nodup_append'.1 (hs.once i)).2.2 (hs.known id j hj).1 hid

theorem apart_update (hs : Sound root m s h held) {i : ι} {names : List String}
    (hnames : ∀ j, j ≠ i → (held j).Disjoint names) (a b : ι) (hab : a ≠ b) :
    (Function.update held i names a).Disjoint (Function.update held i names b) := by
  rcases eq_or_ne a i with rfl | ha
  · rw [Function.update_self, Function.update_of_ne hab.symm]
    exact fun id hid hid' => hnames b hab.symm hid' hid
  · rcases eq_or_ne b i with rfl | hb
    · rw [Function.update_self, Function.update_of_ne ha]
      exact hnames a ha
    · rw [Function.update_of_ne ha, Function.update_of_ne hb]
      exact hs.apart a b hab

/-- A client goes on with its call, with these names. -/
theorem work (hs : Sound root m s h held) {i : ι} {call : Call} {p : Program service Answer}
    {names : List String} {n : Nat} (hpending : Pending root m s.registry.job? call names p)
    (hnumber : s.registry.nextNumber ≤ n) (honce : (taken h ++ names).Nodup)
    (hapart : ∀ j, j ≠ i → (held j).Disjoint names) (hold : ∀ id ∈ names, numberOf id < n) :
    Sound root m (s.goOn i call (p, { s.registry with nextNumber := n })) h
      (Function.update held i names) := by
  obtain ⟨r, next, rfl⟩ := hpending.exists_ask
  have htaken (j : ι) (id : String) (hid : id ∈ taken h ++ held j) : numberOf id < n :=
    Nat.lt_of_lt_of_le (hs.old j id hid) hnumber
  exact {
    history := hs.history
    keyed := hs.keyed
    told := (Function.forall_update_iff s.clients fun j c =>
      c.told = (h.filter (·.client = j)).map Event.entry).2 ⟨hs.told i, fun j _ => hs.told j⟩
    pends := by
      intro j
      change Client.Pends root m s.registry.job? _ _
      rcases eq_or_ne j i with rfl | hj
      · rw [System.clients_goOn_self, Function.update_self]
        exact hpending
      · rw [System.clients_goOn_of_ne s hj, Function.update_of_ne hj]
        exact hs.pends j
    once := (Function.forall_update_iff held fun _ names => (taken h ++ names).Nodup).2
      ⟨honce, fun j _ => hs.once j⟩
    apart := hs.apart_update hapart
    old := (Function.forall_update_iff held fun _ names =>
      ∀ id ∈ taken h ++ names, numberOf id < n).2 ⟨fun id hid => (List.mem_append.1 hid).elim
        (fun hid => htaken i id (List.mem_append_left _ hid)) (hold id), fun j _ => htaken j⟩
    known := hs.known
    separate := hs.separate }

/-- What a call makes of the jobs keeps their names known and different. -/
theorem answer (hs : Sound root m s h held) {i : ι} {call : Call} {x : Answer} {g : Registry}
    (hnumber : g.nextNumber = s.registry.nextNumber) (hkeyed : View.Keyed g.job?)
    (hanswers : Answers root m s.registry.job? g.job? call (held i) x) :
    Sound root m (s.goOn i call (.done x, g)) (h ++ [⟨i, call, held i, x⟩])
      (Function.update held i []) := by
  have hbecomes := hanswers.becomes fun _ _ id hid => hs.fresh hid
  -- the names are no longer held but taken, so none of them is new
  have htaken : taken (h ++ [⟨i, call, held i, x⟩]) = taken h ++ held i := by
    rw [taken_append]
    exact congrArg (taken h ++ ·) (List.append_nil _)
  obtain ⟨-, hheld, hdisjoint⟩ := List.nodup_append'.1 (hs.once i)
  exact {
    history := hs.history.append (.cons hanswers (.nil _))
    keyed := hkeyed
    told := by
      intro j
      rw [List.filter_append, List.map_append, ← hs.told j]
      rcases eq_or_ne j i with rfl | hj
      · simp [System.clients_goOn_self, Client.goOn, Event.entry]
      · simp [System.clients_goOn_of_ne s hj, hj.symm]
    pends := by
      intro j
      rcases eq_or_ne j i with rfl | hj
      · rw [System.clients_goOn_self, Function.update_self]
        rfl
      · rw [System.clients_goOn_of_ne s hj, Function.update_of_ne hj]
        exact Client.Pends.mono (hs.pends j) fun job j hj => (hj ▸ hbecomes job).grows
    once := by
      refine (Function.forall_update_iff held fun _ names => (taken _ ++ names).Nodup).2
        ⟨?_, fun j hj => ?_⟩
      · rw [htaken, List.append_nil]
        exact hs.once i
      · rw [htaken]
        obtain ⟨-, hother, hdisjoint'⟩ := List.nodup_append'.1 (hs.once j)
        exact List.nodup_append'.2 ⟨hs.once i, hother,
          List.disjoint_append_left.2 ⟨hdisjoint', hs.apart i j hj.symm⟩⟩
    apart := hs.apart_update fun _ _ => List.disjoint_nil_right _
    old := by
      refine (Function.forall_update_iff held fun _ names =>
        ∀ id ∈ taken _ ++ names, numberOf id < g.nextNumber).2 ⟨?_, fun j _ => ?_⟩
      · rw [htaken, List.append_nil, hnumber]
        exact hs.old i
      · rw [htaken, hnumber]
        intro id hid
        rcases List.mem_append.1 hid with hid | hid
        · exact hs.old i id hid
        · exact hs.old j id (List.mem_append_right _ hid)
    known := by
      intro job j' hj'
      have hchange := hj' ▸ hbecomes job
      rw [htaken]
      refine ⟨?_, ?_, fun id hid => ?_⟩
      · rcases hchange.ids with ⟨-, hjob, -⟩ | ⟨j, hj, -⟩
        · exact List.mem_append_right _ hjob
        · exact List.mem_append_left _ (hs.known job j hj).1
      · rcases hchange.ids with ⟨-, -, hids⟩ | ⟨j, hj, hids | ⟨-, hids⟩⟩ <;> rw [hids]
        · exact List.nodup_nil
        · exact (hs.known job j hj).2.1
        · exact List.nodup_append'.2 ⟨(hs.known job j hj).2.1, hheld,
            fun id hid => hdisjoint ((hs.known job j hj).2.2 id hid)⟩
      · rcases hchange.mem_ids hid with ⟨j, hj, hid⟩ | ⟨-, hid⟩
        · exact List.mem_append_left _ ((hs.known job j hj).2.2 id hid)
        · exact List.mem_append_right _ hid
    separate := by
      intro job job' j j' id hj hj' hid hid'
      rcases (hj ▸ hbecomes job).mem_ids hid with ⟨old, hold, hid⟩ | ⟨hcall, hid⟩ <;>
        rcases (hj' ▸ hbecomes job').mem_ids hid' with ⟨old', hold', hid'⟩ | ⟨hcall', hid'⟩
      · exact hs.separate job job' old old' id hold hold' hid hid'
      · exact absurd hid' (hdisjoint ((hs.known job old hold).2.2 id hid))
      · exact absurd hid (hdisjoint ((hs.known job' old' hold').2.2 id hid'))
      · exact Call.submit.inj (hcall.symm.trans hcall') }

end Sound

/-- What a move shows: nothing, or that a call is answered. -/
inductive System.Shows (root : String) (m : Memory) (s s' : System ι) : Prop
  | nothing (told : ∀ i, (s'.clients i).told = (s.clients i).told)
      (jobs : ∀ job, s'.registry.job? job = s.registry.job? job)
  | answer (i : ι) (call : Call) (names : List String) (x : Answer)
      (told : (s'.clients i).told = (s.clients i).told ++ [(call, x)])
      (others : ∀ j, j ≠ i → (s'.clients j).told = (s.clients j).told)
      (jobs : ∀ job, Becomes root m names job call x (s.registry.job? job) (s'.registry.job? job))

/-- A step with which a client goes on with its call shows nothing. -/
theorem Pending.shows {i : ι} {call : Call} {p : Program service Answer} {names : List String}
    (hpending : Pending root m s.registry.job? call names p) (n : Nat) :
    s.Shows root m (s.goOn i call (p, { s.registry with nextNumber := n })) := by
  obtain ⟨r, next, rfl⟩ := hpending.exists_ask
  exact .nothing ((Function.forall_update_iff s.clients fun j c => c.told = (s.clients j).told).2
    ⟨rfl, fun _ _ => rfl⟩) fun _ => rfl

namespace Sound

/-- A step of a client keeps the system sound. -/
theorem goOn (hs : Sound root m s h held) {i : ι} {call : Call}
    {left : Program service Answer × Registry}
    (houtcome : Outcome root m s.registry call (held i) left) :
    ∃ h' held', Sound root m (s.goOn i call left) h' held' ∧
      s.Shows root m (s.goOn i call left) := by
  obtain ⟨-, hheld, hdisjoint⟩ := List.nodup_append'.1 (hs.once i)
  cases houtcome with
  | kept pending =>
    exact ⟨h, _, hs.work pending (Nat.le_refl _) (hs.once i) (fun j hj => hs.apart j i hj)
      fun id hid => hs.old i id (List.mem_append_right _ hid), pending.shows _⟩
  | named pending =>
    -- the new name has a larger number than all that were taken before
    have hnew (j : ι) : nameOf call.lead s.registry.nextNumber ∉ taken h ++ held j := fun hmem =>
      absurd (hs.old j _ hmem) (by rw [numberOf_nameOf]; exact Nat.lt_irrefl _)
    refine ⟨h, _, hs.work pending (Nat.le_succ _) ?_ (fun j hj => ?_) fun id hid => ?_,
      pending.shows _⟩
    · rw [← List.append_assoc]
      exact List.nodup_append'.2 ⟨hs.once i, List.nodup_singleton _,
        List.disjoint_singleton.2 (hnew i)⟩
    · exact List.disjoint_append_right.2 ⟨hs.apart j i hj, List.disjoint_singleton.2 fun hmem =>
        hnew j (List.mem_append_right _ hmem)⟩
    · rcases List.mem_append.1 hid with hid | hid
      · exact Nat.lt_succ_of_lt (hs.old i id (List.mem_append_right _ hid))
      · rw [List.mem_singleton.1 hid, numberOf_nameOf]
        exact Nat.lt_succ_self _
  | @answered x g number keyed answers =>
    refine ⟨_, _, hs.answer number keyed answers, .answer i call (held i) x ?_ (fun j hj => ?_)
      (answers.becomes fun _ _ id hid => hs.fresh hid)⟩
    · rw [System.clients_goOn_self]
      rfl
    · rw [System.clients_goOn_of_ne s hj]

/-- A move keeps the system sound, and shows no more than that a call is answered. -/
theorem advance (hs : Sound root m s h held) (move : Move ι) :
    ∃ h' held', Sound root m (s.advance root m move) h' held' ∧
      s.Shows root m (s.advance root m move) := by
  have hpends := fun i => hs.pends i
  simp only [Client.Pends] at hpends
  cases move with
  | call i call =>
    rw [System.advance]
    cases hworking : (s.clients i).working with
    | some working => exact ⟨h, held, hs, .nothing (fun _ => rfl) fun _ => rfl⟩
    | none =>
      have hheld := hpends i
      rw [hworking] at hheld
      exact hs.goOn (hheld ▸ Pending.start root m call hs.keyed)
  | step i =>
    rw [System.advance]
    cases hworking : (s.clients i).working with
    | none => exact ⟨h, held, hs, .nothing (fun _ => rfl) fun _ => rfl⟩
    | some working =>
      have hpending := hpends i
      rw [hworking] at hpending
      exact hs.goOn (Pending.advance hpending hs.keyed)

end Sound

omit [DecidableEq ι] in
theorem System.Shows.grows {s' : System ι} (h : s.Shows root m s') {job : String} {j : StagedJob}
    (hj : s.registry.job? job = some j) :
    ∃ j', s'.registry.job? job = some j' ∧ j.Grows j' := by
  cases h with
  | nothing told jobs => exact ⟨j, (jobs job).trans hj, .refl j⟩
  | answer i call names x told others jobs => exact (hj ▸ jobs job).grows

theorem System.run_append (root : String) (m : Memory) (moves more : List (Move ι)) :
    run root m (moves ++ more) = more.foldl (advance root m) (run root m moves) :=
  List.foldl_append

/-- No name is handed out twice, and none is that of two batches. -/
structure System.NamesOnce (s : System ι) : Prop where
  given : ∀ i, (s.clients i).given.Nodup
  apart : ∀ i j, i ≠ j → (s.clients i).given.Disjoint (s.clients j).given
  keyed : View.Keyed s.registry.job?
  batches : ∀ job j, s.registry.job? job = some j → j.ids.Nodup
  separate : ∀ job job' j j' id, s.registry.job? job = some j → s.registry.job? job' = some j' →
    id ∈ j.ids → id ∈ j'.ids → job = job'

namespace Sound

theorem given_eq (hs : Sound root m s h held) (i : ι) :
    (s.clients i).given = (h.filter (·.client = i)).flatMap fun e => handedOut e.entry := by
  rw [Client.given, hs.told, List.flatMap_map]

theorem handedOut_sublist (hs : Sound root m s h held) {e : Event ι} (he : e ∈ h) :
    (handedOut e.entry).Sublist e.names := by
  obtain ⟨w, w', hanswers⟩ := hs.history.exists_answers he
  exact hanswers.handedOut_sublist

theorem exists_of_mem_given (hs : Sound root m s h held) {i : ι} {id : String}
    (hid : id ∈ (s.clients i).given) : ∃ e ∈ h, e.client = i ∧ id ∈ e.names := by
  rw [hs.given_eq] at hid
  obtain ⟨e, he, hid⟩ := List.mem_flatMap.1 hid
  obtain ⟨he, hclient⟩ := List.mem_filter.1 he
  exact ⟨e, he, of_decide_eq_true hclient, (hs.handedOut_sublist he).subset hid⟩

theorem namesOnce (hs : Sound root m s h held) : s.NamesOnce where
  given := by
    intro i
    rw [hs.given_eq]
    exact (List.nodup_append'.1 (hs.once i)).1.sublist ((List.filter_sublist.flatMap _).trans
      (List.Sublist.flatMap_right h fun e he => hs.handedOut_sublist he))
  apart := by
    intro i j hij id hi hj
    obtain ⟨e, he, rfl, hid⟩ := hs.exists_of_mem_given hi
    obtain ⟨e', he', rfl, hid'⟩ := hs.exists_of_mem_given hj
    have hpairwise := (List.nodup_flatMap.1 (List.nodup_append'.1 (hs.once e.client)).1).2
    have hsymm : Std.Symm (Function.onFun List.Disjoint (@Event.names ι)) :=
      ⟨fun _ _ hdisjoint id hid hid' => hdisjoint hid' hid⟩
    have hne : e ≠ e' := fun heq => hij (congrArg Event.client heq)
    exact hpairwise.forall he he' hne hid hid'
  keyed := hs.keyed
  batches := fun job j hj => (hs.known job j hj).2.1
  separate := hs.separate

/-- Jobs only grow, however the clients go on. -/
theorem grows (hs : Sound root m s h held) (more : List (Move ι)) {job : String} {j : StagedJob}
    (hj : s.registry.job? job = some j) :
    ∃ j', (more.foldl (System.advance root m) s).registry.job? job = some j' ∧ j.Grows j' := by
  induction more generalizing s h held j with
  | nil => exact ⟨j, hj, .refl j⟩
  | cons move more ih =>
    obtain ⟨h', held', hs', hshows⟩ := hs.advance move
    obtain ⟨j₁, hj₁, hgrows₁⟩ := hshows.grows hj
    obtain ⟨j₂, hj₂, hgrows₂⟩ := ih hs' hj₁
    exact ⟨j₂, hj₂, hgrows₁.trans hgrows₂⟩

end Sound

/-- However the clients move, their calls are answered as in a history. -/
theorem exists_sound (root : String) (m : Memory) (moves : List (Move ι)) :
    ∃ h held, Sound root m (System.run root m moves) h held := by
  induction moves using List.reverseRecOn with
  | nil => exact ⟨[], _, .empty root m⟩
  | append_singleton moves move ih =>
    obtain ⟨h, held, hs⟩ := ih
    obtain ⟨h', held', hs', -⟩ := hs.advance move
    rw [System.run, List.foldl_append]
    exact ⟨h', held', hs'⟩

end Staging

end Harvest
