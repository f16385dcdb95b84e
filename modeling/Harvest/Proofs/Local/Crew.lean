import Harvest.Proofs.Local.Amid
import Mathlib.Logic.Function.Basic
import Mathlib.Logic.Relation

/-!
# Programs at the same time

A crew is any number of programs that share a machine, each with a sink of its own. They take turns
at single requests, in any way (`Local.Crew.Step`). If no two of them write to the same place, each
of them runs as it does amid others that leave its place alone (`Local.Crew.amid_of_steps`).
-/

namespace Harvest

open Disk (Place)
open Disk.Memory (KeepsFile lead)

namespace Program.Within

variable {S : Service} {α β : Type} {P : S.Request → Prop} {Q : α → Prop}

theorem of_asks {p : Program services α} {kinds : List Request.Kind} {P : Request → Prop}
    (h : p.Asks kinds) (hP : ∀ r : Request, r.kind ∈ kinds → P r) :
    p.Within P fun _ => True := by
  induction p with
  | done value => trivial
  | ask r next ih => exact ⟨hP r h.1, fun reply => ih reply (h.2 reply)⟩

end Program.Within

/-- A file is written to no other path. -/
def Disk.Request.Targets (path : String) (r : Disk.Request) : Prop :=
  ∀ target ∈ r.target?, target = path

theorem Program.WritesTo.within {α : Type} {prog : Program Disk.service α} {path : String}
    (h : prog.WritesTo path) : prog.Within (Disk.Request.Targets path) fun _ => True := by
  induction prog with
  | done value => trivial
  | ask r next ih => exact ⟨h.1, fun reply => ih reply (h.2 reply)⟩

namespace Local

/-- On a disk no files are written but to the path. -/
def Writes (path : String) : shared.Request → Prop
  | .inl (.disk r) => r.Targets path
  | _ => True

section Writing

variable {path : String} {α β : Type}

theorem within_onDisk {prog : Program Disk.service α} {Q : α → Prop}
    (h : prog.Within (Disk.Request.Targets path) Q) : (onDisk prog).Within (Writes path) Q := by
  induction prog with
  | done value => exact h
  | ask r next ih => exact ⟨h.1, fun reply => ih reply (h.2 reply)⟩

/-- A sink that could be made is the one of its entity and run. -/
theorem within_create (root entity run : String) (compressed : Bool) :
    (onDisk (Sink.create root entity run compressed).run).Within
      (Writes (Sink.start root entity run compressed).file)
      fun created => ∀ sink, created = .ok sink → sink = .start root entity run compressed := by
  have hmake : Program.Within (S := Disk.service)
      (Disk.Request.Targets (Sink.start root entity run compressed).file)
      (fun _ => True)
      (Storing.makeDirectories (Sink.start root entity run compressed).directory) :=
    ⟨nofun, fun _ => trivial⟩
  have hwrite : Program.Within (S := Disk.service)
      (Disk.Request.Targets (Sink.start root entity run compressed).file)
      (fun _ => True) (Storing.write (Sink.start root entity run compressed).file []) :=
    ⟨fun _ h => (Option.some.inj h).symm, fun _ => trivial⟩
  refine within_onDisk (.andThen hmake (fun _ _ => .andThen hwrite (fun _ _ => ?_) ?_) ?_)
  · intro sink h
    exact (Except.ok.inj h).symm
  · nofun
  · nofun

/-- A sink that is open is the one of the file. -/
def State.Fills (path : String) (s : State) : Prop := ∀ sink, s.sink = some sink → sink.file = path

variable {places : Places} {s : State}

theorem within_openSink {entity run : String} (hs : s.Fills path)
    (hpath : (Sink.start places.output entity run places.compressed).file = path) :
    (onMachine (openSink places entity run s)).Within (Writes path) fun x => x.2.Fills path := by
  rw [openSink, onMachine_bind]
  refine .bind (hpath ▸ within_create ..) fun created hcreated => ?_
  cases created with
  | error e => exact hs
  | ok sink =>
    rintro _ ⟨⟩
    rw [hcreated sink rfl]
    exact hpath

theorem within_writeBatch (batch : Batch) (hs : s.Fills path) :
    (onMachine (writeBatch batch s)).Within (Writes path) fun x => x.2.Fills path := by
  unfold writeBatch
  split
  · rename_i sink hsink
    rintro _ ⟨⟩
    rw [Sink.file_takeAll]
    exact hs sink hsink
  · exact hs

theorem within_finishSink (hs : s.Fills path) :
    (onMachine (finishSink s)).Within (Writes path) fun x => x.2.Fills path := by
  unfold finishSink
  split
  · rename_i sink hsink
    rw [onMachine_bind]
    exact .bind (within_onDisk (hs sink hsink ▸ sink.writesTo_finish.within)) fun _ _ => nofun
  · exact hs

theorem within_dropSink (hs : s.Fills path) :
    (onMachine (dropSink s)).Within (Writes path) fun x => x.2.Fills path := by
  unfold dropSink
  split
  · rename_i sink hsink
    rw [onMachine_bind]
    exact .bind (within_onDisk (hs sink hsink ▸ sink.writesTo_drop.within)) fun _ _ => nofun
  · exact hs

/-- No report is asked for, and no sink but that of the file. -/
def Opens (places : Places) (path : String) (r : Request) : Prop :=
  r.kind ≠ .report ∧ ∀ entity run, r.kind = .openSink entity run →
    (Sink.start places.output entity run places.compressed).file = path

theorem within_serve {r : Request} (hs : s.Fills path) (hr : Opens places path r) :
    (serve places r s).Within (Writes path) fun x => x.2.Fills path := by
  rw [serve]
  split
  · cases r with
    | openSink entity run => exact within_openSink hs (hr.2 entity run rfl)
    | writeBatch batch => exact within_writeBatch batch hs
    | finishSink => exact within_finishSink hs
    | dropSink => exact within_dropSink hs
    | saveReport directory report => exact absurd rfl hr.1
    | _ => rename_i h; cases h
  · exact ⟨trivial, fun reply => hs⟩

/-- A program that opens no other sink writes no other file. -/
theorem within_work {prog : Program services α} (h : prog.Within (Opens places path) fun _ => True)
    (hs : s.Fills path) : (work places prog s).Within (Writes path) fun _ => True := by
  induction prog generalizing s with
  | done value => trivial
  | ask r next ih =>
    exact .bind (within_serve hs h.1) fun served hserved =>
      .bind (ih served.1 (h.2 served.1) hserved) fun _ _ => trivial

end Writing

/-- Programs that share a machine. -/
structure Crew (ι α : Type) where
  programs : ι → Program shared α
  machine : Machine.Memory

namespace Crew

variable {ι α : Type} [DecidableEq ι]

/-- One of the programs goes on with a reply. -/
def goOn (c : Crew ι α) (i : ι) (prog : Program shared α) (m : Machine.Memory) : Crew ι α :=
  ⟨Function.update c.programs i prog, m⟩

/-- One of the programs has a request answered, by the machine or by the services. These may answer
anything and do anything but to the files in some places. -/
inductive Step (kept : ι → Place) (c : Crew ι α) : Crew ι α → Prop
  | machine (i : ι) (r : Machine.Request) (next : r.Reply → Program shared α)
      (h : c.programs i = .ask (S := shared) (.inl r) next) :
      Step kept c (c.goOn i (next (Machine.Memory.answer r c.machine).1)
        (Machine.Memory.answer r c.machine).2)
  | services (i : ι) (r : Request) (next : r.Reply → Program shared α) (reply : r.Reply)
      (m : Machine.Memory) (h : c.programs i = .ask (S := shared) (.inr r) next)
      (hkeeps : ∀ j, KeepsFile (kept j) c.machine.disk m.disk) :
      Step kept c (c.goOn i (next reply) m)

/-- What is left of each program writes to its own path alone, and goes on as the whole of it would
amid others. -/
structure Sound (kept : ι → Place) (paths : ι → String) (start c : Crew ι α) : Prop where
  home : ∀ i, lead c.machine.disk.home (paths i) = kept i
  writes : ∀ i, (c.programs i).Within (Writes (paths i)) fun _ => True
  amid : ∀ i value last, Amid (kept i) (c.programs i) c.machine value last →
    Amid (kept i) (start.programs i) start.machine value last

variable {kept : ι → Place} {paths : ι → String} {start c c' : Crew ι α}

theorem keepsFile_answer {p : Place} {path : String} {r : Machine.Request} {m : Machine.Memory}
    (hr : Writes path (.inl r)) (hp : lead m.disk.home path ≠ p) :
    KeepsFile p m.disk (Machine.Memory.answer r m).2.disk := by
  cases r with
  | disk r => exact Disk.Memory.keepsFile_answer r fun target htarget => by rwa [hr target htarget]
  | _ => exact .refl p m.disk

/-- One program goes on by itself, and the others are left alone. -/
theorem Sound.goOn (hc : Sound kept paths start c) {i : ι} {prog : Program shared α}
    {m : Machine.Memory} (hhome : m.disk.home = c.machine.disk.home)
    (hwrites : prog.Within (Writes (paths i)) fun _ => True)
    (hprog : ∀ value last, Amid (kept i) prog m value last →
      Amid (kept i) (c.programs i) c.machine value last)
    (hothers : ∀ j, j ≠ i → KeepsFile (kept j) c.machine.disk m.disk) :
    Sound kept paths start (c.goOn i prog m) where
  home j := by
    rw [Crew.goOn, hhome]
    exact hc.home j
  writes := (Function.forall_update_iff c.programs fun j prog =>
    prog.Within (Writes (paths j)) fun _ => True).2 ⟨hwrites, fun j _ => hc.writes j⟩
  amid := (Function.forall_update_iff c.programs fun j prog => ∀ value last,
    Amid (kept j) prog m value last → Amid (kept j) (start.programs j) start.machine value last).2
    ⟨fun value last h => hc.amid i value last (hprog value last h),
      fun j hj value last h => hc.amid j value last (h.behind (hothers j hj))⟩

theorem Sound.step (hc : Sound kept paths start c) (hkept : Function.Injective kept)
    (h : Step kept c c') : Sound kept paths start c' := by
  cases h with
  | machine i r next h =>
    obtain ⟨hr, hnext⟩ := h ▸ hc.writes i
    refine hc.goOn (home_answer r c.machine) (hnext _) (fun value last hamid => ?_) fun j hj => ?_
    · rw [h]
      exact .machine r next value _ _ last (.refl _ _) hamid
    · -- it writes to no path but its own, which leads to another place than that of `j`
      refine keepsFile_answer hr ?_
      rw [hc.home i]
      exact fun heq => hj (hkept heq).symm
  | services i r next reply m h hkeeps =>
    obtain ⟨-, hnext⟩ := h ▸ hc.writes i
    refine hc.goOn (hkeeps i).home (hnext reply) (fun value last hamid => ?_) fun j _ => hkeeps j
    rw [h]
    exact .services r next reply value _ _ last (hkeeps i) hamid

theorem Sound.steps (hc : Sound kept paths start c) (hkept : Function.Injective kept)
    (h : Relation.ReflTransGen (Step kept) c c') : Sound kept paths start c' := by
  induction h with
  | refl => exact hc
  | tail _ hstep ih => exact ih.step hkept hstep

/-- A program of the crew is done with what it may be done with amid others. -/
theorem amid_of_steps (hhome : ∀ i, lead start.machine.disk.home (paths i) = kept i)
    (hkept : Function.Injective kept)
    (hwrites : ∀ i, (start.programs i).Within (Writes (paths i)) fun _ => True)
    (h : Relation.ReflTransGen (Step kept) start c) (i : ι) (value : α)
    (hdone : c.programs i = .done value) :
    Amid (kept i) (start.programs i) start.machine value c.machine := by
  have hsound : Sound kept paths start start := ⟨hhome, hwrites, fun _ _ _ h => h⟩
  -- What is left of the program is its value, with which it is done at once.
  refine (hsound.steps hkept h).amid i value c.machine ?_
  rw [hdone]
  exact .done value c.machine c.machine (.refl _ _)

/-- What a program of the crew is done with. -/
def value? (c : Crew ι α) (i : ι) : Option α :=
  match c.programs i with
  | .done value => some value
  | .ask _ _ => none

theorem eq_done_of_value? {ι α : Type} {c : Crew ι α} {i : ι} {value : α}
    (h : c.value? i = some value) : c.programs i = .done value := by
  unfold value? at h
  split at h
  · rename_i hdone
    rwa [Option.some.inj h] at hdone
  · cases h

section Turns

variable {n : Nat} (places : Places) (kept : Fin n → Place)

/-- A program of the crew has its next request answered. The services are the ones on the machine,
as long as they keep what is in the places. -/
def turn (x : Crew (Fin n) α × State) (i : Fin n) : Crew (Fin n) α × State :=
  match x.1.programs i with
  | .done _ => x
  | .ask (.inl r) next =>
    let answered := Machine.Memory.answer r x.1.machine
    (x.1.goOn i (next answered.1) answered.2, x.2)
  | .ask (.inr r) next =>
    let replied := respond places r (x.2, x.1.machine)
    if replied.2.2.disk.home = x.1.machine.disk.home ∧
        ∀ j, replied.2.2.disk.content? (kept j) = x.1.machine.disk.content? (kept j) then
      (x.1.goOn i (next replied.1) replied.2.2, replied.2.1)
    else x

theorem step_turn (x : Crew (Fin n) α × State) (i : Fin n) :
    Relation.ReflTransGen (Step kept) x.1 (turn places kept x i).1 := by
  unfold turn
  split
  · exact .refl
  · rename_i r next h
    exact .single (.machine i r next h)
  · rename_i r next h
    dsimp only
    split
    · rename_i hkeeps
      exact .single (.services i r next _ _ h fun j => ⟨hkeeps.1, fun bytes hfile =>
        (hkeeps.2 j).trans hfile⟩)
    · exact .refl

/-- Turns of the programs are steps of the crew. -/
theorem steps_turns (order : List (Fin n)) (x : Crew (Fin n) α × State) :
    Relation.ReflTransGen (Step kept) x.1 (order.foldl (turn places kept) x).1 := by
  induction order generalizing x with
  | nil => exact .refl
  | cons i order ih => exact (step_turn places kept x i).trans (ih _)

end Turns

end Crew

end Local

end Harvest
