import Harvest.Proofs.Extraction.Release
import Harvest.Proofs.Local.Crew

/-!
# A program alone

A program may have the machine to itself (`Local.Alone`). What it leaves can then be told from its
requests, and a member of a crew that goes on alone takes steps of the crew
(`Local.Crew.steps_of_alone`). A program that leaves its sink closed is done with the state that it
was begun with (`Local.Alone.state_eq`).
-/

namespace Harvest

open Program (Exchange)
open Disk (Place)
open Disk.Memory (KeepsFile lead)

namespace Local

theorem work_bind {α β : Type} (places : Places) (p : Program services α)
    (f : α → Program services β) (s : State) :
    work places (p.bind f) s = (work places p s).bind fun first =>
      (work places (f first.2.1) first.2.2).bind fun rest => .done (first.1 ++ rest.1, rest.2) := by
  induction p generalizing s with
  | done a => exact (Program.bind_done _).symm
  | ask r next ih =>
    simp only [Program.ask_bind, work, ih, Program.bind_assoc, Program.done_bind, List.cons_append]

/-- The program may be done with the value on a machine of its own. The services may answer anything
and do anything but move the home or write to the files in some places. -/
inductive Alone {ι : Type} (kept : ι → Place) {α : Type} :
    Program shared α → Machine.Memory → α → Machine.Memory → Prop
  | done (value : α) (m : Machine.Memory) : Alone kept (.done value) m value m
  | machine (r : Machine.Request) (next : r.Reply → Program shared α) (value : α)
      (m last : Machine.Memory)
      (hrest : Alone kept (next (Machine.Memory.answer r m).1) (Machine.Memory.answer r m).2
        value last) :
      Alone kept (.ask (S := shared) (.inl r) next) m value last
  | elsewhere (r : Request) (next : r.Reply → Program shared α) (reply : r.Reply) (value : α)
      (m m₁ last : Machine.Memory) (hhome : m₁.disk.home = m.disk.home)
      (h : ∀ i, KeepsFile (kept i) m.disk m₁.disk)
      (hrest : Alone kept (next reply) m₁ value last) :
      Alone kept (.ask (S := shared) (.inr r) next) m value last

namespace Alone

variable {ι : Type} {kept : ι → Place} {α β : Type} {m m₁ last : Machine.Memory}

theorem of_done {value value' : α} (h : Alone kept (.done value) m value' last) :
    value' = value ∧ last = m := by
  cases h with
  | done => exact ⟨rfl, rfl⟩

theorem of_bind {x : Program shared α} {f : α → Program shared β} {value : β}
    (h : Alone kept (x.bind f) m value last) :
    ∃ a middle, Alone kept x m a middle ∧ Alone kept (f a) middle value last := by
  induction x generalizing m with
  | done a => exact ⟨a, m, .done a m, h⟩
  | ask r next ih =>
    cases h with
    | machine r _ _ _ _ hrest =>
      obtain ⟨a, middle, hfirst, hlast⟩ := ih _ hrest
      exact ⟨a, middle, .machine r next a m middle hfirst, hlast⟩
    | elsewhere r _ reply _ _ m₁ _ hhome h hrest =>
      obtain ⟨a, middle, hfirst, hlast⟩ := ih _ hrest
      exact ⟨a, middle, .elsewhere r next reply a m m₁ middle hhome h hfirst, hlast⟩

theorem bind {x : Program shared α} {f : α → Program shared β} {a : α} {b : β}
    (h : Alone kept x m a m₁) (hf : Alone kept (f a) m₁ b last) :
    Alone kept (x.bind f) m b last := by
  induction h with
  | done => exact hf
  | machine r next value m last hrest ih => exact .machine r _ b m _ (ih hf)
  | elsewhere r next reply value m m₁ last hhome h hrest ih =>
    exact .elsewhere r _ reply b m m₁ _ hhome h (ih hf)

theorem home {prog : Program shared α} {a : α} (h : Alone kept prog m a last) :
    last.disk.home = m.disk.home := by
  induction h with
  | done => rfl
  | machine r next value m last hrest ih => exact ih.trans (home_answer r m)
  | elsewhere r next reply value m m₁ last hhome h hrest ih => exact ih.trans hhome

theorem run_onMachine (prog : Program Machine.service α) (m : Machine.Memory) :
    Alone kept (onMachine prog) m ((prog.run Machine.Memory.answer).run m).1
      ((prog.run Machine.Memory.answer).run m).2 := by
  induction prog generalizing m with
  | done value => exact .done value m
  | ask r next ih => exact .machine r _ _ m _ (ih _ _)

/-- What is asked of the machine is answered by it. -/
theorem of_onMachine {prog : Program Machine.service α} {a : α}
    (h : Alone kept (onMachine prog) m a last) :
    (a, last) = (prog.run Machine.Memory.answer).run m := by
  induction prog generalizing m with
  | done value =>
    obtain ⟨rfl, rfl⟩ := h.of_done
    rfl
  | ask r next ih =>
    cases h with
    | machine _ _ _ _ _ hrest => exact ih _ hrest

end Alone

section Serving

variable {ι : Type} {kept : ι → Place} {places : Places} {α β : Type} {s s' : State}
  {m last : Machine.Memory} {log : List (Exchange services)}

theorem Alone.of_serve {r : Request} {reply : r.Reply} (hr : r.kind.isFiling = false)
    (h : Alone kept (serve places r s) m (reply, s') last) :
    s' = s ∧ ∀ i, KeepsFile (kept i) m.disk last.disk := by
  rw [serve, hr, if_neg Bool.false_ne_true] at h
  cases h with
  | elsewhere _ _ _ _ _ _ _ _ hkeeps hrest =>
    obtain ⟨heq, rfl⟩ := hrest.of_done
    cases heq
    exact ⟨rfl, hkeeps⟩

theorem Alone.of_work_ask {r : Request} {next : r.Reply → Program services α} {a : α}
    (h : Alone kept (work places (.ask r next) s) m (log, a, s') last) :
    ∃ reply s₁ m₁ rest, log = ⟨r, reply⟩ :: rest ∧
      Alone kept (serve places r s) m (reply, s₁) m₁ ∧
      Alone kept (work places (next reply) s₁) m₁ (rest, a, s') last := by
  obtain ⟨⟨reply, s₁⟩, m₁, hserved, hrest⟩ := h.of_bind
  obtain ⟨⟨rest, b, s₂⟩, m₂, hworked, hidle⟩ := hrest.of_bind
  obtain ⟨heq, rfl⟩ := hidle.of_done
  cases heq
  exact ⟨reply, s₁, m₁, rest, rfl, hserved, hworked⟩

theorem Alone.work_ask {r : Request} {next : r.Reply → Program services α} {a : α}
    {reply : r.Reply} {s₁ : State} {m₁ : Machine.Memory}
    (hserved : Alone kept (serve places r s) m (reply, s₁) m₁)
    (h : Alone kept (work places (next reply) s₁) m₁ (log, a, s') last) :
    Alone kept (work places (.ask r next) s) m (⟨r, reply⟩ :: log, a, s') last :=
  hserved.bind (h.bind (.done _ last))

theorem Alone.of_work_done {a b : α}
    (h : Alone kept (work places (.done a) s) m (log, b, s') last) :
    log = [] ∧ b = a ∧ s' = s ∧ last = m := by
  obtain ⟨heq, rfl⟩ := h.of_done
  cases heq
  exact ⟨rfl, rfl, rfl, rfl⟩

/-- A run of two programs in sequence is one of the first and then one of the second. -/
theorem Alone.of_work_bind {p : Program services α} {f : α → Program services β} {b : β}
    (h : Alone kept (work places (p.bind f) s) m (log, b, s') last) :
    ∃ first a s₁ m₁ rest, log = first ++ rest ∧
      Alone kept (work places p s) m (first, a, s₁) m₁ ∧
      Alone kept (work places (f a) s₁) m₁ (rest, b, s') last := by
  rw [work_bind] at h
  obtain ⟨⟨first, a, s₁⟩, m₁, hfirst, hrest⟩ := h.of_bind
  obtain ⟨⟨rest, b', s₂⟩, m₂, hworked, hidle⟩ := hrest.of_bind
  obtain ⟨heq, rfl⟩ := hidle.of_done
  cases heq
  exact ⟨first, a, s₁, m₁, rest, rfl, hfirst, hworked⟩

theorem Alone.of_work_andThen {x : Engine α} {f : α → Engine β} {b : β}
    (h : Alone kept (work places (x >>= f : Engine β) s) m (log, .ok b, s') last) :
    ∃ first a s₁ m₁ rest, log = first ++ rest ∧
      Alone kept (work places x s) m (first, (.ok a : Except ExtractError α), s₁) m₁ ∧
      Alone kept (work places (f a) s₁) m₁ (rest, (.ok b : Except ExtractError β), s') last := by
  obtain ⟨first, outcome, s₁, m₁, rest, rfl, hfirst, hrest⟩ :=
    Alone.of_work_bind (p := x) (f := ExceptT.bindCont f) h
  cases outcome with
  | error e => cases hrest.of_work_done.2.1
  | ok a => exact ⟨first, a, s₁, m₁, rest, rfl, hfirst, hrest⟩

/-- A program that does nothing for the sink and saves no report leaves the files alone. -/
theorem Alone.of_asks {p : Program services α} {kinds : List Request.Kind} {a : α}
    (hp : p.Asks kinds) (hkinds : ∀ kind ∈ kinds, kind.isFiling = false)
    (h : Alone kept (work places p s) m (log, a, s') last) :
    s' = s ∧ ∀ i, KeepsFile (kept i) m.disk last.disk := by
  induction p generalizing m log with
  | done value =>
    obtain ⟨-, -, rfl, rfl⟩ := h.of_work_done
    exact ⟨rfl, fun i => .refl (kept i) last.disk⟩
  | ask r next ih =>
    obtain ⟨reply, s₁, m₁, rest, -, hserved, hrest⟩ := h.of_work_ask
    obtain ⟨rfl, hkeeps⟩ := hserved.of_serve (hkinds _ hp.1)
    obtain ⟨rfl, hlast⟩ := ih reply (hp.2 reply) hrest
    exact ⟨rfl, fun i => (hkeeps i).trans (hlast i)⟩

end Serving

theorem isSteady_of_not_isFiling {kind : Request.Kind} (h : kind.isFiling = false) :
    kind.isSteady = true := by
  cases kind with
  | openSink entity run => cases h
  | finish => cases h
  | drop => cases h
  | _ => rfl

section Handling

variable {ι : Type} {kept : ι → Place} {places : Places} {α : Type} {s s' : State}
  {m last : Machine.Memory} {log : List (Exchange services)}

/-- What is asked for the sink is answered by the machine. -/
theorem Alone.eq_respond {r : Request} {reply : r.Reply} (hr : r.kind.isFiling = true)
    (h : Alone kept (serve places r s) m (reply, s') last) :
    (reply, s', last) = respond places r (s, m) := by
  rw [serve, if_pos hr] at h
  have hrun := h.of_onMachine
  exact congrArg (fun x => (x.1.1, x.1.2, x.2)) hrun

theorem Alone.served {r : Request} (hr : r.kind.isFiling = true) (s : State)
    (m : Machine.Memory) :
    Alone kept (serve places r s) m ((respond places r (s, m)).1, (respond places r (s, m)).2.1)
      (respond places r (s, m)).2.2 := by
  rw [serve, if_pos hr]
  exact .run_onMachine (answer places r s) m

/-- The clock may tell any time. -/
theorem Alone.clocked (seconds : Float) (s : State) (m : Machine.Memory) :
    Alone kept (serve places .clock s) m (seconds, s) m :=
  .elsewhere .clock _ seconds _ m m m rfl (fun i => .refl (kept i) m.disk) (.done _ m)

/-- Of the state a machine that answers for the sink changes no more than the sink. -/
theorem sink_respond (places : Places) {r : Request} (hr : r.kind.isFiling = true) (host : Host) :
    (respond places r host).2.1.sink.isSome =
        r.opensBehind host.1.sink.isSome (respond places r host).1 ∧
      (respond places r host).2.1 =
        { host.1 with sink := (respond places r host).2.1.sink } := by
  cases r with
  | openSink entity run =>
    rw [respond_openSink]
    rcases Program.onDisk (Sink.create places.output entity run places.compressed).run
      host.2.disk with ⟨e | sink, disk⟩
    · exact ⟨rfl, rfl⟩
    · exact ⟨rfl, rfl⟩
  | writeBatch batch =>
    cases hsink : host.1.sink with
    | none =>
      rw [snd_respond_of_none places hsink (by simp [Request.kind]), hsink]
      exact ⟨rfl, by rw [← hsink]⟩
    | some sink =>
      rw [respond_writeBatch places batch hsink]
      exact ⟨rfl, rfl⟩
  | finishSink =>
    cases hsink : host.1.sink with
    | none =>
      rw [snd_respond_of_none places hsink (by simp [Request.kind]), hsink]
      exact ⟨rfl, by rw [← hsink]⟩
    | some sink =>
      rw [respond_finishSink places hsink]
      exact ⟨rfl, rfl⟩
  | dropSink =>
    cases hsink : host.1.sink with
    | none =>
      rw [snd_respond_of_none places hsink (by simp [Request.kind]), hsink]
      exact ⟨rfl, by rw [← hsink]⟩
    | some sink =>
      rw [respond_dropSink places hsink]
      exact ⟨rfl, rfl⟩
  | saveReport directory report =>
    rw [respond_saveReport]
    exact ⟨rfl, rfl⟩
  | _ => cases hr

theorem Alone.sink_serve {r : Request} {reply : r.Reply}
    (h : Alone kept (serve places r s) m (reply, s') last) :
    s'.sink.isSome = r.opensBehind s.sink.isSome reply ∧ s' = { s with sink := s'.sink } := by
  cases hr : r.kind.isFiling with
  | true =>
    have hresponse := h.eq_respond hr
    have hsink := sink_respond places hr (s, m)
    rw [← hresponse] at hsink
    exact hsink
  | false =>
    obtain ⟨rfl, -⟩ := h.of_serve hr
    exact ⟨(Request.opensBehind_of_isSteady reply (isSteady_of_not_isFiling hr)).symm, rfl⟩

/-- A program is done with what it leaves, and changes no more of the state than the sink. -/
theorem Alone.of_leaves {Q : α → Bool → Prop} {p : Program services α} {a : α}
    (hp : p.Leaves Q s.sink.isSome) (h : Alone kept (work places p s) m (log, a, s') last) :
    Q a s'.sink.isSome ∧ s' = { s with sink := s'.sink } := by
  induction p generalizing s m log with
  | done value =>
    obtain ⟨-, rfl, rfl, -⟩ := h.of_work_done
    exact ⟨hp, rfl⟩
  | ask r next ih =>
    obtain ⟨reply, s₁, m₁, rest, -, hserved, hrest⟩ := h.of_work_ask
    obtain ⟨hsink, hstate⟩ := hserved.sink_serve
    have hnext := hp reply
    rw [← hsink] at hnext
    obtain ⟨ha, hlast⟩ := ih reply hnext hrest
    exact ⟨ha, hlast.trans (by rw [hstate])⟩

/-- A program that leaves its sink closed is done with the state that it was begun with. -/
theorem Alone.state_eq {p : Program services α} {a : α} (hp : p.Closed) (hs : s.sink = none)
    (h : Alone kept (work places p s) m (log, a, s') last) : s' = s := by
  obtain ⟨hclosed, hstate⟩ := Alone.of_leaves (by rw [hs]; exact hp) h
  have hnone : s'.sink = none := Option.isNone_iff_eq_none.1 (Option.isSome_eq_false_iff.1 hclosed)
  rw [hstate, hnone, ← hs]

end Handling

/-- A member of a crew goes on alone to where it is done. -/
theorem Crew.steps_of_alone {ι α : Type} [DecidableEq ι] {kept : ι → Place} {c : Crew ι α} {i : ι}
    {value : α} {last : Machine.Memory} (h : Alone kept (c.programs i) c.machine value last) :
    Relation.ReflTransGen (Step kept) c (c.goOn i (.done value) last) := by
  -- Behind each step the member is at the rest of its program, of which the induction speaks.
  generalize hprogram : c.programs i = prog at h
  generalize hmachine : c.machine = m at h
  induction h generalizing c with
  | done value m =>
    rw [goOn, ← hprogram, ← hmachine, Function.update_eq_self]
  | machine r next value m last hrest ih =>
    subst hmachine
    refine .head (.machine i r next hprogram) ?_
    have hsteps := ih (c := c.goOn i (next (Machine.Memory.answer r c.machine).1)
      (Machine.Memory.answer r c.machine).2) (Function.update_self ..) rfl
    rwa [goOn, goOn, Function.update_idem] at hsteps
  | elsewhere r next reply value m m₁ last hhome h hrest ih =>
    subst hmachine
    refine .head (.services i r next reply m₁ hprogram h) ?_
    have hsteps := ih (c := c.goOn i (next reply) m₁) (Function.update_self ..) rfl
    rwa [goOn, goOn, Function.update_idem] at hsteps

end Local

end Harvest
