import Harvest.Proofs.Local.Filing

/-!
# A program amid others

A program that works for one entity keeps its own sink and shares everything else. A step of it is
one request, so the steps of others may stand between any two of its own (`Local.Amid`). As long as
these keep the file in one place, which is that of its sink, the sink is opened, takes batches and
is finished as if the program were alone (`Local.stored_of_beside`).
-/

namespace Harvest

open Program (Trace Exchange)
open Disk (Place)
open Disk.Memory (KeepsFile lead)

/-- Every request of the program has `P`, and what it is done with has `Q`. -/
def Program.Within {S : Service} {α : Type} (P : S.Request → Prop) (Q : α → Prop) :
    Program S α → Prop
  | .done value => Q value
  | .ask r next => P r ∧ ∀ reply, (next reply).Within P Q

namespace Program.Within

variable {S : Service} {α β : Type} {P : S.Request → Prop} {Q : α → Prop} {R : β → Prop}

theorem bind {p : Program S α} {f : α → Program S β} (h : p.Within P Q)
    (hf : ∀ a, Q a → (f a).Within P R) : (p.bind f).Within P R := by
  induction p with
  | done value => exact hf value h
  | ask r next ih => exact ⟨h.1, fun reply => ih reply (h.2 reply)⟩

/-- Two programs in sequence of which the first one may end with an error. -/
theorem andThen {ε : Type} {x : ExceptT ε (Program S) α} {f : α → ExceptT ε (Program S) β}
    {Q : Except ε α → Prop} {R : Except ε β → Prop} (h : Program.Within P Q x)
    (hf : ∀ a, Q (.ok a) → Program.Within P R (f a)) (herror : ∀ e, Q (.error e) → R (.error e)) :
    Program.Within P R (x >>= f : ExceptT ε (Program S) β) :=
  bind h fun
    | .ok a, ha => hf a ha
    | .error e, he => herror e he

end Program.Within

namespace Local

theorem home_answer (r : Machine.Request) (m : Machine.Memory) :
    (Machine.Memory.answer r m).2.disk.home = m.disk.home := by
  cases r with
  | disk r => exact Disk.Memory.home_answer r m.disk
  | _ => rfl

/-- What is asked of the machine by the program itself, and what is asked of the services. -/
abbrev shared : Service :=
  ⟨Machine.Request ⊕ Request, Sum.elim Machine.Request.Reply Request.Reply⟩

/-- A program over the machine. -/
def onMachine {α : Type} : Program Machine.service α → Program shared α
  | .done value => .done value
  | .ask r next => .ask (S := shared) (.inl r) fun reply => onMachine (next reply)

/-- Has a request answered: what is for the sink is done on the machine. -/
def serve (places : Places) (r : Request) (s : State) : Program shared (r.Reply × State) :=
  if r.kind.isFiling then onMachine (answer places r s)
  else .ask (S := shared) (.inr r) fun reply => .done (reply, s)

/-- Runs a program with a sink of its own, and lists the exchanges. -/
def work {α : Type} (places : Places) :
    Program services α → State → Program shared (List (Exchange services) × α × State)
  | .done value, s => .done ([], value, s)
  | .ask r next, s =>
    (serve places r s).bind fun served => (work places (next served.1) served.2).bind fun rest =>
      .done (⟨r, served.1⟩ :: rest.1, rest.2)

/-- The program may be done with the value, while others keep the file in a place. The services may
answer anything and do what the others may do. -/
inductive Amid (p : Place) {α : Type} :
    Program shared α → Machine.Memory → α → Machine.Memory → Prop
  | done (value : α) (m last : Machine.Memory) (h : KeepsFile p m.disk last.disk) :
      Amid p (.done value) m value last
  | machine (r : Machine.Request) (next : r.Reply → Program shared α) (value : α)
      (m m₁ last : Machine.Memory) (h : KeepsFile p m.disk m₁.disk)
      (hrest : Amid p (next (Machine.Memory.answer r m₁).1) (Machine.Memory.answer r m₁).2
        value last) :
      Amid p (.ask (S := shared) (.inl r) next) m value last
  | services (r : Request) (next : r.Reply → Program shared α) (reply : r.Reply) (value : α)
      (m m₁ last : Machine.Memory) (h : KeepsFile p m.disk m₁.disk)
      (hrest : Amid p (next reply) m₁ value last) :
      Amid p (.ask (S := shared) (.inr r) next) m value last

namespace Amid

variable {p : Place} {α β : Type} {m m₁ last : Machine.Memory}

theorem behind {prog : Program shared α} {value : α} (hkeeps : KeepsFile p m.disk m₁.disk)
    (h : Amid p prog m₁ value last) : Amid p prog m value last := by
  cases h with
  | done value _ _ h => exact .done value m last (hkeeps.trans h)
  | machine r next value _ m₂ _ h hrest =>
    exact .machine r next value m m₂ last (hkeeps.trans h) hrest
  | services r next reply value _ m₂ _ h hrest =>
    exact .services r next reply value m m₂ last (hkeeps.trans h) hrest

theorem ahead {prog : Program shared α} {value : α} (h : Amid p prog m value m₁)
    (hkeeps : KeepsFile p m₁.disk last.disk) : Amid p prog m value last := by
  induction h with
  | done value m _ h => exact .done value m last (h.trans hkeeps)
  | machine r next value m m₂ _ h _ ih => exact .machine r next value m m₂ last h (ih hkeeps)
  | services r next reply value m m₂ _ h _ ih =>
    exact .services r next reply value m m₂ last h (ih hkeeps)

theorem of_done {value value' : α} (h : Amid p (.done value) m value' last) :
    value' = value ∧ KeepsFile p m.disk last.disk := by
  cases h with
  | done _ _ _ h => exact ⟨rfl, h⟩

/-- A run of two programs in sequence is one of the first and then one of the second. -/
theorem of_bind {x : Program shared α} {f : α → Program shared β} {value : β}
    (h : Amid p (x.bind f) m value last) :
    ∃ a middle, Amid p x m a middle ∧ Amid p (f a) middle value last := by
  induction x generalizing m with
  | done a => exact ⟨a, m, .done a m m (.refl p m.disk), h⟩
  | ask r next ih =>
    cases h with
    | machine r _ _ _ m₁ _ h hrest =>
      obtain ⟨a, middle, hfirst, hlast⟩ := ih _ hrest
      exact ⟨a, middle, .machine r next a m m₁ middle h hfirst, hlast⟩
    | services r _ reply _ _ m₁ _ h hrest =>
      obtain ⟨a, middle, hfirst, hlast⟩ := ih _ hrest
      exact ⟨a, middle, .services r next reply a m m₁ middle h hfirst, hlast⟩

theorem home {prog : Program shared α} {value : α} (h : Amid p prog m value last) :
    last.disk.home = m.disk.home := by
  induction h with
  | done _ _ _ h => exact h.home
  | machine r next value m m₁ last h hrest ih => exact ih.trans ((home_answer r m₁).trans h.home)
  | services r next reply value m m₁ last h hrest ih => exact ih.trans h.home

end Amid

theorem onMachine_bind {α β : Type} (x : Program Machine.service α)
    (f : α → Program Machine.service β) :
    onMachine (x.bind f) = (onMachine x).bind fun a => onMachine (f a) := by
  induction x with
  | done a => rfl
  | ask r next ih => exact congrArg _ (funext fun reply => ih reply)

/-- A program over the disk of the machine. -/
def onDisk {α : Type} (prog : Program Disk.service α) : Program shared α :=
  onMachine (Machine.ofDisk prog)

theorem onDisk_bind {α β : Type} (x : Program Disk.service α) (f : α → Program Disk.service β) :
    onDisk (x.bind f) = (onDisk x).bind fun a => onDisk (f a) := by
  induction x with
  | done a => rfl
  | ask r next ih => exact congrArg _ (funext fun reply => ih reply)

namespace Amid

section Storing

variable {p : Place} {α β : Type} {m last : Machine.Memory} {path : String}

/-- A program over the disk that ends well went well at its first step. -/
theorem ok_of_storing_bind {x : Storing α} {f : α → Storing β} {b : β}
    (h : Amid p (onDisk (x >>= f : Storing β)) m (.ok b) last) :
    ∃ a middle, Amid p (onDisk x) m (.ok a) middle ∧ Amid p (onDisk (f a)) middle (.ok b) last := by
  have h' : Amid p (onDisk (Program.bind x (ExceptT.bindCont f))) m (.ok b) last := h
  rw [onDisk_bind] at h'
  obtain ⟨result, middle, hx, hrest⟩ := h'.of_bind
  cases result with
  | error e => cases hrest.of_done.1
  | ok a => exact ⟨a, middle, hx, hrest⟩

theorem of_reply {r : Disk.Request} {f : r.Reply → α} {value : α}
    (h : Amid p (onDisk ((Program.request (S := Disk.service) r).bind fun reply =>
      .done (f reply))) m value last) :
    ∃ m₁ : Disk.Memory, KeepsFile p m.disk m₁ ∧ value = f (Disk.Memory.answer r m₁).1 ∧
      KeepsFile p (Disk.Memory.answer r m₁).2 last.disk := by
  cases h with
  | machine _ _ _ _ m₁ _ h hrest =>
    obtain ⟨hvalue, hkeeps⟩ := hrest.of_done
    exact ⟨m₁.disk, h, hvalue, hkeeps⟩

/-- A file that is written is kept by the others from then on. -/
theorem content?_of_writeFile {m₁ m₂ : Disk.Memory} {content : List UInt8 → List UInt8}
    (hp : lead m.disk.home path = p) (hbefore : KeepsFile p m.disk m₁)
    (h : m₁.writeFile path content = .ok m₂) (hafter : KeepsFile p m₂ last.disk) :
    ∃ old, (m₁.content? p).getD (.file []) = .file old ∧
      last.disk.content? p = some (.file (content old)) := by
  obtain ⟨-, old, hold, hcontent⟩ := Disk.Memory.content?_writeFile h
  rw [hbefore.home, hp] at hold hcontent
  exact ⟨old, hold, hafter.file _ ((hcontent p).trans (if_pos rfl))⟩

theorem content?_of_write {bytes : List UInt8} (hp : lead m.disk.home path = p)
    (h : Amid p (onDisk (Storing.write path bytes)) m (.ok ()) last) :
    last.disk.content? p = some (.file bytes) := by
  obtain ⟨m₁, hbefore, hreply, hafter⟩ := of_reply h
  obtain ⟨-, -, hcontent⟩ := content?_of_writeFile hp hbefore
    (Storing.writeFile_of_write (Prod.ext hreply.symm rfl)) hafter
  exact hcontent

theorem content?_of_append {old bytes : List UInt8} (hp : lead m.disk.home path = p)
    (hold : m.disk.content? p = some (.file old))
    (h : Amid p (onDisk (Storing.append path bytes)) m (.ok ()) last) :
    last.disk.content? p = some (.file (old ++ bytes)) := by
  obtain ⟨m₁, hbefore, hreply, hafter⟩ := of_reply h
  obtain ⟨_, hold', hcontent⟩ := content?_of_writeFile hp hbefore
    (Storing.writeFile_of_append (Prod.ext hreply.symm rfl)) hafter
  rw [hbefore.file old hold] at hold'
  cases hold'
  exact hcontent

theorem eq_of_size {bytes : List UInt8} {n : Nat} (hp : lead m.disk.home path = p)
    (hfile : m.disk.content? p = some (.file bytes))
    (h : Amid p (onDisk (Storing.size path)) m (.ok n) last) :
    n = bytes.length ∧ last.disk.content? p = some (.file bytes) := by
  obtain ⟨m₁, hbefore, hreply, hafter⟩ := of_reply h
  have hfile₁ := hbefore.file bytes hfile
  obtain ⟨-, e, he, hn⟩ := Storing.content?_of_size (Prod.ext hreply.symm rfl)
  rw [hbefore.home, hp, hfile₁] at he
  cases he
  exact ⟨hn, hafter.file bytes hfile₁⟩

end Storing

section Sinks

variable {p : Place} {m last : Machine.Memory} {sink : Sink}

/-- A sink is opened with an empty file, if others leave its place alone. -/
theorem file_of_create {root entity run : String} {compressed : Bool}
    (hp : lead m.disk.home (Sink.start root entity run compressed).file = p)
    (h : Amid p (onDisk (Sink.create root entity run compressed).run) m (.ok sink) last) :
    sink = .start root entity run compressed ∧ last.disk.content? p = some (.file []) := by
  obtain ⟨_, middle, hmade, hrest⟩ := ok_of_storing_bind h
  obtain ⟨_, after, hwritten, hlast⟩ := ok_of_storing_bind hrest
  obtain ⟨heq, hkeeps⟩ := hlast.of_done
  cases heq
  rw [← hmade.home] at hp
  exact ⟨rfl, hkeeps.file [] (content?_of_write hp hwritten)⟩

/-- Finishing a sink writes its content, and tells how much it is. -/
theorem file_of_finish {summary : Summary} (hp : lead m.disk.home sink.file = p)
    (hfile : m.disk.content? p = some (.file []))
    (h : Amid p (onDisk sink.finish.run) m (.ok summary) last) :
    last.disk.content? p = some (.file sink.content) ∧
      summary = ⟨sink.directory, [sink.file], sink.rows, sink.content.length,
        sink.header.getD []⟩ := by
  obtain ⟨_, middle, happended, hrest⟩ := ok_of_storing_bind h
  obtain ⟨bytes, after, hsize, hlast⟩ := ok_of_storing_bind hrest
  obtain ⟨heq, hkeeps⟩ := hlast.of_done
  cases heq
  have hwritten := content?_of_append hp hfile happended
  rw [← happended.home] at hp
  obtain ⟨rfl, hfile'⟩ := eq_of_size hp hwritten hsize
  exact ⟨hkeeps.file _ hfile', rfl⟩

end Sinks

end Amid

/-- A host during some exchanges of one of its programs. -/
inductive Beside (places : Places) (p : Place) : Host → List (Exchange services) → Host → Prop
  | nil (s : State) (m last : Machine.Memory) (h : KeepsFile p m.disk last.disk) :
      Beside places p (s, m) [] (s, last)
  | cons (r : Request) (reply : r.Reply) (host middle last : Host) (log : List (Exchange services))
      (h : Amid p (serve places r host.1) host.2 (reply, middle.1) middle.2)
      (hrest : Beside places p middle log last) : Beside places p host (⟨r, reply⟩ :: log) last

theorem beside_of_amid {places : Places} {p : Place} {α : Type} {prog : Program services α}
    {s s' : State} {m last : Machine.Memory} {log : List (Exchange services)} {value : α}
    (h : Amid p (work places prog s) m (log, value, s') last) :
    Trace prog log value ∧ Beside places p (s, m) log (s', last) := by
  induction prog generalizing s m log with
  | done value' =>
    obtain ⟨heq, hkeeps⟩ := h.of_done
    cases heq
    exact ⟨.done _, .nil _ m last hkeeps⟩
  | ask r next ih =>
    obtain ⟨⟨reply, s₁⟩, m₁, hserved, hrest⟩ := h.of_bind
    obtain ⟨⟨others, v, s₂⟩, m₂, hothers, hidle⟩ := hrest.of_bind
    obtain ⟨heq, hkeeps⟩ := hidle.of_done
    cases heq
    obtain ⟨ht, hbeside⟩ := ih _ (hothers.ahead hkeeps)
    exact ⟨.ask r next reply others _ ht, .cons r reply (s, m) (s₁, m₁) _ others hserved hbeside⟩

section Serving

variable {places : Places} {p : Place} {entity run : String} {s s' : State}
  {m last : Machine.Memory}

/-- What is not for the sink leaves the sink alone. -/
theorem Amid.of_serve {r : Request} {reply : r.Reply} (hr : r.kind.isFiling = false)
    (h : Amid p (serve places r s) m (reply, s') last) : s' = s ∧ KeepsFile p m.disk last.disk := by
  rw [serve, hr, if_neg Bool.false_ne_true] at h
  cases h with
  | services _ _ reply _ _ m₁ _ h hrest =>
    obtain ⟨heq, hkeeps⟩ := hrest.of_done
    cases heq
    exact ⟨rfl, h.trans hkeeps⟩

theorem filling_of_serve_openSink
    (h : Amid (outputPlace places m.disk.home entity run) (serve places (.openSink entity run) s) m
      ((.ok () : Except ExtractError Unit), s') last) :
    Filling places entity run [] (s', last) := by
  have hhome := h.home
  have h' : Amid (outputPlace places m.disk.home entity run)
      (onMachine (openSink places entity run s)) m (.ok (), s') last := h
  rw [openSink, onMachine_bind] at h'
  obtain ⟨created, m₁, hcreate, hdone⟩ := h'.of_bind
  cases created with
  | error e => cases hdone.of_done.1
  | ok sink =>
    obtain ⟨heq, hkeeps⟩ := hdone.of_done
    cases heq
    obtain ⟨rfl, hfile⟩ := Amid.file_of_create rfl hcreate
    refine ⟨⟨_, rfl, Sink.holds_start _ _ _ _, rfl, rfl⟩, ?_⟩
    rw [hhome]
    exact hkeeps.file [] hfile

/-- A batch that is taken is held behind what was there. -/
theorem Filling.serve_writeBatch {records : List Record} {batch : Batch}
    (hfilling : Filling places entity run records (s, m))
    (h : Amid (outputPlace places m.disk.home entity run) (serve places (.writeBatch batch) s) m
      ((.ok () : Except ExtractError Unit), s') last) :
    Filling places entity run (records ++ batch.records) (s', last) := by
  obtain ⟨sink, hsink, hholds, hfile, hcompressed⟩ := hfilling.sink
  have hhome := h.home
  have hwrite : Local.writeBatch batch s = .done ((sink.takeAll batch.records).1.mapError .sink,
      { s with sink := some (sink.takeAll batch.records).2 }) := by
    unfold Local.writeBatch
    rw [hsink]
  have h' : Amid (outputPlace places m.disk.home entity run) (onMachine
      (Local.writeBatch batch s)) m (.ok (), s') last := h
  rw [hwrite] at h'
  obtain ⟨heq, hkeeps⟩ := h'.of_done
  rcases htaken : sink.takeAll batch.records with ⟨e | u, sink'⟩
  · rw [htaken] at heq
    cases heq
  · rw [htaken] at heq
    cases heq
    obtain ⟨hholds', hfile', hcompressed'⟩ := hholds.takeAll htaken
    refine ⟨⟨sink', rfl, hholds', hfile'.trans hfile, hcompressed'.trans hcompressed⟩, ?_⟩
    rw [hhome]
    exact hkeeps.file [] hfilling.file

/-- The sink that is finished leaves the file of what it holds, and tells how much it is. -/
theorem stored_of_serve_finishSink {records : List Record} {summary : Summary}
    (hfilling : Filling places entity run records (s, m))
    (h : Amid (outputPlace places m.disk.home entity run) (serve places .finishSink s) m
      ((.ok summary : Except ExtractError Summary), s') last) :
    s'.sink = none ∧ last.disk.content? (outputPlace places m.disk.home entity run) =
        some (.file (Sink.fileOf places.compressed records)) ∧
      summary.rows = records.length ∧
      summary.bytes = (Sink.fileOf places.compressed records).length := by
  obtain ⟨sink, hsink, hholds, hfile, hcompressed⟩ := hfilling.sink
  have hfinish : finishSink s = (Machine.ofDisk sink.finish.run).bind fun x =>
      .done (x, { s with sink := none }) := by
    unfold finishSink
    rw [hsink]
  have h' : Amid (outputPlace places m.disk.home entity run) (onMachine (finishSink s)) m
      (.ok summary, s') last := h
  rw [hfinish, onMachine_bind] at h'
  obtain ⟨finished, m₁, hfinished, hdone⟩ := h'.of_bind
  obtain ⟨heq, hkeeps⟩ := hdone.of_done
  cases heq
  have hplace : lead m.disk.home sink.file = outputPlace places m.disk.home entity run := by
    rw [hfile]
    rfl
  obtain ⟨hwritten, rfl⟩ := Amid.file_of_finish hplace hfilling.file hfinished
  rw [hholds.content_eq, hcompressed] at hwritten
  refine ⟨rfl, hkeeps.file _ hwritten, hholds.rows_eq, ?_⟩
  rw [hholds.content_eq, hcompressed]

end Serving

section Staying

variable {places : Places} {p : Place} {entity run : String} {host last : Host}
  {log log' : List (Exchange services)}

theorem Beside.append (h : Beside places p host (log ++ log') last) :
    ∃ middle, Beside places p host log middle ∧ Beside places p middle log' last := by
  induction log generalizing host with
  | nil => exact ⟨host, .nil host.1 host.2 host.2 (.refl p host.2.disk), h⟩
  | cons x log ih =>
    cases h with
    | cons r reply _ next _ _ hserved hrest =>
      obtain ⟨middle, hfirst, hlast⟩ := ih hrest
      exact ⟨middle, .cons r reply host next middle log hserved hfirst, hlast⟩

theorem Beside.home (h : Beside places p host log last) :
    last.2.disk.home = host.2.disk.home := by
  induction h with
  | nil s m last h => exact h.home
  | cons r reply host middle last log h hrest ih => exact ih.trans h.home

theorem Stored.keeps {bytes : List UInt8} {s : State} {m m' : Machine.Memory}
    (h : Stored p bytes (s, m)) (hkeeps : KeepsFile p m.disk m'.disk) : Stored p bytes (s, m') :=
  ⟨hkeeps.file bytes h.file, fun sink hsink => by
    rw [hkeeps.home]
    exact h.elsewhere sink hsink⟩

/-- A file that is not the one of the open sink stays while nothing is done for the sink. -/
theorem Stored.beside {bytes : List UInt8} (h : Stored p bytes host)
    (hbeside : Beside places p host log last)
    (hkinds : ∀ x ∈ log, x.request.kind.isFiling = false) : Stored p bytes last := by
  induction hbeside with
  | nil s m last hkeeps => exact h.keeps hkeeps
  | cons r reply host middle last log hserved hrest ih =>
    obtain ⟨hr, hlog⟩ := List.forall_mem_cons.1 hkinds
    obtain ⟨hstate, hkeeps⟩ := hserved.of_serve hr
    have hmiddle : Stored p bytes (host.1, middle.2) := Stored.keeps h hkeeps
    rw [← hstate] at hmiddle
    exact ih hmiddle hlog

theorem Filling.keeps {records : List Record} {s : State} {m m' : Machine.Memory}
    (h : Filling places entity run records (s, m))
    (hkeeps : KeepsFile (outputPlace places m.disk.home entity run) m.disk m'.disk) :
    Filling places entity run records (s, m') := by
  refine ⟨h.sink, ?_⟩
  rw [hkeeps.home]
  exact hkeeps.file [] h.file

/-- While no batch is refused the sink holds all that it was given. -/
theorem Filling.beside {records : List Record} {batches : List Batch}
    (h : Filling places entity run records host)
    (hp : outputPlace places host.2.disk.home entity run = p)
    (hbeside : Beside places p host log last)
    (hkinds : ∀ x ∈ log, x.request.kind ∈ [Request.Kind.stream, .fetch, .write, .status, .close])
    (hwrites : log.filterMap writing? = batches.map fun batch => (batch, .ok ())) :
    Filling places entity run (records ++ batches.flatMap (·.records)) last := by
  -- A batch adds its records to what the sink holds, and no other exchange is for the sink.
  induction hbeside generalizing records batches with
  | nil s m last hkeeps =>
    obtain rfl := List.map_eq_nil_iff.1 hwrites.symm
    rw [List.flatMap_nil, List.append_nil]
    exact Filling.keeps h (hp ▸ hkeeps)
  | cons r reply host middle last log hserved hrest ih =>
    obtain ⟨hkind, hothers⟩ := List.forall_mem_cons.1 hkinds
    have hp' : outputPlace places middle.2.disk.home entity run = p := hserved.home ▸ hp
    by_cases hwrite : r.kind = .write
    · cases r with
      | writeBatch batch =>
        cases batches with
        | nil => cases hwrites
        | cons first batches =>
          injection hwrites with hfirst hwrites
          injection hfirst with hbatch hreply
          subst hbatch
          subst hreply
          subst hp
          rw [List.flatMap_cons, ← List.append_assoc]
          exact ih (Filling.serve_writeBatch h hserved) hp' hothers hwrites
      | _ => cases hwrite
    · have hother : r.kind.isFiling = false := by
        simp only [List.mem_cons, List.not_mem_nil, or_false, hwrite, false_or] at hkind
        rcases hkind with h | h | h | h <;> rw [h] <;> rfl
      have hnone : writing? ⟨r, reply⟩ = none := writing?_eq_none _ hwrite
      obtain ⟨hstate, hkeeps⟩ := hserved.of_serve hother
      rw [List.filterMap_cons_none hnone] at hwrites
      have hmiddle : Filling places entity run records (host.1, middle.2) :=
        Filling.keeps h (hp ▸ hkeeps)
      rw [← hstate] at hmiddle
      exact ih hmiddle hp' hothers hwrites

/-- What a program beside others does whose sink is opened, takes batches and is finished. -/
theorem stored_of_beside {summary : Summary} {batches : List Batch}
    {during after : List (Exchange services)}
    (hp : outputPlace places host.2.disk.home entity run = p)
    (hbeside : Beside places p host (⟨.openSink entity run, .ok ()⟩ ::
      (during ++ ⟨.finishSink, .ok summary⟩ :: after)) last)
    (hkinds : ∀ x ∈ during, x.request.kind ∈ [Request.Kind.stream, .fetch, .write, .status, .close])
    (hothers : ∀ x ∈ after, x.request.kind.isFiling = false)
    (hwrites : during.filterMap writing? = batches.map fun batch => (batch, .ok ())) :
    Stored p (Sink.fileOf places.compressed (batches.flatMap (·.records))) last ∧
      summary.rows = (batches.flatMap (·.records)).length ∧
      summary.bytes = (Sink.fileOf places.compressed (batches.flatMap (·.records))).length := by
  subst hp
  cases hbeside with
  | cons _ _ _ opened _ _ hopen hrest =>
    obtain ⟨filled, hduring, hfinishing⟩ := hrest.append
    have hfilling := Filling.beside (filling_of_serve_openSink hopen) (by rw [hopen.home]) hduring
      hkinds hwrites
    have hhome : filled.2.disk.home = host.2.disk.home := hduring.home.trans hopen.home
    rw [List.nil_append] at hfilling
    cases hfinishing with
    | cons _ _ _ finished _ _ hfinish hafter =>
      rw [← hhome] at hfinish hafter ⊢
      obtain ⟨hnone, hfile, hrows, hbytes⟩ := stored_of_serve_finishSink hfilling hfinish
      have hstored : Stored _ _ finished := ⟨hfile, fun sink hsink => by
        rw [hnone] at hsink
        cases hsink⟩
      exact ⟨hstored.beside hafter hothers, hrows, hbytes⟩

end Staying

end Local

end Harvest
