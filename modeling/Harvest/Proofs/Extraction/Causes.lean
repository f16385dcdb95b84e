import Harvest.Proofs.Footprint

/-!
# Where an error comes from

A program ends with an error of its own, or with one that a service has replied (`Program.Raises`).
The parts of an extraction behind the opening of its sink have no error of a query of their own,
save for the query of the deleted rows: if it can be composed, only a service refuses a query
(`Extraction.raises_collect`).
-/

namespace Harvest

open Program (Trace Exchange)

/-- The request of an exchange was refused with the error. -/
def Refuses (e : ExtractError) (x : Exchange services) : Prop := x.request.refuse e = some x.reply

/-- The error is about no query. -/
def NotOfQuery (e : ExtractError) : Prop := ∀ fault, e ≠ .query fault

/-- The error of a result. -/
def error? {α : Type} : Except ExtractError α → Option ExtractError
  | .ok _ => none
  | .error e => some e

namespace Program

variable {α β : Type} {known known' : ExtractError → Prop} {error₁ : α → Option ExtractError}
  {error₂ : β → Option ExtractError}

/-- The error in what the program is done with is a known one, or a request was refused with it. -/
def Raises (known : ExtractError → Prop) (error? : α → Option ExtractError) :
    Program services α → Prop
  | .done value => ∀ e ∈ error? value, known e
  | .ask r next => ∀ reply,
    (next reply).Raises (fun e => known e ∨ r.refuse e = some reply) error?

namespace Raises

theorem mono {p : Program services α} (h : p.Raises known error₁)
    (hknown : ∀ e, known e → known' e) : p.Raises known' error₁ := by
  induction p generalizing known known' with
  | done value => exact fun e he => hknown e (h e he)
  | ask r next ih => exact fun reply => ih reply (h reply) fun e => Or.imp_left (hknown e)

/-- The second of two programs may end with the error that the first one ends with. -/
theorem bind {p : Program services α} {f : α → Program services β} (h : p.Raises known error₁)
    (hf : ∀ a, (f a).Raises (fun e => known e ∨ e ∈ error₁ a) error₂) :
    (p.bind f).Raises known error₂ := by
  induction p generalizing known with
  | done value =>
    exact (hf value).mono fun e he => he.elim id (h e)
  | ask r next ih =>
    exact fun reply => ih reply (h reply) fun a => (hf a).mono fun e => Or.imp_left .inl

/-- A program of which nothing is known may come first. -/
theorem behind {p : Program services α} {f : α → Program services β}
    (hf : ∀ a, (f a).Raises known error₂) : (p.bind f).Raises known error₂ := by
  induction p generalizing known with
  | done value => exact hf value
  | ask r next ih => exact fun reply => ih reply fun a => (hf a).mono fun e => .inl

theorem of_trace {p : Program services α} (h : p.Raises known error₁)
    {log : List (Exchange services)} {value : α} (ht : Trace p log value) :
    ∀ e ∈ error₁ value, known e ∨ ∃ x ∈ log, Refuses e x := by
  induction ht generalizing known with
  | done value => exact fun e he => .inl (h e he)
  | ask r next reply log value _ ih =>
    intro e he
    rcases ih (h reply) e he with (hknown | hrefused) | ⟨x, hx, hrefused⟩
    · exact .inl hknown
    · exact .inr ⟨_, List.mem_cons_self, hrefused⟩
    · exact .inr ⟨x, List.mem_cons_of_mem _ hx, hrefused⟩

theorem request {r : Request} {error₁ : r.Reply → Option ExtractError}
    (h : ∀ reply, ∀ e ∈ error₁ reply, r.refuse e = some reply) :
    (Program.request (S := services) r).Raises known error₁ :=
  fun reply e he => .inr (h reply e he)

end Raises

end Program

/-- A reply that is an error is the refusal with it. -/
theorem refused {α : Type} (reply : Except ExtractError α) :
    ∀ e ∈ error? reply, some (.error e) = some reply := by
  intro e he
  cases reply with
  | ok a => cases he
  | error e' =>
    cases he
    rfl

namespace Engine

variable {α β : Type} {known : ExtractError → Prop}

/-- Every error of the program is a known one, or a request was refused with it. -/
abbrev Raises (known : ExtractError → Prop) (x : Engine α) : Prop :=
  Program.Raises known (error? (α := α)) x

namespace Raises

theorem pure (a : α) : Raises known (pure a : Engine α) := nofun

theorem throw {e : ExtractError} (h : known e) : Raises known (throw e : Engine α) := by
  rintro _ ⟨⟩
  exact h

theorem ofExcept {r : Except ExtractError α} (h : ∀ e ∈ error? r, known e) :
    Raises known (ofExcept r : Engine α) := by
  cases r with
  | ok a => exact pure a
  | error e => exact throw (h e rfl)

theorem andThen {x : Engine α} {f : α → Engine β} (h : Raises known x)
    (hf : ∀ a, Raises known (f a)) : Raises known (x >>= f : Engine β) :=
  Program.Raises.bind h fun
    | .ok a => (hf a).mono fun _ => .inl
    | .error _ => fun _ he => .inr he

/-- A program that cannot fail comes first; it may answer with an error. -/
theorem totalThen {p : Program services α} {f : α → Engine β} {error₁ : α → Option ExtractError}
    (h : p.Raises known error₁) (hf : ∀ a, Raises (fun e => known e ∨ e ∈ error₁ a) (f a)) :
    Raises known (ofTotal p >>= f : Engine β) := by
  have hbind : (ofTotal p >>= f : Engine β) = p.bind f := Program.bind_assoc p _ _
  rw [hbind]
  exact Program.Raises.bind h hf

theorem onError {cleanup : Program services Unit} {body : Engine α} (h : Raises known body) :
    Raises known (onError cleanup body) :=
  Program.Raises.bind h fun
    | .ok _ => nofun
    | .error _ => Program.Raises.behind fun _ _ he => .inr he

/-- Without an own error of a query, a program that ends with one was refused a request with it. -/
theorem refuses {x : Engine α} (h : Raises NotOfQuery x) {fault : QueryFault}
    {log : List (Exchange services)} (ht : Trace x log (.error (.query fault))) :
    ∃ y ∈ log, Refuses (.query fault) y :=
  (Program.Raises.of_trace h ht _ rfl).resolve_left fun hnot => hnot fault rfl

end Raises

end Engine

open Engine

/-- The error of a result that comes with something else. -/
abbrev fault? {α β : Type} (outcome : Except ExtractError α × β) : Option ExtractError :=
  error? outcome.1

namespace Cursor

theorem notOfQuery_of_takeUp {ctx : StreamContext} {c : Cursor} {fault : String} {page : Page}
    {e : ExtractError} (h : takeUp ctx c fault page = .settled (.error e)) : NotOfQuery e := by
  unfold takeUp at h
  intro query hquery
  subst hquery
  split at h
  · cases h
  · cases h
  · cases h
  · split at h <;> cases h

theorem raises_recover (ctx : StreamContext) (budget : Nat) (fault : String) (c : Cursor) :
    (recover ctx budget fault c).Raises NotOfQuery error? := by
  induction budget generalizing fault c with
  | zero =>
    rintro _ ⟨⟩
    exact fun _ h => by cases h
  | succ budget ih =>
    rintro (e | page)
    · rintro _ ⟨⟩
      exact .inr rfl
    · dsimp only
      split
      · next outcome h =>
        intro e he
        cases outcome with
        | ok a => cases he
        | error e' =>
          cases he
          exact .inl (notOfQuery_of_takeUp h)
      · exact (ih _ _).mono fun _ => .inl

theorem raises_next (ctx : StreamContext) (c : Cursor) :
    (c.next ctx).Raises NotOfQuery error? := by
  unfold next
  split
  · nofun
  · nofun
  · exact raises_recover ctx _ _ _
  · rintro _ ⟨⟩
    exact fun _ h => by cases h

end Cursor

namespace ResultReader

theorem raises_fetchPending (r : ResultReader) (pending : List ResultReference) :
    (fetchPending r pending).Raises NotOfQuery fault? := by
  induction pending generalizing r with
  | nil => nofun
  | cons reference pending ih =>
    rintro (e | page)
    · rintro _ ⟨⟩
      exact .inr rfl
    · refine ((Cursor.raises_next r.context _).mono fun _ => .inl).bind ?_
      rintro (e | ⟨_ | record, c⟩)
      · exact fun _ he => .inr he
      · exact (ih _).mono fun _ he => .inl (.inl he)
      · nofun

theorem raises_next (r : ResultReader) : r.next.Raises NotOfQuery fault? := by
  unfold next
  split
  · rintro _ ⟨⟩
    exact fun _ h => by cases h
  · split
    · exact r.raises_fetchPending r.pending
    · refine (Cursor.raises_next r.context _).bind ?_
      rintro (e | ⟨_ | record, c⟩)
      · exact fun _ he => .inr he
      · exact (raises_fetchPending _ _).mono fun _ => .inl
      · nofun

end ResultReader

namespace Batcher

theorem raises_takeRows (n : Nat) (taken : List Record) (reader : ResultReader) :
    (takeRows n taken reader).Raises NotOfQuery fault? := by
  induction n generalizing taken reader with
  | zero => nofun
  | succ n ih =>
    refine reader.raises_next.bind ?_
    rintro ⟨e | (record | _), reader'⟩
    · exact fun _ he => .inr he
    · exact (ih _ _).mono fun _ => .inl
    · nofun

theorem raises_next (b : Batcher) : b.next.Raises NotOfQuery fault? := by
  refine (raises_takeRows _ _ _).bind ?_
  rintro ⟨e | records, reader⟩
  · exact fun _ he => .inr he
  · nofun

end Batcher

namespace OpenJob

theorem raises_close (job : OpenJob) : job.close.Raises NotOfQuery fault? := by
  have hshut : Raises NotOfQuery job.shut := by
    refine .andThen (.request refused) fun status => ?_
    split
    · exact .pure status
    · exact .request refused
  unfold close
  split
  · nofun
  · refine Program.Raises.bind hshut ?_
    rintro (e | info)
    · exact fun _ he => .inr he
    · nofun

end OpenJob

namespace Catalog

theorem raises_registerTable (t : Table) : Raises NotOfQuery (registerTable t) := by
  refine .andThen (.request refused) fun found => ?_
  cases found with
  | none => exact .andThen (.request refused) fun _ => .pure _
  | some existing =>
    dsimp only
    split
    · exact .pure _
    · exact .andThen (.request refused) fun _ => .pure _

theorem raises_registerPartition (t : Table) (p : Partition) :
    Raises NotOfQuery (registerPartition t p) := by
  rw [registerPartition]
  split
  · exact .throw fun _ h => by cases h
  · refine .andThen (.request refused) fun found => ?_
    cases found with
    | none => exact .andThen (.request refused) fun _ => .pure _
    | some existing =>
      dsimp only
      split
      · exact .pure _
      · exact .andThen (.request refused) fun _ => .pure _

end Catalog

namespace Extraction

variable (c : RunContext) (e : EntityOptions)

theorem raises_stream {predicates : List String} {query : String}
    (hquery : Query.compose e.baseQuery predicates (some c.settings.softDeleteColumn) = .ok query)
    (deleted patience : Nat) (b : Batcher) :
    Raises NotOfQuery (stream c e predicates deleted patience b) := by
  have hfetch (total : Nat) : Raises NotOfQuery (fetchDeleted c e predicates total) := by
    rw [fetchDeleted, hquery]
    refine .andThen (.pure query) fun query => .andThen (.request refused) fun records => ?_
    cases records with
    | nil => exact .pure 0
    | cons record records => exact .andThen (.request refused) fun _ => .pure _
  induction patience generalizing deleted b with
  | zero => exact .throw fun _ h => by cases h
  | succ patience ih =>
    refine .totalThen b.raises_next fun ⟨pulled, b'⟩ => .andThen (.ofExcept fun _ => .inr) ?_
    rintro (batch | _ | _)
    · exact .andThen (.request refused) fun _ => (ih _ _).mono fun _ => .inl
    · exact .andThen ((hfetch _).mono fun _ => .inl) fun _ => (ih _ _).mono fun _ => .inl
    · exact .pure _

theorem raises_closeJob (job : OpenJob) : Raises NotOfQuery (closeJob job) := by
  refine .totalThen job.raises_close ?_
  rintro ⟨error | u, job'⟩
  · exact .onError (.throw (.inr rfl))
  · exact .pure _

/-- Behind the preparation of the job only the query of the deleted rows could fail. -/
theorem raises_collect {predicates : List String} {query : String}
    (hquery : Query.compose e.baseQuery predicates (some c.settings.softDeleteColumn) = .ok query)
    (p : PreparedJob) : Raises NotOfQuery (collect c e predicates p) :=
  .andThen (.onError (.andThen (.request refused) fun _ =>
      .onError (raises_stream c e hquery _ _ _))) fun streamed =>
    .andThen (raises_closeJob p.job) fun _ => .pure streamed

theorem raises_clock : Raises NotOfQuery clock :=
  Program.Raises.behind fun _ => nofun

theorem raises_register (summary : Summary) (columns : List String) :
    Raises NotOfQuery (register c e summary columns) := by
  rw [register]
  split
  · exact .pure ()
  · exact .andThen (Catalog.raises_registerTable _) fun _ =>
      .andThen (Catalog.raises_registerPartition _ _) fun _ => .pure ()

end Extraction

end Harvest
