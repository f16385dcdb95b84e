/-!
# Programs that ask for services

A `Service` says which requests can be made and what kind of reply each one gets.
A `Program` over a service is a finite tree: it is done with a value, or it makes a
request and goes on with the reply. A program does nothing by itself. `Program.run`
lets it run against any answerer, a real one or a pure one, and `Program.Trace`
relates it to the exchanges of one possible run, whoever answers.
-/

namespace Harvest

/-- What can be requested, and the kind of reply each request gets. -/
structure Service where
  Request : Type
  Reply : Request → Type

/-- A computation that makes requests to a service. -/
inductive Program (S : Service) (α : Type) where
  | done (value : α)
  | ask (request : S.Request) (next : S.Reply request → Program S α)

namespace Program

/-- Makes one request and answers with its reply. -/
def request {S : Service} (r : S.Request) : Program S (S.Reply r) := .ask r .done

/-- Goes on with `f` where `p` is done. -/
def bind {S : Service} {α β : Type} (p : Program S α) (f : α → Program S β) : Program S β :=
  match p with
  | .done value => f value
  | .ask r next => .ask r fun reply => (next reply).bind f

instance {S : Service} : Monad (Program S) where
  pure := .done
  bind := bind

/-- Runs a program: each request is answered by `answer`. -/
def run {S : Service} {m : Type → Type} [Monad m] (answer : (r : S.Request) → m (S.Reply r))
    {α : Type} : Program S α → m α
  | .done value => pure value
  | .ask r next => do run answer (next (← answer r))

/-- A request together with the reply it got. -/
structure Exchange (S : Service) where
  request : S.Request
  reply : S.Reply request

/-- `Trace p log value`: the program can make the exchanges `log` and be done with `value`. -/
inductive Trace {S : Service} {α : Type} : Program S α → List (Exchange S) → α → Prop where
  | done (value : α) : Trace (.done value) [] value
  | ask (r : S.Request) (next : S.Reply r → Program S α) (reply : S.Reply r)
      (log : List (Exchange S)) (value : α) (h : Trace (next reply) log value) :
      Trace (.ask r next) (⟨r, reply⟩ :: log) value

section Laws

variable {S : Service} {α β γ : Type}

@[simp] theorem done_bind (value : α) (f : α → Program S β) : bind (.done value) f = f value :=
  rfl

@[simp] theorem ask_bind (r : S.Request) (next : S.Reply r → Program S α)
    (f : α → Program S β) : bind (.ask r next) f = .ask r fun reply => (next reply).bind f :=
  rfl

theorem bind_done (p : Program S α) : p.bind .done = p := by
  induction p with
  | done value => rfl
  | ask r next ih => simp [ih]

theorem bind_assoc (p : Program S α) (f : α → Program S β) (g : β → Program S γ) :
    (p.bind f).bind g = p.bind fun x => (f x).bind g := by
  induction p with
  | done value => rfl
  | ask r next ih => simp [ih]

instance : LawfulMonad (Program S) :=
  LawfulMonad.mk' _ bind_done (fun _ _ => rfl) bind_assoc

section Running

variable {m : Type → Type} [Monad m] (answer : (r : S.Request) → m (S.Reply r))

@[simp] theorem run_done (value : α) : run answer (.done value) = pure value := rfl

theorem run_ask (r : S.Request) (next : S.Reply r → Program S α) :
    run answer (.ask r next) = answer r >>= fun reply => run answer (next reply) := rfl

/-- Two programs in sequence run one after the other. -/
theorem run_bind [LawfulMonad m] (p : Program S α) (f : α → Program S β) :
    run answer (p.bind f) = run answer p >>= fun x => run answer (f x) := by
  induction p with
  | done value => simp
  | ask r next ih => simp [run_ask, ih]

end Running

/-- A program that is done makes no exchange. -/
theorem trace_done_iff (value v : α) (log : List (Exchange S)) :
    Trace (.done value) log v ↔ log = [] ∧ v = value := by
  constructor
  · intro h
    cases h
    exact ⟨rfl, rfl⟩
  · rintro ⟨rfl, rfl⟩
    exact .done v

/-- A program that asks makes that exchange first. -/
theorem trace_ask_iff (r : S.Request) (next : S.Reply r → Program S α)
    (log : List (Exchange S)) (v : α) :
    Trace (.ask r next) log v ↔
      ∃ reply rest, log = ⟨r, reply⟩ :: rest ∧ Trace (next reply) rest v := by
  constructor
  · intro h
    cases h with
    | ask _ _ reply rest _ h => exact ⟨reply, rest, rfl, h⟩
  · rintro ⟨reply, rest, rfl, h⟩
    exact .ask r next reply rest v h

/-- The exchanges of two programs in sequence are those of the first, then those of the
second. -/
theorem trace_bind_iff (p : Program S α) (f : α → Program S β) (log : List (Exchange S))
    (v : β) :
    Trace (p.bind f) log v ↔
      ∃ first rest u, log = first ++ rest ∧ Trace p first u ∧ Trace (f u) rest v := by
  induction p generalizing log with
  | done value =>
    constructor
    · intro h
      exact ⟨[], log, value, rfl, .done value, h⟩
    · rintro ⟨first, rest, u, rfl, h₁, h₂⟩
      obtain ⟨rfl, rfl⟩ := (trace_done_iff value u first).1 h₁
      exact h₂
  | ask r next ih =>
    rw [ask_bind, trace_ask_iff]
    constructor
    · rintro ⟨reply, rest, rfl, h⟩
      obtain ⟨first, rest, u, rfl, h₁, h₂⟩ := (ih reply rest).1 h
      exact ⟨⟨r, reply⟩ :: first, rest, u, rfl, .ask r next reply first u h₁, h₂⟩
    · rintro ⟨first, rest, u, rfl, h₁, h₂⟩
      obtain ⟨reply, tail, rfl, h⟩ := (trace_ask_iff r next first u).1 h₁
      exact ⟨reply, tail ++ rest, rfl, (ih reply _).2 ⟨tail, rest, u, rfl, h, h₂⟩⟩

end Laws

end Program

end Harvest
