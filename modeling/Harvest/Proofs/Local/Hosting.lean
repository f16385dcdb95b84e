import Harvest.Local.Services
import Harvest.Run

/-!
# Hosting a program

`Program.play` runs a program against an answerer that keeps a state and lists the exchanges,
which are a trace of it. `Local.respond` is such an answerer: the services on one machine, over a
machine in memory.
-/

namespace Harvest

namespace Program

variable {S : Service} {α β σ : Type} (answer : (r : S.Request) → σ → S.Reply r × σ)

/-- The exchanges of a program, what it is done with, and the last state. -/
def play : Program S α → σ → List (Exchange S) × α × σ
  | .done value, s => ([], value, s)
  | .ask r next, s =>
    let replied := answer r s
    let played := play (next replied.1) replied.2
    (⟨r, replied.1⟩ :: played.1, played.2)

theorem trace_play (p : Program S α) (s : σ) :
    Trace p (play answer p s).1 (play answer p s).2.1 := by
  induction p generalizing s with
  | done value => exact .done value
  | ask r next ih => exact .ask r next _ _ _ (ih _ _)

/-- Two programs in sequence are played one after the other. -/
theorem play_bind (p : Program S α) (f : α → Program S β) (s : σ) :
    play answer (p.bind f) s =
      ((play answer p s).1 ++ (play answer (f (play answer p s).2.1) (play answer p s).2.2).1,
        (play answer (f (play answer p s).2.1) (play answer p s).2.2).2) := by
  induction p generalizing s with
  | done value => rfl
  | ask r next ih =>
    rw [ask_bind, play, ih]
    rfl

theorem snd_play_bind (p : Program S α) (f : α → Program S β) (s : σ) :
    (play answer (p.bind f) s).2 =
      (play answer (f (play answer p s).2.1) (play answer p s).2.2).2 := by
  rw [play_bind]

theorem play_request {r : S.Request} {reply : S.Reply r} {s s' : σ}
    (h : answer r s = (reply, s')) :
    play answer (request r) s = ([⟨r, reply⟩], reply, s') := by
  rw [request, play, h]
  rfl

theorem snd_play_ask {r : S.Request} {next : S.Reply r → Program S α} {s s' : σ}
    {reply : S.Reply r} (h : answer r s = (reply, s')) :
    (play answer (.ask r next) s).2 = (play answer (next reply) s').2 := by
  rw [play, h]

/-- Programs one after the other, whatever each of them is done with. -/
def each : List (Program S α) → Program S (List α)
  | [] => .done []
  | p :: rest => p.bind fun value => (each rest).bind fun values => .done (value :: values)

theorem play_each_cons {p : Program S α} {log : List (Exchange S)} {value : α} {s s' : σ}
    (h : play answer p s = (log, value, s')) (rest : List (Program S α)) :
    play answer (each (p :: rest)) s =
      (log ++ (play answer (each rest) s').1, value :: (play answer (each rest) s').2.1,
        (play answer (each rest) s').2.2) := by
  rw [each, play_bind, play_bind, h]
  simp only [play, List.append_nil]

/-- A program that ends well against an answerer, with a value of which `view` tells. -/
theorem trace_play_ok {ε β γ : Type} (p : Program S (Except ε β)) (s : σ) (view : β → γ) (c : γ)
    (h : (play answer p s).2.1.toOption.map view = some c) :
    ∃ value, Trace p (play answer p s).1 (.ok value) ∧ view value = c := by
  have ht := trace_play answer p s
  cases hresult : (play answer p s).2.1 with
  | error e =>
    rw [hresult] at h
    cases h
  | ok value =>
    rw [hresult] at h ht
    exact ⟨value, ht, Option.some.inj h⟩

end Program

theorem eq_ok_of_toOption {ε α : Type} {x : Except ε α} {a : α} (h : x.toOption = some a) :
    x = .ok a := by
  cases x with
  | error e => cases h
  | ok b => exact congrArg Except.ok (Option.some.inj h)

namespace Engine

variable {α β σ : Type} {answer : (r : Request) → σ → r.Reply × σ} {x : Engine α}
  {f : α → Engine β} {log : List (Program.Exchange services)} {a : α} {s s' : σ}

/-- Behind a program that ends well the second one goes on. -/
theorem play_bind_ok (h : Program.play (S := services) answer x s = (log, .ok a, s')) :
    Program.play (S := services) answer (x >>= f : Engine β) s =
      (log ++ (Program.play (S := services) answer (f a) s').1,
        (Program.play (S := services) answer (f a) s').2) := by
  refine (Program.play_bind (S := services) answer x (ExceptT.bindCont f) s).trans ?_
  rw [h]
  rfl

theorem play_bind_error {e : ExtractError}
    (h : Program.play (S := services) answer x s = (log, .error e, s')) :
    Program.play (S := services) answer (x >>= f : Engine β) s = (log, .error e, s') := by
  refine (Program.play_bind (S := services) answer x (ExceptT.bindCont f) s).trans ?_
  rw [h]
  exact congrArg (·, _) (List.append_nil log)

theorem snd_play_bind_ok (h : (Program.play (S := services) answer x s).2 = (.ok a, s')) :
    (Program.play (S := services) answer (x >>= f : Engine β) s).2 =
      (Program.play (S := services) answer (f a) s').2 := by
  rw [play_bind_ok (Prod.ext rfl h)]

end Engine

namespace Local

/-- A machine in memory that provides the services. -/
abbrev Host := State × Machine.Memory

/-- The reply of a host to a request. -/
def respond (places : Places) (r : Request) (host : Host) : r.Reply × Host :=
  let answered := (((answer places r).run host.1).run Machine.Memory.answer).run host.2
  (answered.1.1, answered.1.2, answered.2)

/-- A host on which two live records and a deleted one are staged for an entity. -/
def stagedHost : Host :=
  ({}, ⟨⟨[(["in"], .directory), (["Account", "in"], .directory),
      (["p.csv", "Account", "in"], .file (Utf8.encodeString "Id,IsDeleted\n1,\n2,\n")),
      (["deleted", "Account", "in"], .directory),
      (["p.csv", "deleted", "Account", "in"], .file (Utf8.encodeString "Id,IsDeleted\n3,true\n"))],
    []⟩, ⟨2024, 1, 1, 0, 0, 0⟩, []⟩)

def stagedPlaces : Places := ⟨"/in", "/out", false⟩

/-- A run over that entity and one for which nothing is staged. -/
def stagedRun : RunContext where
  run := "r"
  configuration :=
    ⟨"/in", {}, ⟨"/out", some false⟩, none, [{ name := "Account" }, { name := "Lead" }]⟩
  settings := { batchSize := 1 }
  database := none
  patience := 9

end Local

end Harvest
