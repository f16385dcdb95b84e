import Harvest.Services

/-!
# Traces of the engine

A trace of programs in sequence is one of the first that ends with an error, or one of the first
followed by one of the second. With these lemmas the traces of the engine are read off its
definitions step by step.
-/

namespace Harvest.Engine

open Program (Trace Exchange)

variable {α β : Type} (log : List (Exchange services))

theorem trace_pure_iff (a : α) (result : Except ExtractError α) :
    Trace (pure a : Engine α) log result ↔ log = [] ∧ result = .ok a :=
  Program.trace_done_iff _ _ log

theorem trace_throw_iff (e : ExtractError) (result : Except ExtractError α) :
    Trace (throw e : Engine α) log result ↔ log = [] ∧ result = .error e :=
  Program.trace_done_iff _ _ log

theorem trace_request_iff (r : Request) (reply : r.Reply) :
    Trace (Program.request (S := services) r) log reply ↔ log = [⟨r, reply⟩] := by
  rw [Program.request, Program.trace_ask_iff]
  constructor
  · rintro ⟨reply', rest, rfl, h⟩
    obtain ⟨rfl, rfl⟩ := (Program.trace_done_iff _ _ rest).1 h
    rfl
  · rintro rfl
    exact ⟨reply, [], rfl, .done reply⟩

theorem trace_sleep_iff (seconds : Nat) (result : Except ExtractError Unit) :
    Trace (sleep seconds) log result ↔ log = [⟨.sleep seconds, ()⟩] ∧ result = .ok () := by
  constructor
  · intro h
    obtain ⟨reply, rest, rfl, hrest⟩ := (Program.trace_ask_iff _ _ log result).1 h
    obtain ⟨rfl, rfl⟩ := (Program.trace_done_iff _ _ rest).1 hrest
    exact ⟨rfl, rfl⟩
  · rintro ⟨rfl, rfl⟩
    exact .ask _ _ _ _ _ (.done _)

/-- Either the first program ends with an error, or the second one goes on with its value. -/
theorem trace_bind_iff (x : Engine α) (f : α → Engine β) (result : Except ExtractError β) :
    Trace (x >>= f : Engine β) log result ↔
      (∃ e, Trace x log (.error e) ∧ result = .error e) ∨
        ∃ a first rest, log = first ++ rest ∧ Trace x first (.ok a) ∧
          Trace (f a) rest result := by
  constructor
  · intro h
    obtain ⟨first, rest, outcome, rfl, hfirst, hrest⟩ :=
      (Program.trace_bind_iff _ _ log result).1 h
    cases outcome with
    | error e =>
      obtain ⟨rfl, rfl⟩ := (Program.trace_done_iff _ _ rest).1 hrest
      exact .inl ⟨e, by rwa [List.append_nil], rfl⟩
    | ok a => exact .inr ⟨a, first, rest, rfl, hfirst, hrest⟩
  · rintro (⟨e, hx, rfl⟩ | ⟨a, first, rest, rfl, hx, hf⟩)
    · exact (Program.trace_bind_iff _ _ log _).2
        ⟨log, [], .error e, (List.append_nil log).symm, hx, .done _⟩
    · exact (Program.trace_bind_iff _ _ _ result).2 ⟨first, rest, .ok a, rfl, hx, hf⟩

theorem trace_bind_pure (x : Engine α) (f : α → β) (result : Except ExtractError β)
    (ht : Trace (x >>= fun a => pure (f a) : Engine β) log result) :
    ∃ reply, Trace x log reply ∧ result = reply.map f := by
  rcases (trace_bind_iff log x _ result).1 ht with ⟨e, h, rfl⟩ | ⟨a, first, rest, rfl, h, hrest⟩
  · exact ⟨.error e, h, rfl⟩
  · obtain ⟨rfl, rfl⟩ := (trace_pure_iff rest _ result).1 hrest
    rw [List.append_nil]
    exact ⟨.ok a, h, rfl⟩

/-- A program that makes one exchange comes first. -/
theorem trace_asks_bind (x : Engine α) (f : α → Engine β) (result : Except ExtractError β)
    (exchange : Except ExtractError α → Exchange services)
    (hx : ∀ first reply, Trace x first reply → first = [exchange reply])
    (ht : Trace (x >>= f : Engine β) log result) :
    (∃ e, log = [exchange (.error e)] ∧ result = .error e) ∨
      ∃ a rest, log = exchange (.ok a) :: rest ∧ Trace (f a) rest result := by
  rcases (trace_bind_iff log x f result).1 ht with ⟨e, h, rfl⟩ | ⟨a, first, rest, rfl, h, hrest⟩
  · exact .inl ⟨e, hx log _ h, rfl⟩
  · exact .inr ⟨a, rest, by rw [hx first _ h, List.singleton_append], hrest⟩

theorem trace_sleep_bind (seconds : Nat) (f : Unit → Engine α) (result : Except ExtractError α)
    (ht : Trace (sleep seconds >>= f : Engine α) log result) :
    ∃ rest, log = ⟨.sleep seconds, ()⟩ :: rest ∧ Trace (f ()) rest result := by
  rcases (trace_bind_iff log _ f result).1 ht with ⟨e, h, rfl⟩ | ⟨u, first, rest, rfl, h, hrest⟩
  · cases ((trace_sleep_iff log seconds _).1 h).2
  · exact ⟨rest, by rw [((trace_sleep_iff first seconds _).1 h).1, List.singleton_append], hrest⟩

/-- A program that is cleaned up behind an error ends as it does without that. -/
theorem trace_onError_iff (cleanup : Program services Unit) (body : Engine α)
    (result : Except ExtractError α) :
    Trace (onError cleanup body) log result ↔
      (∃ a, Trace body log (.ok a) ∧ result = .ok a) ∨
        ∃ e first rest, log = first ++ rest ∧ Trace body first (.error e) ∧
          Trace cleanup rest () ∧ result = .error e := by
  rw [onError, Program.trace_bind_iff]
  constructor
  · rintro ⟨first, rest, outcome, rfl, hfirst, hrest⟩
    cases outcome with
    | ok a =>
      obtain ⟨rfl, rfl⟩ := (Program.trace_done_iff _ _ rest).1 hrest
      exact .inl ⟨a, by rwa [List.append_nil], rfl⟩
    | error e =>
      obtain ⟨cleaned, last, u, rfl, hcleaned, hlast⟩ := (Program.trace_bind_iff _ _ rest _).1 hrest
      obtain ⟨rfl, rfl⟩ := (Program.trace_done_iff _ _ last).1 hlast
      exact .inr ⟨e, first, cleaned, by rw [List.append_nil], hfirst, hcleaned, rfl⟩
  · rintro (⟨a, hbody, rfl⟩ | ⟨e, first, rest, rfl, hbody, hcleanup, rfl⟩)
    · exact ⟨log, [], .ok a, (List.append_nil log).symm, hbody, .done _⟩
    · refine ⟨first, rest, .error e, rfl, hbody, (Program.trace_bind_iff _ _ rest _).2 ?_⟩
      exact ⟨rest, [], (), (List.append_nil rest).symm, hcleanup, .done _⟩

theorem trace_ofTotal_iff (p : Program services α) (result : Except ExtractError α) :
    Trace (ofTotal p) log result ↔ ∃ a, result = .ok a ∧ Trace p log a := by
  constructor
  · intro h
    obtain ⟨first, rest, a, rfl, hfirst, hrest⟩ := (Program.trace_bind_iff p _ log result).1 h
    obtain ⟨rfl, rfl⟩ := (Program.trace_done_iff _ _ rest).1 hrest
    exact ⟨a, rfl, by rwa [List.append_nil]⟩
  · rintro ⟨a, rfl, h⟩
    exact (Program.trace_bind_iff p _ log _).2 ⟨log, [], a, (List.append_nil log).symm, h, .done _⟩

/-- A program that cannot fail comes first. -/
theorem trace_ofTotal_bind (p : Program services α) (f : α → Engine β)
    (result : Except ExtractError β) (ht : Trace (ofTotal p >>= f : Engine β) log result) :
    ∃ a first rest, log = first ++ rest ∧ Trace p first a ∧ Trace (f a) rest result := by
  rcases (trace_bind_iff log _ f result).1 ht with ⟨e, h, -⟩ | ⟨a, first, rest, rfl, h, hrest⟩
  · obtain ⟨a, ha, -⟩ := (trace_ofTotal_iff log p _).1 h
    cases ha
  · obtain ⟨a', ha, hp⟩ := (trace_ofTotal_iff first p _).1 h
    cases ha
    exact ⟨a, first, rest, rfl, hp, hrest⟩

/-- A program that ends well went well at its first step. -/
theorem ok_of_trace_bind {x : Engine α} {f : α → Engine β} {log : List (Exchange services)} {b : β}
    (ht : Trace (x >>= f : Engine β) log (.ok b)) :
    ∃ a first rest, log = first ++ rest ∧ Trace x first (.ok a) ∧ Trace (f a) rest (.ok b) := by
  rcases (trace_bind_iff log x f _).1 ht with ⟨e, -, h⟩ | h
  · cases h
  · exact h

theorem ok_of_trace_onError {cleanup : Program services Unit} {body : Engine α}
    {log : List (Exchange services)} {a : α} (ht : Trace (onError cleanup body) log (.ok a)) :
    Trace body log (.ok a) := by
  rcases (trace_onError_iff log cleanup body _).1 ht with ⟨b, h, hb⟩ | ⟨e, _, _, _, _, _, h⟩
  · cases hb
    exact h
  · cases h

theorem ok_of_trace_ofExcept {r : Except ExtractError α} {log : List (Exchange services)} {a : α}
    (ht : Trace (ofExcept r : Engine α) log (.ok a)) : log = [] ∧ r = .ok a := by
  cases r with
  | error e => cases ((trace_throw_iff log e _).1 ht).2
  | ok b =>
    obtain ⟨rfl, heq⟩ := (trace_pure_iff log b _).1 ht
    cases heq
    exact ⟨rfl, rfl⟩

end Harvest.Engine
