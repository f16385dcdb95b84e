import Harvest.Proofs.Footprint
import Harvest.Run

/-!
# Letting the sink go

An extraction that opens its sink finishes it or gives it up, wherever it ends. So the sink is not
open behind an entity, whatever was answered (`Run.closed_resultOf`).
-/

namespace Harvest

/-- Whether the sink is open behind a request. -/
def Request.opensBehind (opened : Bool) : (r : Request) → r.Reply → Bool
  | .openSink _ _, (.ok _ : Except ExtractError Unit) => true
  | .openSink _ _, (.error _ : Except ExtractError Unit) => opened
  | .finishSink, _ => false
  | .dropSink, _ => false
  | _, _ => opened

/-- Requests of this kind neither open nor close the sink. -/
def Request.Kind.isSteady : Request.Kind → Bool
  | .openSink _ _ | .finish | .drop => false
  | _ => true

theorem Request.opensBehind_of_isSteady {opened : Bool} {r : Request} (reply : r.Reply)
    (h : r.kind.isSteady = true) : r.opensBehind opened reply = opened := by
  cases r with
  | openSink entity run => cases h
  | finishSink => cases h
  | dropSink => cases h
  | _ => rfl

namespace Program

variable {α β : Type} {opened : Bool}

/-- Where the program is done, its value and whether the sink is open are as `Q` says. -/
def Leaves (Q : α → Bool → Prop) : Program services α → Bool → Prop
  | .done value, opened => Q value opened
  | .ask r next, opened => ∀ reply : r.Reply, (next reply).Leaves Q (r.opensBehind opened reply)

/-- The sink is not open behind the program, if it was not before. -/
def Closed (p : Program services α) : Prop := p.Leaves (fun _ opened => opened = false) false

/-- The sink is not open behind the program, whether or not it was before. -/
def Closes (p : Program services α) : Prop :=
  ∀ opened, p.Leaves (fun _ opened => opened = false) opened

/-- The sink is not open behind an error of the program. -/
def LetsGo (x : Engine α) (opened : Bool) : Prop :=
  Leaves (fun result opened => ∀ e, result = .error e → opened = false) x opened

namespace Leaves

variable {Q : α → Bool → Prop} {R : β → Bool → Prop} {p : Program services α}

theorem bind {f : α → Program services β} (h : p.Leaves Q opened)
    (hf : ∀ a opened, Q a opened → (f a).Leaves R opened) : (p.bind f).Leaves R opened := by
  induction p generalizing opened with
  | done value => exact hf value opened h
  | ask r next ih => exact fun reply => ih reply (h reply)

/-- Nothing is asked of a program behind which anything will do. -/
theorem of_forall (p : Program services α) (h : ∀ a opened, Q a opened) : p.Leaves Q opened := by
  induction p generalizing opened with
  | done value => exact h value opened
  | ask r next ih => exact fun reply => ih reply

/-- A program that neither opens nor closes the sink leaves it as it is. -/
theorem of_asks {kinds : List Request.Kind} (h : p.Asks kinds)
    (hkinds : ∀ kind ∈ kinds, kind.isSteady = true) :
    p.Leaves (fun _ opened' => opened' = opened) opened := by
  induction p with
  | done value => rfl
  | ask r next ih =>
    intro reply
    rw [Request.opensBehind_of_isSteady reply (hkinds _ h.1)]
    exact ih reply (h.2 reply)

end Leaves

theorem Closed.of_asks {p : Program services α} (kinds : List Request.Kind) (h : p.Asks kinds)
    (hkinds : ∀ kind ∈ kinds, kind.isSteady = true) : p.Closed :=
  Leaves.of_asks h hkinds

theorem Closed.andThen {x : Engine α} {f : α → Engine β} (h : Closed x) (hf : ∀ a, Closed (f a)) :
    Closed (x >>= f : Engine β) :=
  Leaves.bind h fun
    | .ok a, _, rfl => hf a
    | .error _, _, hclosed => hclosed

theorem Closes.andThen {x : Engine α} {f : α → Engine β} (h : Closes x) (hf : ∀ a, Closed (f a)) :
    Closes (x >>= f : Engine β) :=
  fun opened => (h opened).bind fun
    | .ok a, _, rfl => hf a
    | .error _, _, hclosed => hclosed

/-- A program that closes the sink, and another one that leaves it closed. -/
theorem Closes.bind {p : Program services α} {f : α → Program services β} (h : p.Closes)
    (hf : ∀ a, (f a).Closed) : (p.bind f).Closes :=
  fun opened => (h opened).bind fun | a, _, rfl => hf a

namespace LetsGo

/-- What follows a program that lets the sink go on an error may find it open. -/
theorem closed_andThen {x : Engine α} {f : α → Engine β} (h : LetsGo x false)
    (hf : ∀ a, Closes (f a)) : Closed (x >>= f : Engine β) :=
  Leaves.bind h fun
    | .ok a, opened, _ => hf a opened
    | .error e, _, hclosed => hclosed e rfl

theorem andThen {x : Engine α} {f : α → Engine β} (h : LetsGo x opened)
    (hf : ∀ a opened, LetsGo (f a) opened) : LetsGo (x >>= f : Engine β) opened :=
  Leaves.bind h fun
    | .ok a, opened, _ => hf a opened
    | .error _, _, hclosed => fun _ _ => hclosed _ rfl

theorem of_ofTotal {p : Program services α} {f : α → Engine β}
    (hf : ∀ a opened, LetsGo (f a) opened) : LetsGo (Engine.ofTotal p >>= f : Engine β) opened :=
  andThen ((Leaves.of_forall (Q := fun _ _ => True) p fun _ _ => trivial).bind fun _ _ _ => nofun)
    hf

theorem pure (a : α) : LetsGo (Pure.pure a : Engine α) opened := nofun

/-- A cleanup that closes the sink lets it go. -/
theorem onError {cleanup : Program services Unit} (h : cleanup.Closes) (body : Engine α) :
    LetsGo (Engine.onError cleanup body) opened := by
  have hbody : Leaves (fun _ _ => True) body opened := .of_forall _ fun _ _ => trivial
  refine hbody.bind fun result opened' _ => ?_
  cases result with
  | ok a => exact nofun
  | error e => exact (h opened').bind fun _ _ hclosed _ _ => hclosed

/-- A guard of the job leaves the sink alone. -/
theorem guarding (job : OpenJob) {body : Engine α} (h : LetsGo body opened) :
    LetsGo (job.guarding body) opened := by
  refine Leaves.bind h fun result opened' hresult => ?_
  cases result with
  | ok a => exact nofun
  | error e =>
    obtain rfl := hresult e rfl
    exact (Leaves.of_asks job.asks_drop (by decide)).bind fun _ _ hclosed _ _ => hclosed

end LetsGo

end Program

open Program Engine

namespace Extraction

theorem closes_giveUp : giveUp.Closes := fun _ _ => rfl

theorem closes_finish : Closes (onError giveUp finishSink) := by
  rintro opened (_ | _)
  · exact fun _ => rfl
  · rfl

variable (c : RunContext) (e : EntityOptions)

theorem letsGo_closeJob (job : OpenJob) (opened : Bool) : LetsGo (closeJob job) opened := by
  refine .of_ofTotal fun ⟨outcome, after⟩ _ => ?_
  cases outcome with
  | ok _ => exact .pure ()
  | error _ => exact .onError (closes_giveUp.bind fun _ => .of_asks _ after.asks_drop (by decide)) _

/-- A sink that cannot be opened is not open. -/
theorem letsGo_openSink (entity run : String) : LetsGo (openSink entity run) false := by
  rintro (_ | _)
  · exact fun _ _ => rfl
  · exact nofun

theorem letsGo_collect (predicates : List String) (p : PreparedJob) :
    LetsGo (collect c e predicates p) false := by
  refine .andThen (.guarding _ (.andThen (letsGo_openSink _ _) fun _ _ => ?_)) fun _ opened => ?_
  · exact .onError closes_giveUp _
  · exact .andThen (letsGo_closeJob _ opened) fun _ _ => .pure _

/-- Whether or not an entity is extracted, its sink is not open behind it. -/
theorem closed_extract : Closed (extract c e) := by
  refine .andThen (.of_asks [.time] (.ofTotal (.request _ rfl)) (by decide)) fun begun => ?_
  refine .andThen (.of_asks [] (asks_composed _) (by decide)) fun predicates => ?_
  refine .andThen (.of_asks _ (asks_watermarkOf e predicates) (by decide)) fun watermark => ?_
  refine .andThen (.of_asks [] (asks_composed _) (by decide)) fun query => ?_
  refine .andThen (.of_asks [] (asks_composed _) (by decide)) fun countQuery => ?_
  refine .andThen (.of_asks _ (JobPlan.asks_prepare _ _ _) (by decide)) fun prepared => ?_
  refine (letsGo_collect c e predicates prepared).closed_andThen fun streamed => ?_
  refine closes_finish.andThen fun summary => ?_
  refine .andThen (.of_asks _ (asks_register c e summary _) (by decide)) fun _ => ?_
  exact .andThen (.of_asks [.time] (.ofTotal (.request _ rfl)) (by decide)) fun _ => rfl

end Extraction

/-- Behind the result of an entity no sink is open. -/
theorem Run.closed_resultOf (c : RunContext) (e : EntityOptions) : (resultOf c e).Closed := by
  refine Leaves.bind (Extraction.closed_extract c e) fun outcome opened hclosed => ?_
  cases outcome with
  | ok result => exact hclosed
  | error error => exact fun _ => hclosed

end Harvest
