import Harvest.Document.Schema
import Harvest.Proofs.Lists

/-!
# Records read off maps

`Schema.Reads` says which record a schema reads off a map that has its fields in order and nothing
else. It is built up field by field as the schema is, and the map is then read (`Reads.decode`).
-/

namespace Harvest.Document

namespace Schema

variable {Leaf α β : Type} {s : Schema Leaf α} {f : Schema Leaf (α → β)} {x : α} {g : α → β}
  {fields : List (String × Node Leaf)}

/-- The fields are those of the schema, each has a value that passes its check, and they make up
the record. -/
structure Reads (s : Schema Leaf α) (fields : List (String × Node Leaf)) (x : α) : Prop where
  names : s.checks.map FieldCheck.name = fields.map Prod.fst
  passes : ∀ p ∈ fields, ∃ c ∈ s.checks, c.name = p.1 ∧ c.check p.2 = .ok ()
  builds : ∀ find, (∀ p ∈ fields, find p.1 = some p.2) → s.ofMembers find = .ok x

theorem reads_pure (x : α) : (pure x : Schema Leaf α).Reads [] x :=
  ⟨rfl, nofun, fun _ _ => rfl⟩

/-- One more field behind the others. -/
theorem Reads.field (h : f.Reads fields g) {name : String} {decode : Decoder Leaf α}
    {absent short : Except Fault α} {t : Node Leaf} (ht : decode t = .ok x) :
    (f.and (.field name decode absent short)).Reads (fields ++ [(name, t)]) (g x) where
  names := by
    rw [List.map_append, ← h.names]
    exact List.map_append
  passes := by
    intro p hp
    rcases List.mem_append.1 hp with hp | hp
    · obtain ⟨c, hc, hcheck⟩ := h.passes p hp
      exact ⟨c, List.mem_append_left _ hc, hcheck⟩
    · obtain rfl := List.mem_singleton.1 hp
      refine ⟨_, List.mem_append_right _ (List.mem_singleton_self _), rfl, ?_⟩
      change (decode t).map _ = _
      rw [ht]
      rfl
  builds := by
    intro find hfind
    obtain ⟨hfields, hlast⟩ := List.forall_mem_append.1 hfind
    have hmember : find name = some t := hlast _ (List.mem_singleton_self _)
    rw [Schema.and, seq]
    simp only [h.builds find hfields, Schema.field, hmember, ht, bind, Except.bind]

theorem Reads.required (h : f.Reads fields g) (name : String) {decode : Decoder Leaf α}
    {t : Node Leaf} (ht : decode t = .ok x) :
    (f.and (.required name decode)).Reads (fields ++ [(name, t)]) (g x) :=
  h.field ht

theorem Reads.withDefault (h : f.Reads fields g) (name : String) (usual : α)
    {decode : Decoder Leaf α} {t : Node Leaf} (ht : decode t = .ok x) :
    (f.and (.withDefault name decode usual)).Reads (fields ++ [(name, t)]) (g x) :=
  h.field ht

/-- Members whose values pass their checks are examined to the end. -/
theorem examine_of_passes {checks : List (FieldCheck Leaf)} {seen : List String}
    (hdistinct : (fields.map Prod.fst).Nodup) (hnew : ∀ p ∈ fields, p.1 ∉ seen)
    (hpasses : ∀ p ∈ fields, ∃ c, checks.find? (·.name == p.1) = some c ∧ c.check p.2 = .ok ()) :
    examine checks seen (fields.map fun p => (some p.1, p.2)) = .ok () := by
  induction fields generalizing seen with
  | nil => rfl
  | cons p rest ih =>
    obtain ⟨hfirst, hothers⟩ := List.nodup_cons.1 hdistinct
    obtain ⟨⟨c, hc, hcheck⟩, hrest⟩ := List.forall_mem_cons.1 hpasses
    have hseen : seen.contains p.1 = false := by
      simpa using hnew p List.mem_cons_self
    have hlater : ∀ q ∈ rest, q.1 ∉ p.1 :: seen := by
      intro q hq hmem
      rcases List.mem_cons.1 hmem with hsame | hmem
      · exact hfirst (hsame ▸ List.mem_map_of_mem hq)
      · exact hnew q (List.mem_cons_of_mem _ hq) hmem
    rw [List.map_cons, examine]
    simp only [hc, hseen, hcheck, Bool.false_eq_true, if_false]
    exact ih hothers hlater hrest

theorem member?_of_mem (hdistinct : (fields.map Prod.fst).Nodup) {p : String × Node Leaf}
    (hp : p ∈ fields) : member? (fields.map fun p => (some p.1, p.2)) p.1 = some p.2 := by
  have hsome : ((fields.map fun p => (some p.1, p.2)).map Prod.fst).Nodup := by
    have hdistinct := hdistinct.map fun _ _ => Option.some.inj
    rwa [List.map_map] at hdistinct ⊢
  exact Lists.lookup_of_mem hsome (List.mem_map_of_mem hp)

/-- A map of the fields of a schema is read. -/
theorem Reads.decode (h : s.Reads fields x) (hdistinct : (s.checks.map FieldCheck.name).Nodup)
    (rd : LeafReading Leaf) :
    s.decode rd (.map (fields.map fun p => (some p.1, p.2)) true) = .ok x := by
  have hpasses : ∀ p ∈ fields,
      ∃ c, s.checks.find? (·.name == p.1) = some c ∧ c.check p.2 = .ok () := by
    intro p hp
    obtain ⟨c, hc, hname, hcheck⟩ := h.passes p hp
    refine ⟨c, ?_, hcheck⟩
    rw [← hname, ← List.head?_filter, Lists.filter_key hdistinct hc]
    rfl
  rw [h.names] at hdistinct
  rw [Schema.decode, examine_of_passes hdistinct (fun _ _ => List.not_mem_nil) hpasses]
  exact h.builds _ fun p hp => member?_of_mem hdistinct hp

end Schema

end Harvest.Document
