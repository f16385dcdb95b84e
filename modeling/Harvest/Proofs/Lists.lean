import Mathlib.Data.List.Nodup

/-!
# Lists by keys

What is found in a list whose elements have keys of their own, and lists that are put into the order
of their keys.
-/

namespace Harvest.Lists

variable {α β κ : Type}

/-- An element with a key of its own is put behind the others. -/
theorem nodup_map_append {key : α → κ} {l : List α} (h : (l.map key).Nodup) {x : α}
    (hx : ∀ y ∈ l, key y ≠ key x) : ((l ++ [x]).map key).Nodup := by
  have hnew : key x ∉ l.map key := by
    intro hmem
    obtain ⟨y, hy, hsame⟩ := List.mem_map.1 hmem
    exact hx y hy hsame
  rw [List.map_append]
  exact h.append (List.nodup_singleton _) (List.disjoint_singleton.2 hnew)

variable [BEq κ] [LawfulBEq κ]

/-- Only the element itself has its key. -/
theorem filter_key {key : α → κ} {l : List α} (h : (l.map key).Nodup) {x : α} (hx : x ∈ l) :
    (l.filter fun y => key y == key x) = [x] := by
  induction l with
  | nil => cases hx
  | cons y l ih =>
    obtain ⟨hy, hl⟩ := List.nodup_cons.1 h
    rcases List.mem_cons.1 hx with rfl | hx
    · have hothers : (l.filter fun y => key y == key x) = [] := by
        rw [List.filter_eq_nil_iff]
        intro z hz hsame
        exact hy (List.mem_map.2 ⟨z, hz, eq_of_beq hsame⟩)
      rw [List.filter_cons, if_pos (beq_self_eq_true (key x)), hothers]
    · have hne : ¬(key y == key x) = true := fun hsame =>
        hy (List.mem_map.2 ⟨x, hx, (eq_of_beq hsame).symm⟩)
      rw [List.filter_cons, if_neg hne, ih hl hx]

theorem lookup_of_mem {l : List (κ × β)} (h : (l.map Prod.fst).Nodup) {p : κ × β} (hp : p ∈ l) :
    l.lookup p.1 = some p.2 := by
  induction l with
  | nil => cases hp
  | cons q l ih =>
    obtain ⟨hq, hl⟩ := List.nodup_cons.1 h
    rcases List.mem_cons.1 hp with rfl | hp
    · exact List.lookup_cons_self
    · have hne : (p.1 == q.1) = false := beq_eq_false_iff_ne.2 fun hsame =>
        hq (List.mem_map.2 ⟨p, hp, hsame⟩)
      rw [List.lookup_cons, hne]
      exact ih hl hp

theorem pairwise_mergeSort_by (key : α → String) (l : List α) :
    (l.mergeSort fun a b => decide (key a ≤ key b)).Pairwise fun a b =>
      decide (key a ≤ key b) = true := by
  refine List.pairwise_mergeSort ?_ ?_ l
  · intro a b c hab hbc
    exact decide_eq_true (String.le_trans (of_decide_eq_true hab) (of_decide_eq_true hbc))
  · intro a b
    simpa using String.le_total (key a) (key b)

end Harvest.Lists
