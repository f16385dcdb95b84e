import Harvest.Proofs.Disk.Frame

/-!
# Where joined paths lead

A joined path leads where its second part leads from the place of the first
(`Disk.Memory.lead_join`). So below one directory names lead to different places if they are
different and plain, that is, the names of one step down.
-/

namespace Harvest

namespace Path

/-- The name, if it is one, is one step down from any place. -/
structure IsPlain (name : String) : Prop where
  slash : '/' ∉ name.toList
  here : name ≠ "."
  above : name ≠ ".."

theorem split_ne_nil (s : List Char) : split s ≠ [] := by
  cases s with
  | nil => exact List.cons_ne_nil _ _
  | cons c s =>
    rw [split]
    split
    · exact List.cons_ne_nil _ _
    · split <;> exact List.cons_ne_nil _ _

theorem split_append (a b : List Char) : split (a ++ '/' :: b) = split a ++ split b := by
  induction a with
  | nil => rfl
  | cons c a ih =>
    rw [List.cons_append, split, split, ih]
    split
    · rfl
    · cases hsplit : split a with
      | nil => exact absurd hsplit (split_ne_nil a)
      | cons name names => rfl

theorem split_of_not_mem {s : List Char} (h : '/' ∉ s) : split s = [s] := by
  induction s with
  | nil => rfl
  | cons c s ih =>
    obtain ⟨hc, hs⟩ := not_or.1 (mt List.mem_cons.2 h)
    rw [split, if_neg (Ne.symm hc), ih hs]

theorem IsPlain.names {name : String} (h : IsPlain name) : Path.names name = [name] := by
  rw [Path.names, split_of_not_mem h.slash, List.map_singleton, String.ofList_toList]

theorem isAbsolute_of_not_mem {s : String} (h : '/' ∉ s.toList) : isAbsolute s = false := by
  refine beq_false_of_ne fun hhead => h ?_
  exact List.mem_of_head? hhead

theorem isAbsolute_append {a : String} (h : a.toList ≠ []) (s : String) :
    isAbsolute (a ++ s) = isAbsolute a := by
  rw [isAbsolute, isAbsolute, String.toList_append, List.head?_append, List.head?_eq_some_head h]
  rfl

end Path

namespace Disk.Memory

/-- A joined path leads where its second part leads from the place of the first. -/
theorem lead_join (home : Place) (a : String) {b : String} (hb : Path.isAbsolute b = false) :
    lead home (Path.join a b) = walk (lead home a) (Path.names b) := by
  unfold Path.join
  split
  · rename_i s hs
    simp [Path.isAbsolute, hs] at hb
  · -- a first path that ends with a slash ends with an empty name, which leads nowhere
    split
    · rename_i hlast
      obtain rfl : a = "" := String.toList_eq_nil_iff.1 (List.getLast?_eq_none_iff.1 hlast)
      rw [lead, hb]
      rfl
    · rename_i hlast
      obtain ⟨s, hs⟩ := List.getLast?_eq_some_iff.1 hlast
      have ha : a.toList ≠ [] := by simp [hs]
      have hends : walk (walk (if Path.isAbsolute a then [] else home)
          ((Path.split s).map String.ofList)) [""] = lead home a := by
        rw [lead, Path.names, hs, Path.split_append, List.map_append, walk_append]
        rfl
      rw [lead, Path.isAbsolute_append ha, Path.names, String.toList_append, hs,
        List.append_assoc, List.singleton_append, Path.split_append, List.map_append, walk_append,
        ← hends]
      rfl
    · rename_i hlast
      have ha : a.toList ≠ [] := by
        intro h
        simp [h] at hlast
      have hnames : (a ++ "/" ++ b).toList = a.toList ++ '/' :: b.toList := by
        simp
      rw [lead, Path.names, hnames, Path.split_append, List.map_append, walk_append,
        String.append_assoc, Path.isAbsolute_append ha]
      rfl

theorem lead_join_of_isPlain (home : Place) (a : String) {name : String} (h : Path.IsPlain name)
    (hname : name ≠ "") : lead home (Path.join a name) = name :: lead home a := by
  have hvoid : isVoid name = false := by simp [isVoid, hname, h.here]
  have habove : (name == "..") = false := beq_false_of_ne h.above
  rw [lead_join home a (Path.isAbsolute_of_not_mem h.slash), h.names, walk, hvoid, habove]
  rfl

end Disk.Memory

end Harvest
