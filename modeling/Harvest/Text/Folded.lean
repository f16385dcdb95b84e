/-!
# Searching without regard to case

Keywords are found whatever the case of their ASCII letters. A search takes the
keyword in lower case and cuts the text where it occurs, so no position is
computed and nothing of the text is lost: `splitFirst?` cuts at the first
occurrence, `splitLast?` at the last.
-/

namespace Harvest.Text

/-- The text with its ASCII letters in lower case. -/
def lower (s : String) : String := String.ofList (s.toList.map Char.toLower)

/-- Two texts that differ at most in the case of ASCII letters. -/
def sameFolded (s t : String) : Bool := s.toList.map Char.toLower == t.toList.map Char.toLower

/-- The text starts with the lower-case `word`, whatever the case of its letters. -/
def startsFolded : List Char → List Char → Bool
  | [], _ => true
  | _ :: _, [] => false
  | p :: word, c :: s => p == c.toLower && startsFolded word s

/-- The part of the text before the first occurrence of `word` and the part from there on. -/
def splitFirst? (word : List Char) : List Char → Option (List Char × List Char)
  | [] => if startsFolded word [] then some ([], []) else none
  | c :: s =>
    if startsFolded word (c :: s) then some ([], c :: s)
    else (splitFirst? word s).map fun parts => (c :: parts.1, parts.2)

/-- The part of the text before the last occurrence of `word` and the part from there on. -/
def splitLast? (word : List Char) : List Char → Option (List Char × List Char)
  | [] => if startsFolded word [] then some ([], []) else none
  | c :: s =>
    match splitLast? word s with
    | some parts => some (c :: parts.1, parts.2)
    | none => if startsFolded word (c :: s) then some ([], c :: s) else none

/-- The lower-case `word` occurs somewhere in the text. -/
def occurs (word s : List Char) : Bool := (splitFirst? word s).isSome

@[simp] theorem startsFolded_nil (s : List Char) : startsFolded [] s = true := by
  cases s <;> rfl

theorem startsFolded_cons (p c : Char) (word s : List Char) :
    startsFolded (p :: word) (c :: s) = (p == c.toLower && startsFolded word s) := rfl

/-- A word occurs at the start exactly when the lower-case text starts with it. -/
theorem startsFolded_iff (word s : List Char) :
    startsFolded word s = true ↔ word <+: s.map Char.toLower := by
  induction word generalizing s with
  | nil => simp
  | cons p word ih =>
    cases s with
    | nil => simp [startsFolded]
    | cons c s => simp [startsFolded_cons, ih, List.cons_prefix_cons]

/-- A first cut loses nothing. -/
theorem append_of_splitFirst? (word s before rest : List Char)
    (h : splitFirst? word s = some (before, rest)) : before ++ rest = s := by
  induction s generalizing before rest with
  | nil =>
    unfold splitFirst? at h
    split at h <;> simp_all
  | cons c s ih =>
    unfold splitFirst? at h
    split at h
    · simp at h
      obtain ⟨rfl, rfl⟩ := h
      rfl
    · obtain ⟨⟨a, b⟩, hab, heq⟩ := Option.map_eq_some_iff.1 h
      simp at heq
      obtain ⟨rfl, rfl⟩ := heq
      simp [ih a b hab]

/-- A last cut loses nothing. -/
theorem append_of_splitLast? (word s before rest : List Char)
    (h : splitLast? word s = some (before, rest)) : before ++ rest = s := by
  induction s generalizing before rest with
  | nil =>
    unfold splitLast? at h
    split at h <;> simp_all
  | cons c s ih =>
    unfold splitLast? at h
    split at h
    · rename_i parts hp
      simp at h
      obtain ⟨rfl, rfl⟩ := h
      simp [ih parts.1 parts.2 hp]
    · split at h
      · simp at h
        obtain ⟨rfl, rfl⟩ := h
        rfl
      · simp at h

end Harvest.Text
