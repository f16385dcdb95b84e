import Harvest.Proofs.Query.Rendering

/-!
# Queries that restrict alike

The query that counts the records of an entity and the one for its largest watermark take the
`where` clause of the base query over, without its limit, and add the conditions to it. What they
have behind `SELECT .. FROM E` is what a composed query has between the front of the base query and
its limit (`Query.restrict_alike`): the seam behind `E` makes no keyword, and the limit is the same
whatever stands before the clause. The names set in must not be keywords, whatever their case
(`Query.keyword_in_capitals_refused`).
-/

namespace Harvest

open Text

namespace Text

theorem unbroken_of_all {word : List Char} (h : word.all (!isBlank ·) = true) :
    ∀ c ∈ word, isBlank c = false := by
  simpa using h

theorem words_append_cons (word s : List Char) (h : ∀ c ∈ word, isBlank c = false) :
    words (word ++ ' ' :: s) = word :: words s :=
  List.splitOnP_append_cons_of_forall_mem h ' ' (by decide) s

theorem words_of_unbroken (word : List Char) (h : ∀ c ∈ word, isBlank c = false) :
    words word = [word] :=
  List.splitOnP_eq_singleton h

/-- A word between two blanks that goes across the seam of two texts, the second one starting with
a blank, ends the first one. -/
theorem suffix_of_seam {word before after : List Char} (hword : ∀ c ∈ word, isBlank c = false)
    (hbefore : before ≠ []) (h : ' ' :: (word ++ [' ']) = before ++ ' ' :: after) :
    before = ' ' :: word := by
  cases before with
  | nil => exact absurd rfl hbefore
  | cons c before =>
    obtain ⟨hc, hrest⟩ := List.cons.inj h
    rcases List.eq_nil_or_concat after with rfl | ⟨rest, b, rfl⟩
    · rw [← hc, List.append_inj_left' hrest rfl]
    · rw [List.concat_eq_append] at hrest
      have hinner : word ++ [' '] = (before ++ ' ' :: rest) ++ [b] := by
        rw [hrest]
        simp
      have hblank : ' ' ∈ word := by
        rw [List.append_inj_left' hinner rfl]
        simp
      exact absurd (hword ' ' hblank) (by decide)

/-- A first cut of two texts is one of the second text, if the word begins nowhere before it. -/
theorem splitFirst?_append {word s t : List Char}
    (h : ∀ u, u ≠ [] → u <:+ s → startsFolded word (u ++ t) = false) :
    splitFirst? word (s ++ t) = (splitFirst? word t).map fun parts => (s ++ parts.1, parts.2) := by
  induction s with
  | nil => simp
  | cons c s ih =>
    have hhere := h (c :: s) (List.cons_ne_nil c s) (List.suffix_refl _)
    rw [List.cons_append] at hhere
    rw [List.cons_append, splitFirst?, hhere,
      ih fun u hu hsuffix => h u hu (hsuffix.trans (List.suffix_cons c s)), Option.map_map]
    rfl

/-- No keyword begins in a text that does not have it as a word, nor at the seam with a second
text. -/
theorem startsFolded_seam {word s t u : List Char} (hword : ∀ c ∈ word, isBlank c = false)
    (hs : word ∉ words (s.map Char.toLower)) (ht : t = [] ∨ ∃ rest, t = ' ' :: rest) (hu : u ≠ [])
    (hsuffix : u <:+ s) : startsFolded (' ' :: (word ++ [' '])) (u ++ t) = false := by
  obtain ⟨front, rfl⟩ := hsuffix
  rw [List.map_append] at hs
  have hinner : ¬ ' ' :: (word ++ [' ']) <+: u.map Char.toLower := by
    rintro ⟨after, h⟩
    refine hs ?_
    rw [← h]
    simpa using mem_words (front.map Char.toLower) word after ' ' ' ' (by decide) (by decide) hword
  have hseam : u.map Char.toLower ≠ ' ' :: word := by
    intro h
    refine hs ?_
    rw [h, words, List.splitOnP_append_cons _ _ (by decide : isBlank ' ' = true)]
    exact List.mem_append_right _ (by rw [← words, words_of_unbroken word hword]; simp)
  rw [← Bool.not_eq_true, startsFolded_iff, List.map_append]
  rintro ⟨tail, h⟩
  rcases List.append_eq_append_iff.1 h with ⟨after, hu', -⟩ | ⟨after, hcut, htail⟩
  · exact hinner ⟨after, hu'.symm⟩
  · cases after with
    | nil => exact hinner (by rw [hcut, List.append_nil])
    | cons c after =>
      rcases ht with rfl | ⟨rest, rfl⟩
      · cases htail
      · obtain rfl : ' ' = c := (List.cons.inj htail).1
        exact hseam (suffix_of_seam hword (by simpa using hu) hcut)

/-- The seam of two texts makes no keyword, if the first text does not have it as a word. -/
theorem occurs_append_of_not_mem_words {word s t : List Char}
    (hword : ∀ c ∈ word, isBlank c = false) (hs : word ∉ words (s.map Char.toLower))
    (ht : t = [] ∨ ∃ rest, t = ' ' :: rest) :
    occurs (' ' :: (word ++ [' '])) (s ++ t) = occurs (' ' :: (word ++ [' '])) t := by
  rw [occurs, occurs, splitFirst?_append fun u => startsFolded_seam hword hs ht,
    Option.isSome_map]

/-- Before its first occurrence a word does not begin. -/
theorem occurs_before_splitFirst? {word s before rest kept : List Char}
    (h : splitFirst? word s = some (before, rest)) (hkept : kept <+: rest) :
    occurs word (before ++ kept) = occurs word kept := by
  induction before generalizing s with
  | nil => rfl
  | cons c before ih =>
    cases s with
    | nil =>
      unfold splitFirst? at h
      split at h <;> cases h
    | cons d s =>
      unfold splitFirst? at h
      split at h
      · cases h
      · rename_i hstart
        obtain ⟨parts, hparts, heq⟩ := Option.map_eq_some_iff.1 h
        cases heq
        have hnot : ¬ startsFolded word (c :: (parts.1 ++ kept)) = true := by
          intro hfolded
          obtain ⟨others, hothers⟩ := hkept
          have hlonger := startsFolded_append word _ others hfolded
          rw [List.cons_append, List.append_assoc, hothers,
            append_of_splitFirst? word s _ _ hparts] at hlonger
          exact hstart hlonger
        rw [← ih hparts, occurs, List.cons_append, splitFirst?, if_neg hnot, Option.isSome_map]
        rfl

theorem eq_blank_of_startsFolded {c : Char} {word s : List Char}
    (h : startsFolded (' ' :: word) (c :: s) = true) : c = ' ' := by
  rw [startsFolded_cons, Bool.and_eq_true, beq_iff_eq] at h
  have hblank : isBlank c = true := by
    rw [← isBlank_toLower, ← h.1]
    decide
  rw [← toLower_of_isBlank c hblank, ← h.1]

/-- A last occurrence that is not in the second text begins in the first one. -/
theorem exists_append_of_splitLast? {word s t before rest : List Char}
    (ht : splitLast? word t = none) (h : splitLast? word (s ++ t) = some (before, rest)) :
    ∃ c front, rest = c :: front ++ t := by
  induction s generalizing before with
  | nil => cases ht.symm.trans h
  | cons c s ih =>
    rw [List.cons_append, splitLast?] at h
    cases hsplit : splitLast? word (s ++ t) with
    | some parts =>
      rw [hsplit] at h
      cases h
      exact ih hsplit
    | none =>
      rw [hsplit] at h
      dsimp only at h
      split at h
      · cases h
        exact ⟨c, s, rfl⟩
      · cases h

end Text

namespace Query

/-- A text that can name an entity or a column: one word that is no keyword. -/
structure IsName (name : String) : Prop where
  ne_empty : name ≠ ""
  unbroken : ∀ c ∈ name.toList, isBlank c = false
  not_keyword : lower name ∉ ["from", "where", "by", "having", "limit"]

/-- The query up to its first `where` clause, or without its limit where it has none. -/
def front (base : String) : String :=
  match splitFirst? " where ".toList base.toList with
  | some (before, _) => String.ofList before
  | none => withoutLimit base

/-- The query that selects a column, or the number, of the records of an entity. -/
def selection (selected entity : String) : String := "SELECT " ++ selected ++ " FROM " ++ entity

/-- A text that can stand between `SELECT` and `FROM`: no keyword is one of its words. -/
def Selectable (selected : String) : Prop :=
  ∀ keyword ∈ ["from", "where", "by", "having", "limit"], ¬ HasWord keyword.toList selected

theorem IsName.words_eq {name : String} (h : IsName name) :
    words (name.toList.map Char.toLower) = [name.toList.map Char.toLower] := by
  refine words_of_unbroken _ fun c hc => ?_
  obtain ⟨d, hd, rfl⟩ := List.mem_map.1 hc
  rw [isBlank_toLower, h.unbroken d hd]

theorem IsName.selectable {name : String} (h : IsName name) : Selectable name := by
  intro keyword hkeyword hword
  rw [HasWord, h.words_eq, List.mem_singleton] at hword
  refine h.not_keyword ?_
  rw [lower, ← hword, String.ofList_toList]
  exact hkeyword

section Seam

variable {selected entity : String} (hselected : Selectable selected) (hentity : IsName entity)
include hentity

theorem words_selection :
    words ((selection selected entity).toList.map Char.toLower) =
      "select".toList :: (words (selected.toList.map Char.toLower) ++
        ["from".toList, entity.toList.map Char.toLower]) := by
  have htext : (selection selected entity).toList.map Char.toLower =
      "select".toList ++ ' ' :: (selected.toList.map Char.toLower ++
        ' ' :: ("from".toList ++ ' ' :: entity.toList.map Char.toLower)) := by
    simp only [selection, String.toList_append, List.map_append, List.append_assoc]
    rfl
  have hrest : words ("from".toList ++ ' ' :: entity.toList.map Char.toLower) =
      ["from".toList, entity.toList.map Char.toLower] := by
    rw [words_append_cons _ _ (unbroken_of_all rfl), hentity.words_eq]
  rw [htext, words_append_cons _ _ (unbroken_of_all rfl), ← hrest, words, words, words,
    List.splitOnP_append_cons _ _ (by decide : isBlank ' ' = true)]

include hselected

/-- The selection does not have a keyword of a clause. -/
theorem not_hasWord_selection {keyword : String}
    (hkeyword : keyword ∈ ["where", "by", "having", "limit"]) :
    ¬ HasWord keyword.toList (selection selected entity) := by
  have hname := hentity.selectable keyword (List.mem_cons_of_mem _ hkeyword)
  have hwords := hselected keyword (List.mem_cons_of_mem _ hkeyword)
  rw [HasWord, hentity.words_eq] at hname
  rw [HasWord] at hwords
  rw [HasWord, words_selection hentity]
  have hfixed : keyword.toList ∉ ["select".toList, "from".toList] := by
    simp only [List.mem_cons, List.not_mem_nil, or_false] at hkeyword
    rcases hkeyword with rfl | rfl | rfl | rfl <;> decide
  simp only [List.mem_cons, List.mem_append, List.not_mem_nil, or_false, not_or] at hfixed hname ⊢
  exact ⟨hfixed.1, hwords, hfixed.2, hname⟩

theorem hasClause_selection_append {keyword rest : String}
    (hkeyword : keyword ∈ ["where", "by", "having", "limit"])
    (hrest : rest.toList = [] ∨ ∃ tail, rest.toList = ' ' :: tail) :
    hasClause keyword (selection selected entity ++ rest) = hasClause keyword rest := by
  have hunbroken : ∀ c ∈ keyword.toList, isBlank c = false := by
    simp only [List.mem_cons, List.not_mem_nil, or_false] at hkeyword
    rcases hkeyword with rfl | rfl | rfl | rfl <;> exact unbroken_of_all rfl
  have hclause : (" " ++ keyword ++ " ").toList = ' ' :: (keyword.toList ++ [' ']) := by
    simp
  rw [hasClause, hasClause, hclause, (selection selected entity).toList_append]
  exact occurs_append_of_not_mem_words hunbroken
    (not_hasWord_selection hselected hentity hkeyword) hrest

end Seam

theorem hasClause_from_selection (selected entity rest : String) :
    hasClause "from" (selection selected entity ++ rest) = true := by
  have htext : (selection selected entity ++ rest).toList =
      ("SELECT ".toList ++ selected.toList) ++ " FROM ".toList ++
        (entity.toList ++ rest.toList) := by
    simp [selection]
  rw [hasClause, htext, List.append_assoc]
  exact occurs_of_startsFolded _ _ _ (startsFolded_append _ _ _ (by decide))

theorem withoutLimit_selection {selected entity : String} (hselected : Selectable selected)
    (hentity : IsName entity) : withoutLimit (selection selected entity) =
      selection selected entity := by
  rw [withoutLimit, cutLimit_of_not_hasWord _
    (not_hasWord_selection hselected hentity
      (by decide : "limit" ∈ ["where", "by", "having", "limit"])), String.ofList_toList]

/-- Behind a `where` clause the limit is the same whatever stands before it. -/
theorem exists_cutLimit_append {clause : List Char}
    (hclause : startsFolded " where ".toList clause = true) :
    ∃ kept limit, kept ++ limit = clause ∧
      ∀ head ≠ [], cutLimit (head ++ clause) = (head ++ kept, limit) := by
  have hnonempty {head : List Char} (h : head ≠ []) (tail : List Char) :
      (head ++ tail).isEmpty = false := by
    simp [h]
  cases hsplit : splitLast? " limit".toList clause with
  | some parts =>
    obtain ⟨before, rest⟩ := parts
    have hcut {head : List Char} (h : head ≠ []) : cutLimit (head ++ clause) =
        if isLimitCount (rest.drop " limit".length) then (head ++ before, rest)
        else (head ++ clause, []) := by
      rw [cutLimit, splitLast?_append _ _ _ _ _ hsplit]
      simp only [hnonempty h, Bool.not_false, Bool.true_and]
    by_cases hcount : isLimitCount (rest.drop " limit".length) = true
    · exact ⟨before, rest, append_of_splitLast? _ _ _ _ hsplit, fun head h => by
        rw [hcut h, if_pos hcount]⟩
    · exact ⟨clause, [], List.append_nil _, fun head h => by rw [hcut h, if_neg hcount]⟩
  | none =>
    refine ⟨clause, [], List.append_nil _, fun head _ => ?_⟩
    unfold cutLimit
    cases hlast : splitLast? " limit".toList (head ++ clause) with
    | none => rfl
    | some parts =>
      -- what stands behind such a limit goes on with the clause, and is no count
      obtain ⟨before, rest⟩ := parts
      obtain ⟨c, front, rfl⟩ := exists_append_of_splitLast? hsplit hlast
      have hletter : ∃ e ∈ (c :: front ++ clause).drop 6, e.toLower = 'e' := by
        obtain ⟨after, hafter⟩ := (startsFolded_iff _ clause).1 hclause
        have hfifth : (clause.map Char.toLower)[5]? = some 'e' := by
          rw [← hafter]
          rfl
        rw [List.getElem?_map] at hfifth
        obtain ⟨e, he, hlower⟩ := Option.map_eq_some_iff.1 hfifth
        have hpast : (c :: front).length ≤ 6 + front.length := by
          rw [List.length_cons]
          omega
        refine ⟨e, List.mem_of_getElem? (i := front.length) ?_, hlower⟩
        rw [List.getElem?_drop, List.getElem?_append_right hpast, ← he]
        congr 1
        simp
        omega
      obtain ⟨e, he, hlower⟩ := hletter
      have hcount : ¬ isLimitCount ((c :: front ++ clause).drop 6) = true := by
        intro hcount
        rcases (blank_or_digit_of_isLimitCount _ hcount).2 e he with hblank | hdigit
        · rw [← toLower_of_isBlank e hblank, hlower] at hblank
          exact absurd hblank (by decide)
        · rw [← toLower_of_isDigit e hdigit, hlower] at hdigit
          exact absurd hdigit (by decide)
      have hlength : " limit".length = 6 := rfl
      simp only [hlength, hcount, Bool.and_false]
      rfl

/-- What is kept of the `where` clause of a base query, its limit being left out: the composed
query has it behind the front of the base query, and the others behind their selection. -/
theorem exists_kept {base : String} (hbase : startsFolded " where ".toList base.toList = false) :
    ∃ kept : String, withoutLimit base = front base ++ kept ∧
      (kept.toList = [] ∨ ∃ tail, kept.toList = ' ' :: tail) ∧
      hasClause "where" (withoutLimit base) = hasClause "where" kept ∧
      ∀ selected entity, Selectable selected → IsName entity →
        withoutLimit (selection selected entity ++ wherePart base) =
          selection selected entity ++ kept := by
  cases hsplit : splitFirst? " where ".toList base.toList with
  | none =>
    have hfront : front base = withoutLimit base := by rw [front, hsplit]
    have hpart : wherePart base = "" := by rw [wherePart, hsplit]
    have hnone : hasClause "where" base = false := by
      rw [hasClause, occurs]
      exact congrArg Option.isSome hsplit
    refine ⟨"", by rw [hfront, String.append_empty], .inl rfl, ?_, ?_⟩
    · rw [← withoutLimit_append_limitClause base] at hnone
      exact hasClause_of_append_eq_false _ _ _ hnone
    · intro selected entity hselected hentity
      rw [hpart, String.append_empty, withoutLimit_selection hselected hentity]
  | some parts =>
    obtain ⟨before, clause⟩ := parts
    have hclause := startsFolded_of_splitFirst? _ _ _ _ hsplit
    have hbefore : before ≠ [] := by
      rintro rfl
      rw [← append_of_splitFirst? _ _ _ _ hsplit, List.nil_append, hclause] at hbase
      cases hbase
    have hfront : front base = String.ofList before := by rw [front, hsplit]
    have hpart : wherePart base = String.ofList clause := by
      rw [wherePart, hsplit]
      simp [hbefore]
    obtain ⟨kept, limit, hkept, hcut⟩ := exists_cutLimit_append hclause
    have hwithout : withoutLimit base = front base ++ String.ofList kept := by
      rw [withoutLimit, ← append_of_splitFirst? _ _ _ _ hsplit, hcut before hbefore, hfront,
        String.ofList_append]
    refine ⟨String.ofList kept, hwithout, ?_, ?_, ?_⟩
    · rw [String.toList_ofList]
      cases kept with
      | nil => exact .inl rfl
      | cons c tail =>
        rw [← hkept] at hclause
        exact .inr ⟨tail, by rw [eq_blank_of_startsFolded hclause]⟩
    · rw [hwithout, hfront, hasClause, hasClause, (String.ofList before).toList_append,
        String.toList_ofList, String.toList_ofList]
      exact occurs_before_splitFirst? hsplit ⟨limit, hkept⟩
    · intro selected entity hselected hentity
      rw [hpart, withoutLimit, String.toList_append, String.toList_ofList, hcut _ ?_,
        String.ofList_append, String.ofList_toList]
      simp [selection]

theorem rendering_congr {query query' : String}
    (h : hasClause "where" query = hasClause "where" query') (conditions : List String) :
    rendering query conditions = rendering query' conditions := by
  cases conditions with
  | nil => rfl
  | cons first others => rw [rendering, rendering, h]

theorem rendering_toList (query : String) (conditions : List String) :
    (rendering query conditions).toList = [] ∨
      ∃ tail, (rendering query conditions).toList = ' ' :: tail := by
  cases conditions with
  | nil => exact .inl rfl
  | cons first others =>
    right
    rw [rendering]
    split <;> simp

theorem watermark_eq (entity base column : String) (predicates : List String) :
    watermark entity base column predicates =
      (addPredicates (withoutLimit (selection column entity ++ wherePart base))
        (predicates ++ [column ++ " != null"])).map
          (· ++ " ORDER BY " ++ column ++ " desc LIMIT 1") := by
  have htext : withoutLimit ("SELECT " ++ column ++ " FROM " ++ entity ++ wherePart base) =
      withoutLimit (selection column entity ++ wherePart base) := rfl
  rw [watermark, htext, addPredicates_append]
  cases addPredicates (withoutLimit (selection column entity ++ wherePart base)) predicates with
  | error e => rfl
  | ok query =>
    simp only [Except.bind, addPredicates_cons, addPredicates_nil]
    cases hlast : addPredicate query (column ++ " != null") with
    | error e => simp [hlast, bind, Except.bind, Except.map]
    | ok query' => simp [hlast, bind, Except.bind, pure, Except.pure, Except.map]

/-- The conditions that a composed query adds can be added to what another selection keeps of the
base query, and give the same text. -/
theorem extends_selection {selected entity kept : String} {query : String}
    (hselected : Selectable selected) (hentity : IsName entity)
    (hkept : kept.toList = [] ∨ ∃ tail, kept.toList = ' ' :: tail)
    (hwhere : hasClause "where" (query ++ kept) = hasClause "where" kept)
    (conditions : List String) :
    rendering (selection selected entity ++ kept) conditions =
        rendering (query ++ kept) conditions ∧
      (Extends (query ++ kept) conditions →
        Extends (selection selected entity ++ kept) conditions) := by
  have hsame (others : List String) : rendering (selection selected entity ++ kept) others =
      rendering (query ++ kept) others :=
    rendering_congr ((hasClause_selection_append hselected hentity (by decide) hkept).trans
      hwhere.symm) others
  refine ⟨hsame conditions, ?_⟩
  rintro (hnil | ⟨-, hclosed⟩)
  · exact .inl hnil
  · refine .inr ⟨hasClause_from_selection selected entity kept, fun keyword hkeyword => ?_⟩
    have hrest : (kept ++ rendering (query ++ kept) conditions.dropLast).toList = [] ∨
        ∃ tail, (kept ++ rendering (query ++ kept) conditions.dropLast).toList = ' ' :: tail := by
      rw [String.toList_append]
      rcases hkept with hnil | ⟨tail, htail⟩
      · rw [hnil, List.nil_append]
        exact rendering_toList _ _
      · exact .inr ⟨_, by rw [htail, List.cons_append]⟩
    rw [hsame, String.append_assoc, hasClause_selection_append hselected hentity
      (List.mem_cons_of_mem "where" hkeyword) hrest]
    have hnone := hclosed keyword hkeyword
    rw [String.append_assoc] at hnone
    exact hasClause_of_append_eq_false_right _ _ _ hnone

/-- The number of records is counted, and the largest watermark looked up, under the restrictions
of the extraction query: of the base query they keep what stands between its front and its limit,
and all of them have the same text behind it. -/
theorem restrict_alike (base entity column : String) (predicates : List String)
    (hbase : startsFolded " where ".toList base.toList = false) (hentity : IsName entity)
    (hcolumn : IsName column) :
    ∃ kept, front base ++ kept ++ limitClause base = base ∧
      (∀ conditions q, compose base conditions none = .ok q →
        q = front base ++ (kept ++ rendering (withoutLimit base) (nonBlank conditions)) ++
          limitClause base) ∧
      (∀ restriction, compose base predicates none =
          .ok (front base ++ restriction ++ limitClause base) →
        count entity base predicates = .ok ("SELECT COUNT() FROM " ++ entity ++ restriction)) ∧
      ∀ restriction, compose base (predicates ++ [column ++ " != null"]) none =
          .ok (front base ++ restriction ++ limitClause base) →
        watermark entity base column predicates = .ok ("SELECT " ++ column ++ " FROM " ++ entity ++
          restriction ++ " ORDER BY " ++ column ++ " desc LIMIT 1") := by
  obtain ⟨kept, hwithout, hkept, hwhere, hselection⟩ := exists_kept hbase
  have hcompose (conditions : List String) (q : String)
      (h : compose base conditions none = .ok q) :
      Extends (front base ++ kept) (nonBlank conditions) ∧
        q = front base ++ (kept ++ rendering (withoutLimit base) (nonBlank conditions)) ++
          limitClause base := by
    obtain ⟨hextends, rfl⟩ := (compose_iff_extends base conditions none q).1 h
    have hconditions : Query.conditions conditions none = nonBlank conditions := by
      simp [Query.conditions]
    rw [hconditions, hwithout] at hextends
    refine ⟨hextends, ?_⟩
    rw [hconditions, ← @String.append_assoc (front base), ← hwithout]
  -- what is added to a selection is what stands between the front and the limit
  have hadded {selected : String} (hselected : Selectable selected) (conditions : List String)
      (restriction : String) (h : compose base conditions none =
        .ok (front base ++ restriction ++ limitClause base)) :
      addPredicates (withoutLimit (selection selected entity ++ wherePart base)) conditions =
        .ok (selection selected entity ++ restriction) := by
    obtain ⟨hextends, htext⟩ := hcompose conditions _ h
    obtain ⟨hsame, hopen⟩ := extends_selection hselected hentity hkept
      (hwithout ▸ hwhere) (nonBlank conditions)
    rw [hselection selected entity hselected hentity, addPredicates_eq_ok_iff]
    refine ⟨hopen hextends, ?_⟩
    have hrestriction : restriction = kept ++ rendering (withoutLimit base) (nonBlank conditions) :=
      String.append_right_inj _ |>.1 (String.append_left_inj _ |>.1 htext)
    rw [hsame, ← hwithout, hrestriction, String.append_assoc]
  refine ⟨kept, ?_, fun conditions q h => (hcompose conditions q h).2, fun restriction h => ?_,
    fun restriction h => ?_⟩
  · rw [← hwithout, withoutLimit_append_limitClause]
  · have hnumber : IsName "COUNT()" := ⟨by decide, unbroken_of_all rfl, by decide⟩
    exact hadded hnumber.selectable predicates restriction h
  · rw [watermark_eq,
      hadded hcolumn.selectable (predicates ++ [column ++ " != null"]) restriction h]
    simp [Except.map, selection]

/-- The limit begins with the blank behind `where`: it is left out nevertheless, and so there is no
clause yet that the first condition could be joined to. -/
theorem restrict_alike_touching :
    (IsName "Account" ∧ IsName "SystemModstamp") ∧
      count "Account" "SELECT Id FROM Lead WHERE limit 50" ["Id > '0'", "Age < 9"] =
        .ok ("SELECT COUNT() FROM " ++ "Account" ++ " WHERE where Id > '0' and (Age < 9)") ∧
      watermark "Account" "SELECT Id FROM Lead WHERE limit 50" "SystemModstamp" ["Id > '0'"] =
        .ok ("SELECT " ++ "SystemModstamp" ++ " FROM " ++ "Account" ++
          " WHERE where Id > '0' and (SystemModstamp != null)" ++ " ORDER BY " ++
            "SystemModstamp" ++ " desc LIMIT 1") := by
  have hentity : IsName "Account" := ⟨by decide, unbroken_of_all rfl, by decide⟩
  have hcolumn : IsName "SystemModstamp" := ⟨by decide, unbroken_of_all rfl, by decide⟩
  obtain ⟨-, -, -, hcount, -⟩ := restrict_alike "SELECT Id FROM Lead WHERE limit 50" "Account"
    "SystemModstamp" ["Id > '0'", "Age < 9"] (by decide) hentity hcolumn
  obtain ⟨-, -, -, -, hwatermark⟩ := restrict_alike "SELECT Id FROM Lead WHERE limit 50" "Account"
    "SystemModstamp" ["Id > '0'"] (by decide) hentity hcolumn
  exact ⟨⟨hentity, hcolumn⟩, hcount " WHERE where Id > '0' and (Age < 9)" (by decide),
    hwatermark " WHERE where Id > '0' and (SystemModstamp != null)" (by decide)⟩

/-- A keyword in capitals is a keyword: behind such an entity no second condition can be added. -/
theorem keyword_in_capitals_refused :
    startsFolded " where ".toList "SELECT Id FROM Account".toList = false ∧ "BY" ≠ "" ∧
      (∀ c ∈ "BY".toList, isBlank c = false) ∧ "BY" ∉ ["from", "where", "by", "having", "limit"] ∧
      compose "SELECT Id FROM Account" ["Id > '0'", "Age < 9"] none =
        .ok ("SELECT Id FROM Account" ++ " where Id > '0' and (Age < 9)" ++ "") ∧
      front "SELECT Id FROM Account" = "SELECT Id FROM Account" ∧
      limitClause "SELECT Id FROM Account" = "" ∧
      count "BY" "SELECT Id FROM Account" ["Id > '0'", "Age < 9"] ≠
        .ok ("SELECT COUNT() FROM " ++ "BY" ++ " where Id > '0' and (Age < 9)") := by
  exact ⟨by decide, by decide, unbroken_of_all rfl, by decide, by decide, by decide, by decide,
    by decide⟩

end Query

end Harvest
