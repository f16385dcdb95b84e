import Harvest.Proofs.Query.Composition
import Harvest.Proofs.Text.Digits

/-!
# The text of a composed query

Conditions are appended to a query without its limit, and every one of them is refused if the text
grown so far has no `from`, or has a clause that no condition may follow. As the text only grows,
all of these guards together say something about the text before the last condition, and
`Query.compose_eq_ok_iff` gives when a query is composed and what its text is. The marker of the
deleted rows is trimmed like any other condition (`Query.blank_before_marker_trimmed`).
-/

namespace Harvest

open Text

namespace Query

/-- The text that conditions add to a query: the first one opens a `where` clause if the query has
none, and all others are joined with `and` in parentheses. -/
def rendering (query : String) : List String → String
  | [] => ""
  | first :: others =>
    (if hasClause "where" query then " and (" ++ first ++ ")" else " where " ++ first) ++
      String.join (others.map fun condition => " and (" ++ condition ++ ")")

/-- The conditions without the blanks around them, blank ones left out. -/
def nonBlank (conditions : List String) : List String :=
  (conditions.map trimmed).filter (· ≠ "")

/-- A condition can be added: there is a `from` clause, and none that no condition may follow. -/
def Open (query : String) : Prop :=
  hasClause "from" query = true ∧ ∀ keyword ∈ closingKeywords, hasClause keyword query = false

/-- Conditions can be added to the query one after the other. -/
def Extends (query : String) (conditions : List String) : Prop :=
  conditions = [] ∨ hasClause "from" query = true ∧ ∀ keyword ∈ closingKeywords,
    hasClause keyword (query ++ rendering query conditions.dropLast) = false

theorem hasClause_append (keyword query rest : String) (h : hasClause keyword query = true) :
    hasClause keyword (query ++ rest) = true := by
  rw [hasClause, query.toList_append]
  exact occurs_append_left _ _ _ h

theorem hasClause_of_append_eq_false (keyword query rest : String)
    (h : hasClause keyword (query ++ rest) = false) : hasClause keyword query = false := by
  rw [← Bool.not_eq_true] at h ⊢
  exact fun hquery => h (hasClause_append keyword query rest hquery)

theorem hasClause_of_append_eq_false_right (keyword query rest : String)
    (h : hasClause keyword (query ++ rest) = false) : hasClause keyword rest = false := by
  rw [← Bool.not_eq_true] at h ⊢
  intro hrest
  refine h ?_
  rw [hasClause, occurs_iff_isInfix] at hrest ⊢
  rw [query.toList_append, List.map_append]
  exact hrest.trans (List.suffix_append _ _).isInfix

@[simp] theorem rendering_nil (query : String) : rendering query [] = "" := rfl

theorem rendering_singleton (query condition : String) :
    rendering query [condition] =
      if hasClause "where" query then " and (" ++ condition ++ ")" else " where " ++ condition := by
  simp [rendering, String.join]

/-- Behind its first condition a query has a `where` clause. -/
theorem hasClause_where_rendering (query condition : String) :
    hasClause "where" (query ++ rendering query [condition]) = true := by
  rw [rendering_singleton]
  split
  · rename_i hwhere
    exact hasClause_append _ _ _ hwhere
  · rw [← String.append_assoc]
    exact hasClause_where query " where " condition (by decide)

theorem rendering_cons (query first : String) (others : List String) :
    rendering query (first :: others) =
      rendering query [first] ++ rendering (query ++ rendering query [first]) others := by
  have hwhere := hasClause_where_rendering query first
  rw [rendering_singleton] at hwhere ⊢
  cases others with
  | nil => simp [rendering]
  | cons second others => simp [rendering, hwhere]

theorem addPredicate_of_blank (query condition : String) (h : trimmed condition = "") :
    addPredicate query condition = .ok query := by
  simp [addPredicate, h]

theorem find?_closingKeywords_eq_none_iff (query : String) :
    closingKeywords.find? (hasClause · query) = none ↔
      ∀ keyword ∈ closingKeywords, hasClause keyword query = false := by
  simp [List.find?_eq_none]

theorem addPredicate_eq_ok_iff (query condition q : String) (h : trimmed condition ≠ "") :
    addPredicate query condition = .ok q ↔
      Open query ∧ q = query ++ rendering query [trimmed condition] := by
  have hne : ¬ (trimmed condition).isEmpty = true := by rwa [String.isEmpty_iff]
  simp only [addPredicate, if_neg hne, Open, ← find?_closingKeywords_eq_none_iff,
    rendering_singleton]
  by_cases hfrom : hasClause "from" query = true
  · cases hclosed : closingKeywords.find? (hasClause · query) with
    | some keyword => simp [hfrom]
    | none => by_cases hwhere : hasClause "where" query = true <;>
        simp [hfrom, hwhere, eq_comm, String.append_assoc]
  · simp [hfrom]

theorem extends_cons_iff (query first : String) (others : List String) :
    Extends query (first :: others) ↔
      Open query ∧ Extends (query ++ rendering query [first]) others := by
  cases others with
  | nil => simp [Extends, Open]
  | cons second others =>
    rw [Extends, Extends, List.dropLast_cons_cons, rendering_cons, ← String.append_assoc]
    simp only [reduceCtorEq, false_or]
    constructor
    · rintro ⟨hfrom, hclosed⟩
      refine ⟨⟨hfrom, fun keyword hkeyword => ?_⟩, hasClause_append _ _ _ hfrom, hclosed⟩
      exact hasClause_of_append_eq_false _ _ _
        (hasClause_of_append_eq_false _ _ _ (hclosed keyword hkeyword))
    · rintro ⟨hopen, -, hclosed⟩
      exact ⟨hopen.1, hclosed⟩

theorem nonBlank_cons_of_blank (condition : String) (conditions : List String)
    (h : trimmed condition = "") : nonBlank (condition :: conditions) = nonBlank conditions := by
  simp [nonBlank, h]

theorem nonBlank_cons (condition : String) (conditions : List String)
    (h : trimmed condition ≠ "") :
    nonBlank (condition :: conditions) = trimmed condition :: nonBlank conditions := by
  simp [nonBlank, h]

/-- Conditions are added exactly if the query can be extended by them, and then the text grows by
their rendering. -/
theorem addPredicates_eq_ok_iff (query q : String) (conditions : List String) :
    addPredicates query conditions = .ok q ↔
      Extends query (nonBlank conditions) ∧ q = query ++ rendering query (nonBlank conditions) := by
  induction conditions generalizing query with
  | nil => simpa [nonBlank, Extends] using eq_comm
  | cons condition conditions ih =>
    rw [addPredicates_cons]
    by_cases hblank : trimmed condition = ""
    · rw [addPredicate_of_blank query condition hblank, nonBlank_cons_of_blank _ _ hblank]
      exact ih query
    · refine (bind_eq_ok_iff (addPredicate query condition) _ q).trans ?_
      rw [nonBlank_cons _ _ hblank, extends_cons_iff,
        rendering_cons query (trimmed condition) (nonBlank conditions), ← String.append_assoc]
      simp only [addPredicate_eq_ok_iff _ _ _ hblank, ih]
      constructor
      · rintro ⟨_, ⟨hopen, rfl⟩, hextends, rfl⟩
        exact ⟨⟨hopen, hextends⟩, rfl⟩
      · rintro ⟨⟨hopen, hextends⟩, rfl⟩
        exact ⟨_, ⟨hopen, rfl⟩, hextends, rfl⟩

/-- The conditions of a composed query, in order. -/
def conditions (predicates : List String) (marker : Option String) : List String :=
  nonBlank (predicates ++ marker.toList.map markerCondition)

theorem compose_iff_extends (base : String) (predicates : List String) (marker : Option String)
    (q : String) :
    compose base predicates marker = .ok q ↔
      Extends (withoutLimit base) (conditions predicates marker) ∧
        q = withoutLimit base ++ rendering (withoutLimit base) (conditions predicates marker) ++
          limitClause base := by
  rw [compose_eq, map_eq_ok_iff]
  simp only [addPredicates_eq_ok_iff]
  constructor
  · rintro ⟨_, ⟨hextends, rfl⟩, rfl⟩
    exact ⟨hextends, rfl⟩
  · rintro ⟨hextends, rfl⟩
    exact ⟨_, ⟨hextends, rfl⟩, rfl⟩

/-- When a query is composed, and what its text is: the base query without its limit, all
conditions in order, and the limit. -/
theorem compose_eq_ok_iff (base : String) (predicates : List String) (marker : Option String)
    (q : String) :
    withoutLimit base ++ limitClause base = base ∧
      (compose base predicates marker = .ok q ↔
        (conditions predicates marker = [] ∨
          hasClause "from" (withoutLimit base) = true ∧ ∀ keyword ∈ ["by", "having", "limit"],
            hasClause keyword (withoutLimit base ++
              rendering (withoutLimit base) (conditions predicates marker).dropLast) = false) ∧
        q = withoutLimit base ++
          rendering (withoutLimit base) (conditions predicates marker) ++ limitClause base) :=
  ⟨withoutLimit_append_limitClause base, compose_iff_extends base predicates marker q⟩

/-- The blank that a marker starts with is not in the query, where the condition of the marker
would have it. -/
theorem blank_before_marker_trimmed :
    compose "SELECT Id FROM Account LIMIT 5" ["Id > '0'"] (some " IsDeleted") =
        .ok "SELECT Id FROM Account where Id > '0' and (IsDeleted = true) LIMIT 5" ∧
      "SELECT Id FROM Account where Id > '0' and (IsDeleted = true) LIMIT 5" ≠
        "SELECT Id FROM Account" ++ rendering "SELECT Id FROM Account"
          (nonBlank ["Id > '0'"] ++ [markerCondition " IsDeleted"]) ++ " LIMIT 5" := by
  decide

end Query

end Harvest
