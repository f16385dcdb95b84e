import Harvest.Proofs.Query.Condition
import Harvest.Query
import Mathlib.Data.List.Forall2

/-!
# What a composed query selects

A query `SELECT .. FROM E` may have a condition and a limit (`Query.Base`). Composing keeps all of
its text; the conditions added are joined with `and` to the end of the one that comes first. As
that one is not put in parentheses, they restrict only what stands behind its last `or`
(`Query.compose_restricts`), and a row of which the part before is true is selected whatever is
added (`Query.or_escapes_added_condition`).
-/

namespace Harvest

open Text

namespace Query

/-- A `where` clause: the keyword with the blanks around it, in any case, and the condition. -/
structure Clause where
  keyword : String
  condition : String
  folded : sameFolded keyword " where " = true

/-- The text of a limit: its keyword in any case, and a count. -/
def IsLimit (limit : String) : Prop :=
  startsFolded " limit".toList limit.toList = true ∧
    isLimitCount (limit.toList.drop " limit".length) = true

/-- A query before its limit. -/
def body (head : String) (clause : Option Clause) : String :=
  match clause with
  | none => head
  | some c => head ++ c.keyword ++ c.condition

/-- A query of the form `SELECT .. FROM E`, with an optional condition and an optional limit. -/
structure Base where
  head : String
  clause : Option Clause
  limit : String
  from_head : hasClause "from" head = true
  not_where : ¬ HasWord "where".toList head
  not_limit : ¬ HasWord "limit".toList (body head clause)
  isLimit : limit = "" ∨ IsLimit limit

namespace Base

def text (base : Base) : String := body base.head base.clause ++ base.limit

/-- The keyword of the condition, as the query has it or as it is added. -/
def keyword (base : Base) : String :=
  match base.clause with
  | none => " where "
  | some c => c.keyword

def condition? (base : Base) : Option String := base.clause.map Clause.condition

end Base

section Limits

theorem blank_or_digit_of_isLimitCount (s : List Char) (h : isLimitCount s = true) :
    (∃ b t, s = b :: t ∧ isBlank b = true) ∧ ∀ c ∈ s, isBlank c = true ∨ c.isDigit = true := by
  cases s with
  | nil => cases h
  | cons b t =>
    simp only [isLimitCount, Bool.and_eq_true] at h
    obtain ⟨⟨hb, -⟩, hdigits⟩ := h
    refine ⟨⟨b, t, rfl, hb⟩, ?_⟩
    obtain ⟨before, after, hs, hbefore, hafter⟩ := exists_blanks_trim (b :: t)
    intro c hc
    rw [hs, List.mem_append, List.mem_append] at hc
    rcases hc with (hc | hc) | hc
    · exact .inl (hbefore c hc)
    · exact .inr (List.all_eq_true.1 hdigits c hc)
    · exact .inl (hafter c hc)

/-- A query that does not have the word `limit` is not cut. -/
theorem cutLimit_of_not_hasWord (query : String) (h : ¬ HasWord "limit".toList query) :
    cutLimit query.toList = (query.toList, []) := by
  unfold cutLimit
  cases hsplit : splitLast? " limit".toList query.toList with
  | none => rfl
  | some parts =>
    obtain ⟨before, rest⟩ := parts
    simp only
    split
    · rename_i hcut
      exfalso
      apply h
      obtain ⟨⟨b, t, hcount, hb⟩, -⟩ :=
        blank_or_digit_of_isLimitCount _ (Bool.and_eq_true_iff.1 hcut).2
      have hquery := append_of_splitLast? _ _ _ _ hsplit
      have hstart := startsFolded_of_splitLast? _ _ _ _ hsplit
      rw [HasWord, ← hquery]
      refine mem_words_of_startsFolded "limit".toList before rest b hb (by decide) ?_
      obtain ⟨after, hafter⟩ := (startsFolded_iff _ rest).1 hstart
      have hdrop : (rest.drop 6).map Char.toLower = after := by
        rw [List.map_drop, ← hafter]
        rfl
      rw [show rest.drop 6 = b :: t from hcount, List.map_cons, toLower_of_isBlank b hb] at hdrop
      rw [startsFolded_iff, ← hafter, ← hdrop]
      exact ⟨t.map Char.toLower, rfl⟩
    · rfl

/-- The count of a limit has no letter. -/
theorem toLower_ne_of_count (s : List Char)
    (h : ∀ c ∈ s, isBlank c = true ∨ c.isDigit = true) : ∀ c ∈ s, c.toLower ≠ 'l' := by
  intro c hc hl
  rcases h c hc with hblank | hdigit
  · rw [toLower_of_isBlank c hblank] at hl
    rw [hl] at hblank
    exact absurd hblank (by decide)
  · rw [toLower_of_isDigit c hdigit] at hl
    rw [hl] at hdigit
    exact absurd hdigit (by decide)

theorem splitLast?_limit (limit : List Char)
    (hstart : startsFolded " limit".toList limit = true)
    (hcount : isLimitCount (limit.drop 6) = true) :
    splitLast? " limit".toList limit = some ([], limit) := by
  have hnone : splitLast? " limit".toList (limit.drop 6) = none := by
    apply splitLast?_eq_none _ _ 'l' (by decide)
    exact toLower_ne_of_count _ (blank_or_digit_of_isLimitCount _ hcount).2
  match limit, hstart, hnone with
  | c₀ :: c₁ :: c₂ :: c₃ :: c₄ :: c₅ :: count, hstart, hnone =>
    have hletters := hstart
    simp [startsFolded_cons] at hletters
    obtain ⟨-, h₁, h₂, h₃, h₄, h₅⟩ := hletters
    replace hnone : splitLast? " limit".toList count = none := hnone
    have hrest : splitLast? " limit".toList (c₁ :: c₂ :: c₃ :: c₄ :: c₅ :: count) = none := by
      simp at hnone
      simp [splitLast?, startsFolded_cons, hnone, ← h₁, ← h₂, ← h₃, ← h₄, ← h₅]
    rw [splitLast?, hrest]
    exact if_pos hstart

theorem cutLimit_append_limit (query limit : String) (hquery : query ≠ "")
    (h : IsLimit limit) :
    cutLimit (query ++ limit).toList = (query.toList, limit.toList) := by
  have hsplit := splitLast?_append _ query.toList _ _ _ (splitLast?_limit _ h.1 h.2)
  have hne : query.toList.isEmpty = false := by simpa using hquery
  rw [cutLimit, String.toList_append, hsplit]
  simp only [List.append_nil, hne, h.2]
  rfl

end Limits

namespace Base

variable (base : Base)

theorem head_ne_nil : base.head ≠ "" := by
  intro h
  have hfrom := base.from_head
  rw [h] at hfrom
  cases hfrom

theorem cutLimit_text : cutLimit base.text.toList =
    ((body base.head base.clause).toList, base.limit.toList) := by
  have hne : body base.head base.clause ≠ "" := by
    have hhead := base.head_ne_nil
    cases h : base.clause with
    | none => exact hhead
    | some c => simp [body, hhead]
  rcases base.isLimit with hnone | hlimit
  · rw [text, hnone, String.append_empty, cutLimit_of_not_hasWord _ base.not_limit]
    rfl
  · exact cutLimit_append_limit _ _ hne hlimit

theorem withoutLimit_text : withoutLimit base.text = body base.head base.clause := by
  rw [withoutLimit, cutLimit_text]
  exact String.ofList_toList

theorem limitClause_text : limitClause base.text = base.limit := by
  rw [limitClause, cutLimit_text]
  exact String.ofList_toList

end Base

theorem hasClause_where (head keyword condition : String)
    (h : sameFolded keyword " where " = true) :
    hasClause "where" (head ++ keyword ++ condition) = true := by
  have hkeyword : startsFolded " where ".toList keyword.toList = true := by
    rw [startsFolded_iff, beq_iff_eq.1 h]
    exact List.prefix_refl _
  have hquery : (head ++ keyword ++ condition).toList =
      head.toList ++ (keyword.toList ++ condition.toList) := by
    simp
  rw [hasClause, hquery]
  exact occurs_of_startsFolded _ _ _ (startsFolded_append _ _ _ hkeyword)

theorem hasClause_where_of_not_hasWord (head : String) (h : ¬ HasWord "where".toList head) :
    hasClause "where" head = false := by
  rw [hasClause, occurs]
  cases hsplit : splitFirst? (" " ++ "where" ++ " ").toList head.toList with
  | none => rfl
  | some parts =>
    exfalso
    apply h
    rw [HasWord, ← append_of_splitFirst? _ _ _ _ hsplit]
    exact mem_words_of_startsFolded "where".toList parts.1 parts.2 ' ' (by decide) (by decide)
      (startsFolded_of_splitFirst? _ _ _ _ hsplit)

/-- What adding a condition gives, where it can be added. -/
theorem addPredicate_eq (query condition q : String) (hcondition : trimmed condition ≠ "")
    (h : addPredicate query condition = .ok q) :
    q = if hasClause "where" query = true then query ++ " and (" ++ trimmed condition ++ ")"
      else query ++ " where " ++ trimmed condition := by
  have hne : ¬ (trimmed condition).isEmpty = true := by
    rw [String.isEmpty_iff]
    exact hcondition
  simp only [addPredicate, if_neg hne] at h
  split at h
  · cases h
  · split at h
    · cases h
    · split at h
      · rename_i hwhere
        rw [if_pos hwhere]
        exact (Except.ok.inj h).symm
      · rename_i hwhere
        rw [if_neg hwhere]
        exact (Except.ok.inj h).symm

end Query

namespace Condition

theorem lex_trimmed (text : String) : lex (trimmed text).toList = lex text.toList := by
  rw [trimmed, String.toList_ofList, lex_trim]

theorem Reads.trimmed_ne {text : String} {c : Condition} (h : Reads text c) :
    trimmed text ≠ "" := by
  intro hempty
  have hlex := lex_trimmed text
  rw [hempty, h] at hlex
  have hread := read_lexemes c
  rw [← Option.some.inj hlex] at hread
  cases hread

/-- A condition that is added in parentheses is read as a factor behind the last `or`. -/
theorem Reads.restrict {text added : String} {c d : Condition} (hc : Reads text c)
    (hd : Reads added d) :
    Reads (text ++ " and (" ++ trimmed added ++ ")") (c.restrict (.group d)) := by
  have htext : (text ++ " and (" ++ trimmed added ++ ")").toList =
      text.toList ++ ' ' :: ("and".toList ++ ' ' :: '(' :: ((trimmed added).toList ++ [')'])) := by
    simp
  have hadded : lex ((trimmed added).toList ++ [')']) = some (d.lexemes ++ [.closing]) :=
    lex_append_closing ((lex_trimmed added).trans hd)
  have hand : lex "and".toList = some [.and] := by decide
  rw [Reads, htext, lex_append_blank hc ' ' (by decide), lex_append_blank hand ' ' (by decide),
    lex_opening, hadded, lexemes_restrict]
  simp [Factor.lexemes]

end Condition

namespace Query

theorem addPredicates_restrict (head keyword : String)
    (hkeyword : sameFolded keyword " where " = true) (predicates : List String)
    (conditions : List Condition) (hread : List.Forall₂ Condition.Reads predicates conditions)
    (text : String) (c : Condition) (hc : c.Reads text) (q : String)
    (h : addPredicates (head ++ keyword ++ text) predicates = .ok q) :
    ∃ all, q = head ++ keyword ++ all ∧ (c.restrictAll conditions).Reads all := by
  induction hread generalizing text c with
  | nil => exact ⟨text, (Except.ok.inj h).symm, hc⟩
  | @cons predicate d predicates conditions hd hread ih =>
    rw [addPredicates_cons] at h
    cases hadd : addPredicate (head ++ keyword ++ text) predicate with
    | error e =>
      rw [hadd] at h
      cases h
    | ok q' =>
      rw [hadd] at h
      have hq' := addPredicate_eq _ _ _ hd.trimmed_ne hadd
      rw [if_pos (hasClause_where head keyword text hkeyword)] at hq'
      have hassoc : q' = head ++ keyword ++ (text ++ " and (" ++ trimmed predicate ++ ")") := by
        rw [hq']
        simp only [String.append_assoc]
      rw [hassoc] at h
      exact ih (text ++ " and (" ++ trimmed predicate ++ ")") (c.restrict (.group d))
        (hc.restrict hd) h

/-- A query is composed by adding all conditions before its limit. -/
theorem compose_eq (base : String) (predicates : List String) (marker : Option String) :
    compose base predicates marker =
      (addPredicates (withoutLimit base)
        (predicates ++ marker.toList.map markerCondition)).map (· ++ limitClause base) := by
  unfold compose
  split
  · rename_i hnone
    simp only [Bool.and_eq_true, List.isEmpty_iff, Option.isNone_iff_eq_none] at hnone
    obtain ⟨rfl, rfl⟩ := hnone
    exact congrArg Except.ok (withoutLimit_append_limitClause base).symm
  · rw [addPredicates_append]
    cases addPredicates (withoutLimit base) predicates with
    | error e => rfl
    | ok query =>
      cases marker with
      | none => rfl
      | some marker =>
        simp only [Option.toList_some, List.map_cons, List.map_nil]
        cases hadd : addPredicate query (markerCondition marker) with
        | error e => simp [Except.bind, addPredicates_cons, hadd, bind, Except.map]
        | ok query' =>
          simp [Except.bind, addPredicates_cons, hadd, bind, Except.map, pure, Except.pure]

/-- All conditions together, that of the base query coming first, make up the condition of
the query: the first one stands as it is, the others are restrictions of it. -/
theorem addPredicates_body (base : Base) (added : List String) (first : Condition)
    (others : List Condition)
    (hread : List.Forall₂ Condition.Reads (base.condition?.toList ++ added) (first :: others))
    (q : String) (h : addPredicates (body base.head base.clause) added = .ok q) :
    ∃ text, q = base.head ++ base.keyword ++ text ∧ (first.restrictAll others).Reads text := by
  cases hclause : base.clause with
  | none =>
    rw [Base.condition?, hclause] at hread
    rw [Base.keyword, hclause]
    rw [hclause] at h
    cases hread with
    | @cons predicate _ predicates _ hfirst hothers =>
      rw [addPredicates_cons] at h
      cases hadd : addPredicate (body base.head none) predicate with
      | error e =>
        rw [hadd] at h
        cases h
      | ok q' =>
        rw [hadd] at h
        have hq' := addPredicate_eq _ _ _ hfirst.trimmed_ne hadd
        have hnone : ¬ hasClause "where" (body base.head none) = true := by
          rw [Bool.not_eq_true]
          exact hasClause_where_of_not_hasWord base.head base.not_where
        rw [if_neg hnone] at hq'
        rw [hq'] at h
        exact addPredicates_restrict base.head " where " (by decide) predicates others hothers
          (trimmed predicate) first ((Condition.lex_trimmed predicate).trans hfirst) q h
  | some clause =>
    rw [Base.condition?, hclause] at hread
    rw [Base.keyword, hclause]
    rw [hclause] at h
    cases hread with
    | cons hfirst hothers =>
      exact addPredicates_restrict base.head clause.keyword clause.folded added others hothers
        clause.condition first hfirst q h

/-- The condition of a composed query. The first condition stands as it is, and behind its last
`or` all others restrict it. So the query selects the rows of which all conditions are true, save
for those of which the part before that `or` is true and one of the others is not. -/
theorem compose_restricts (base : Base) (predicates : List String) (marker : Option String)
    (conditions : List Condition)
    (hread : List.Forall₂ Condition.Reads
      (base.condition?.toList ++ (predicates ++ marker.toList.map markerCondition)) conditions)
    (q : String) (h : compose base.text predicates marker = .ok q) :
    match conditions with
    | [] => q = base.text
    | first :: others => ∃ text c, q = base.head ++ base.keyword ++ text ++ base.limit ∧
        Condition.Reads text c ∧ ∀ row,
          (c.holds row ↔ (∃ b ∈ first.before, b.holds row) ∨
            (first.last.holds row ∧ ∀ d ∈ others, d.holds row)) ∧
          ((c.holds row ↔ ∀ d ∈ first :: others, d.holds row) ↔
            ((∃ b ∈ first.before, b.holds row) → ∀ d ∈ others, d.holds row)) := by
  rw [compose_eq, base.withoutLimit_text, base.limitClause_text] at h
  obtain ⟨q', hadded, rfl⟩ : ∃ q', addPredicates (body base.head base.clause)
      (predicates ++ marker.toList.map markerCondition) = .ok q' ∧ q' ++ base.limit = q := by
    cases hadd : addPredicates (body base.head base.clause)
        (predicates ++ marker.toList.map markerCondition) with
    | error e =>
      rw [hadd] at h
      cases h
    | ok q' =>
      rw [hadd] at h
      exact ⟨q', rfl, Except.ok.inj h⟩
  cases conditions with
  | nil =>
    have hnone := List.forall₂_nil_right_iff.1 hread
    rw [List.append_eq_nil_iff] at hnone
    rw [hnone.2] at hadded
    rw [← Except.ok.inj hadded]
    rfl
  | cons first others =>
    obtain ⟨text, rfl, hreads⟩ := addPredicates_body base _ first others hread q' hadded
    refine ⟨text, _, rfl, hreads, fun row => ⟨first.holds_restrictAll row others, ?_⟩⟩
    exact first.holds_restrictAll_iff_forall row others

def Base.twoTypes : Base where
  head := "SELECT Id FROM Account"
  clause := some ⟨" WHERE ", "Type = 'A' or Type = 'B'", by decide⟩
  limit := " limit 10"
  from_head := by decide
  not_where := by decide
  not_limit := by decide
  isLimit := .inr ⟨by decide, by decide⟩

/-- The two types and an amount. -/
theorem compose_restricts_twoTypes :
    List.Forall₂ Condition.Reads ["Type = 'A' or Type = 'B'", "Amount > 1"]
      [.or (.one (.ofWords "Type" ["=", "'A'"])) (.ofWords "Type" ["=", "'B'"]),
        .one (.ofWords "Amount" [">", "1"])] ∧
    compose Base.twoTypes.text ["Amount > 1"] none =
      .ok "SELECT Id FROM Account WHERE Type = 'A' or Type = 'B' and (Amount > 1) limit 10" ∧
    ∃ text c, "SELECT Id FROM Account WHERE Type = 'A' or Type = 'B' and (Amount > 1) limit 10" =
        "SELECT Id FROM Account" ++ " WHERE " ++ text ++ " limit 10" ∧
      Condition.Reads text c ∧ ∀ row, c.holds row ↔
        (Condition.one (.ofWords "Type" ["=", "'A'"])).holds row ∨
          (Conjunction.ofWords "Type" ["=", "'B'"]).holds row ∧
            (Condition.one (.ofWords "Amount" [">", "1"])).holds row := by
  have hread : List.Forall₂ Condition.Reads ["Type = 'A' or Type = 'B'", "Amount > 1"]
      [.or (.one (.ofWords "Type" ["=", "'A'"])) (.ofWords "Type" ["=", "'B'"]),
        .one (.ofWords "Amount" [">", "1"])] :=
    .cons rfl (.cons rfl .nil)
  have hcompose : compose Base.twoTypes.text ["Amount > 1"] none =
      .ok "SELECT Id FROM Account WHERE Type = 'A' or Type = 'B' and (Amount > 1) limit 10" := by
    decide
  obtain ⟨text, c, hq, hreads, hrow⟩ :=
    compose_restricts Base.twoTypes ["Amount > 1"] none _ hread _ hcompose
  refine ⟨hread, hcompose, text, c, hq, hreads, fun row => ?_⟩
  have hmeaning := (hrow row).1
  simpa [Condition.before, Condition.last] using hmeaning

/-- A row of the first type is selected, although the condition added is not true of it. -/
theorem or_escapes_added_condition :
    ∃ (c : Condition) (row : Atom → Prop),
      compose Base.twoTypes.text ["Amount > 1"] none =
        .ok ("SELECT Id FROM Account WHERE " ++
          "Type = 'A' or Type = 'B' and (Amount > 1)" ++ " limit 10") ∧
      Condition.Reads "Type = 'A' or Type = 'B' and (Amount > 1)" c ∧
      Condition.Reads "Amount > 1" (.one (.ofWords "Amount" [">", "1"])) ∧ c.holds row ∧
      ¬ (Condition.one (.ofWords "Amount" [">", "1"])).holds row := by
  refine ⟨.or (.one (.ofWords "Type" ["=", "'A'"])) (.and (.ofWords "Type" ["=", "'B'"])
    (.group (.one (.ofWords "Amount" [">", "1"])))), fun a => a.first = "Type".toList,
    by decide, rfl, rfl, .inl rfl, ?_⟩
  show "Amount".toList ≠ "Type".toList
  decide

end Query

end Harvest
