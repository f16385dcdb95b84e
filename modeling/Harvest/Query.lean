import Harvest.Text.Blank
import Harvest.Text.Folded

/-!
# Query texts

A query is composed from a base query, a list of conditions and, for the rows
that were logically deleted, a forced marker. Conditions are joined with `and`;
a limit at the end of the base query stays at the very end. The queries for a
record count and for the largest watermark take the base query's `where` clause
over and drop its limit.
-/

namespace Harvest

open Harvest.Text

/-- Why a query cannot be built, or names no entity. -/
inductive QueryFault
  /-- No `from` clause that a condition could follow. -/
  | missingFrom (query : String)
  /-- A clause that no condition may follow. -/
  | closed (keyword query : String)
  /-- Nothing after `from`. -/
  | missingEntity (query : String)
  /-- A bound that is no watermark of its kind. -/
  | watermark (reason : String)
  /-- A service refuses the query. -/
  | reported (message : String)
  deriving DecidableEq, Repr

/-- The text of a fault. -/
def QueryFault.message : QueryFault → String
  | .missingFrom query => "query does not contain 'from': " ++ query
  | .closed keyword query => "cannot add a predicate after '" ++ keyword ++ "': " ++ query
  | .missingEntity query => "query has no entity: " ++ query
  | .watermark reason => reason
  | .reported message => message

namespace Query

/-- What follows the keyword of a limit: blanks, then digits, then blanks. -/
def isLimitCount : List Char → Bool
  | [] => false
  | c :: s => isBlank c && !(trim (c :: s)).isEmpty && (trim (c :: s)).all Char.isDigit

/-- Cuts a query before the limit at its end. A column such as `LimitAmount` is no limit,
nor is one that nothing stands before. -/
def cutLimit (query : List Char) : List Char × List Char :=
  match splitLast? " limit".toList query with
  | some (before, rest) =>
    if !before.isEmpty && isLimitCount (rest.drop " limit".length) then (before, rest)
    else (query, [])
  | none => (query, [])

/-- The limit at the end of a query, or the empty text. -/
def limitClause (query : String) : String := String.ofList (cutLimit query.toList).2

/-- A query without the limit at its end. -/
def withoutLimit (query : String) : String := String.ofList (cutLimit query.toList).1

/-- The query from its first `where` on, or the empty text. -/
def wherePart (query : String) : String :=
  match splitFirst? " where ".toList query.toList with
  | some (before, rest) => if before.isEmpty then "" else String.ofList rest
  | none => ""

/-- The keyword, set in blanks, occurs in the query. -/
def hasClause (keyword : String) (query : String) : Bool :=
  occurs (" " ++ keyword ++ " ").toList query.toList

/-- The clauses that no condition may follow. -/
def closingKeywords : List String := ["by", "having", "limit"]

/-- Adds a condition: the first one opens a `where` clause, a later one is joined to it
in parentheses. A blank condition changes nothing. -/
def addPredicate (query condition : String) : Except QueryFault String :=
  let condition := trimmed condition
  if condition.isEmpty then .ok query
  else if !hasClause "from" query then .error (.missingFrom query)
  else match closingKeywords.find? (hasClause · query) with
    | some keyword => .error (.closed keyword query)
    | none =>
      if hasClause "where" query then .ok (query ++ " and (" ++ condition ++ ")")
      else .ok (query ++ " where " ++ condition)

/-- Adds conditions one after the other. -/
def addPredicates (query : String) : List String → Except QueryFault String
  | [] => .ok query
  | condition :: rest => do addPredicates (← addPredicate query condition) rest

/-- The condition that restricts a query to marked rows. -/
def markerCondition (marker : String) : String := marker ++ " = true"

/-- Composes the extraction query; with a marker it selects the marked rows only. -/
def compose (base : String) (predicates : List String) (marker : Option String) :
    Except QueryFault String :=
  if predicates.isEmpty && marker.isNone then .ok base
  else do
    let query ← addPredicates (withoutLimit base) predicates
    let query ← match marker with
      | some marker => addPredicate query (markerCondition marker)
      | none => .ok query
    return query ++ limitClause base

/-- Composes the query that counts the records of the base query. -/
def count (entity base : String) (predicates : List String) : Except QueryFault String :=
  addPredicates (withoutLimit ("SELECT COUNT() FROM " ++ entity ++ wherePart base)) predicates

/-- Composes the query for the largest value of the watermark column. -/
def watermark (entity base column : String) (predicates : List String) :
    Except QueryFault String := do
  let query := withoutLimit ("SELECT " ++ column ++ " FROM " ++ entity ++ wherePart base)
  let query ← addPredicates query predicates
  let query ← addPredicate query (column ++ " != null")
  return query ++ " ORDER BY " ++ column ++ " desc LIMIT 1"

/-- The entity that a query selects from: the first word after its first `from`. -/
def entity (query : String) : Except QueryFault String :=
  match splitFirst? " from ".toList query.toList with
  | none => .error (.missingFrom query)
  | some (_, rest) =>
    match firstWord? (rest.drop " from ".length) with
    | some word => .ok (String.ofList word)
    | none => .error (.missingEntity query)

theorem append_cutLimit (query : List Char) :
    (cutLimit query).1 ++ (cutLimit query).2 = query := by
  unfold cutLimit
  split
  · rename_i before rest h
    split
    · exact append_of_splitLast? _ _ _ _ h
    · simp
  · simp

/-- A query is its part without limit, followed by its limit. -/
theorem withoutLimit_append_limitClause (query : String) :
    withoutLimit query ++ limitClause query = query := by
  rw [← String.toList_inj]
  simp [withoutLimit, limitClause, append_cutLimit]

@[simp] theorem addPredicates_nil (query : String) : addPredicates query [] = .ok query := rfl

theorem addPredicates_cons (query condition : String) (rest : List String) :
    addPredicates query (condition :: rest) =
      (addPredicate query condition).bind fun q => addPredicates q rest := rfl

/-- Conditions of an appended list are added one list after the other. -/
theorem addPredicates_append (query : String) (xs ys : List String) :
    addPredicates query (xs ++ ys) =
      (addPredicates query xs).bind fun q => addPredicates q ys := by
  induction xs generalizing query with
  | nil => rfl
  | cons x xs ih =>
    rw [List.cons_append, addPredicates_cons, addPredicates_cons]
    cases addPredicate query x with
    | error e => rfl
    | ok q => exact ih q

@[simp] theorem compose_nil_none (base : String) : compose base [] none = .ok base := rfl

end Query

end Harvest
