import Harvest.Configuration.Basic
import Harvest.Proofs.Query.Agreement

/-!
# The entity that a query is resolved to

A service that is given no more than the text of a query takes the first word behind the first
`from` for the entity. All queries that are made for an entity from its columns begin with a
selection, and no keyword can begin before the `FROM` of the selection
(`Query.entity_selection_append`), so they are resolved to that entity, whatever the conditions
behind it say (`Query.entity_of_composed`).
-/

namespace Harvest

open Text

/-- The columns that are selected for an entity without a query of its own. -/
def EntityOptions.selected (e : EntityOptions) : String :=
  match e.columns with
  | some (c :: cs) => ", ".intercalate (c :: cs)
  | _ => "Id"

namespace Query

theorem baseQuery_eq {e : EntityOptions} (h : e.query = none) :
    e.baseQuery = selection e.selected e.name := by
  unfold EntityOptions.baseQuery EntityOptions.selected selection
  rw [h]
  rcases e.columns with _ | _ | ⟨c, cs⟩ <;> rfl

section Columns

/-- A name with a comma behind it is one word, and no keyword. -/
theorem words_comma {name rest : String} (h : IsName name) :
    words ((name ++ ", " ++ rest).toList.map Char.toLower) =
      (name.toList.map Char.toLower ++ [',']) :: words (rest.toList.map Char.toLower) := by
  have htext : (name ++ ", " ++ rest).toList.map Char.toLower =
      (name.toList.map Char.toLower ++ [',']) ++ ' ' :: rest.toList.map Char.toLower := by
    simp only [String.toList_append, List.map_append, List.append_assoc]
    rfl
  rw [htext, words_append_cons]
  refine List.forall_mem_append.2 ⟨fun c hc => ?_, List.forall_mem_singleton.2 (by decide)⟩
  obtain ⟨d, hd, rfl⟩ := List.mem_map.1 hc
  rw [isBlank_toLower, h.unbroken d hd]

/-- Names in a list can be selected. -/
theorem selectable_intercalate {name : String} {names : List String}
    (h : ∀ n ∈ name :: names, IsName n) : Selectable (", ".intercalate (name :: names)) := by
  induction names generalizing name with
  | nil =>
    rw [String.intercalate_singleton]
    exact (h name List.mem_cons_self).selectable
  | cons second names ih =>
    obtain ⟨hname, hnames⟩ := List.forall_mem_cons.1 h
    intro keyword hkeyword hword
    rw [HasWord, String.intercalate_cons_cons, words_comma hname, List.mem_cons] at hword
    rcases hword with hfirst | hothers
    · have hcomma : ',' ∈ keyword.toList := by
        rw [hfirst]
        simp
      simp only [List.mem_cons, List.not_mem_nil, or_false] at hkeyword
      rcases hkeyword with rfl | rfl | rfl | rfl | rfl <;> exact absurd hcomma (by decide)
    · exact ih hnames keyword hkeyword hothers

theorem selectable_selected {e : EntityOptions}
    (h : ∀ columns ∈ e.columns, ∀ c ∈ columns, IsName c) : Selectable e.selected := by
  have hid : IsName "Id" := ⟨by decide, unbroken_of_all rfl, by decide⟩
  unfold EntityOptions.selected
  split
  · rename_i c cs hcolumns
    exact selectable_intercalate (h (c :: cs) hcolumns)
  · exact hid.selectable

end Columns

section Resolving

variable {selected entity rest : String} (hselected : Selectable selected)
  (hentity : IsName entity) (hrest : rest.toList = [] ∨ ∃ tail, rest.toList = ' ' :: tail)

include hentity hrest in
theorem firstWord?_name : firstWord? (entity.toList ++ rest.toList) = some entity.toList := by
  obtain ⟨c, name, hname⟩ := List.exists_cons_of_ne_nil
    (by simpa using hentity.ne_empty : entity.toList ≠ [])
  have hunbroken : ∀ d ∈ entity.toList, (!isBlank d) = true := by
    intro d hd
    rw [hentity.unbroken d hd]
    rfl
  have hstart : trimStart (entity.toList ++ rest.toList) = entity.toList ++ rest.toList := by
    rw [hname, List.cons_append, trimStart_cons, hentity.unbroken c (by simp [hname])]
    rfl
  have hword : (entity.toList ++ rest.toList).takeWhile (fun c => !isBlank c) = entity.toList := by
    rw [List.takeWhile_append_of_pos hunbroken]
    rcases hrest with hnil | ⟨tail, htail⟩
    · rw [hnil, List.takeWhile_nil, List.append_nil]
    · rw [htail, List.takeWhile_cons_of_neg (by decide), List.append_nil]
  rw [firstWord?, hstart, hword, hname]

include hselected hentity hrest in
/-- A query that begins with a selection is resolved to the entity of the selection. -/
theorem entity_selection_append :
    Query.entity (selection selected entity ++ rest) = .ok entity := by
  have hfrom : "from".toList ∉ words (("SELECT " ++ selected).toList.map Char.toLower) := by
    have htext : ("SELECT " ++ selected).toList.map Char.toLower =
        "select".toList ++ ' ' :: selected.toList.map Char.toLower := by
      rw [String.toList_append, List.map_append]
      rfl
    rw [htext, words_append_cons _ _ (unbroken_of_all rfl), List.mem_cons, not_or]
    exact ⟨by decide, hselected "from" (by decide)⟩
  have htext : (selection selected entity ++ rest).toList =
      ("SELECT " ++ selected).toList ++
        ' ' :: ("FROM ".toList ++ (entity.toList ++ rest.toList)) := by
    simp [selection]
  have hhere : startsFolded (' ' :: ("from".toList ++ [' ']))
      (' ' :: ("FROM ".toList ++ (entity.toList ++ rest.toList))) = true :=
    startsFolded_append _ " FROM ".toList _ (by decide)
  have hcut : splitFirst? " from ".toList (selection selected entity ++ rest).toList =
      some (("SELECT " ++ selected).toList,
        " FROM ".toList ++ (entity.toList ++ rest.toList)) := by
    have hseam (u : List Char) (hu : u ≠ []) (hsuffix : u <:+ ("SELECT " ++ selected).toList) :
        startsFolded (' ' :: ("from".toList ++ [' ']))
          (u ++ ' ' :: ("FROM ".toList ++ (entity.toList ++ rest.toList))) = false :=
      startsFolded_seam (unbroken_of_all rfl) hfrom (.inr ⟨_, rfl⟩) hu hsuffix
    rw [htext]
    refine (splitFirst?_append hseam).trans ?_
    rw [splitFirst?, if_pos hhere]
    simp
  rw [Query.entity, hcut]
  dsimp only
  rw [List.drop_left' (by rfl), firstWord?_name hentity hrest]
  exact congrArg Except.ok String.ofList_toList

include hselected hentity in
/-- Conditions that are added to a selection do not change its entity. -/
theorem entity_of_addPredicates {predicates : List String} {q : String}
    (h : addPredicates (selection selected entity) predicates = .ok q)
    (hrest : rest.toList = [] ∨ ∃ tail, rest.toList = ' ' :: tail) :
    Query.entity (q ++ rest) = .ok entity := by
  obtain ⟨-, rfl⟩ := (addPredicates_eq_ok_iff _ _ _).1 h
  rw [String.append_assoc]
  refine entity_selection_append hselected hentity ?_
  rw [String.toList_append]
  rcases rendering_toList (selection selected entity) (nonBlank predicates) with
    hnil | ⟨tail, htail⟩
  · rwa [hnil, List.nil_append]
  · exact .inr ⟨tail ++ rest.toList, by rw [htail, List.cons_append]⟩

end Resolving

/-- A selection has no limit and no `where` clause. -/
theorem parts_selection {selected entity : String} (hselected : Selectable selected)
    (hentity : IsName entity) :
    withoutLimit (selection selected entity) = selection selected entity ∧
      limitClause (selection selected entity) = "" ∧
      wherePart (selection selected entity) = "" := by
  have hwhere := hasClause_where_of_not_hasWord _ (not_hasWord_selection hselected hentity
    (by decide : "where" ∈ ["where", "by", "having", "limit"]))
  refine ⟨withoutLimit_selection hselected hentity, ?_, ?_⟩
  · rw [limitClause, cutLimit_of_not_hasWord _ (not_hasWord_selection hselected hentity
      (by decide : "limit" ∈ ["where", "by", "having", "limit"]))]
  · have hnone : splitFirst? " where ".toList (selection selected entity).toList = none :=
      Option.isSome_eq_false_iff.1 hwhere |> Option.isNone_iff_eq_none.1
    rw [wherePart, hnone]

/-- Whatever is asked for an entity in a query of its columns, the query is resolved to this entity:
the query that extracts it or its deleted rows, the one that counts it, and the one for the largest
value of a column. What the conditions say does not matter. -/
theorem entity_of_composed (e : EntityOptions) (hquery : e.query = none) (hname : IsName e.name)
    (hcolumns : ∀ columns ∈ e.columns, ∀ c ∈ columns, IsName c) (column : String)
    (hcolumn : IsName column) (predicates : List String) (marker : Option String) (q : String)
    (h : compose e.baseQuery predicates marker = .ok q ∨
      count e.name e.baseQuery predicates = .ok q ∨
      watermark e.name e.baseQuery column predicates = .ok q) :
    Query.entity q = .ok e.name := by
  have hselected := selectable_selected hcolumns
  obtain ⟨hkept, hlimit, hwhere⟩ := parts_selection hselected hname
  rw [baseQuery_eq hquery] at h
  rcases h with h | h | h
  · rw [compose_eq, map_eq_ok_iff] at h
    obtain ⟨q', hadded, rfl⟩ := h
    rw [hkept] at hadded
    rw [hlimit]
    exact entity_of_addPredicates hselected hname hadded (.inl rfl)
  · have hnumber : IsName "COUNT()" := ⟨by decide, unbroken_of_all rfl, by decide⟩
    rw [count, hwhere, String.append_empty] at h
    have hadded : addPredicates (withoutLimit (selection "COUNT()" e.name)) predicates = .ok q := h
    rw [withoutLimit_selection hnumber.selectable hname] at hadded
    rw [← String.append_empty (s := q)]
    exact entity_of_addPredicates hnumber.selectable hname hadded (.inl rfl)
  · rw [watermark_eq, hwhere, String.append_empty, map_eq_ok_iff] at h
    obtain ⟨q', hadded, rfl⟩ := h
    rw [withoutLimit_selection hcolumn.selectable hname] at hadded
    have horder : (" ORDER BY " ++ column ++ " desc LIMIT 1").toList =
        ' ' :: ("ORDER BY " ++ column ++ " desc LIMIT 1").toList := by
      simp
    have hresolved := entity_of_addPredicates hcolumn.selectable hname hadded (.inr ⟨_, horder⟩)
    rwa [← String.append_assoc, ← String.append_assoc] at hresolved

/-- An entity with columns that look like a clause, and a condition that names another entity. -/
def leads : EntityOptions where
  name := "Lead"
  columns := some ["from,", "Limit5", "where,from"]

/-- The entity of a condition is not taken for that of the query. -/
theorem entity_of_composed_leads :
    IsName "Lead" ∧ IsName "Stamp" ∧ (∀ columns ∈ leads.columns, ∀ c ∈ columns, IsName c) ∧
      compose leads.baseQuery ["Id in (select Id from Account where x = 1)"] (some "IsDeleted") =
        .ok ("SELECT from,, Limit5, where,from FROM Lead " ++
          "where Id in (select Id from Account where x = 1) and (IsDeleted = true)") ∧
      Query.entity ("SELECT from,, Limit5, where,from FROM Lead " ++
        "where Id in (select Id from Account where x = 1) and (IsDeleted = true)") = .ok "Lead" ∧
      watermark "Lead" leads.baseQuery "Stamp" ["Id in (select Id from Account where x = 1)"] =
        .ok ("SELECT Stamp FROM Lead where Id in (select Id from Account where x = 1)" ++
          " and (Stamp != null) ORDER BY Stamp desc LIMIT 1") ∧
      Query.entity ("SELECT Stamp FROM Lead where Id in (select Id from Account where x = 1)" ++
        " and (Stamp != null) ORDER BY Stamp desc LIMIT 1") = .ok "Lead" := by
  have hname : IsName "Lead" := ⟨by decide, unbroken_of_all rfl, by decide⟩
  have hcolumn : IsName "Stamp" := ⟨by decide, unbroken_of_all rfl, by decide⟩
  have hcolumns : ∀ columns ∈ leads.columns, ∀ c ∈ columns, IsName c := by
    rintro _ ⟨⟩
    refine List.forall_mem_cons.2 ⟨?_, List.forall_mem_cons.2 ⟨?_, List.forall_mem_singleton.2 ?_⟩⟩
    all_goals exact ⟨by decide, unbroken_of_all rfl, by decide⟩
  have hdeleted : compose leads.baseQuery ["Id in (select Id from Account where x = 1)"]
      (some "IsDeleted") = .ok ("SELECT from,, Limit5, where,from FROM Lead " ++
        "where Id in (select Id from Account where x = 1) and (IsDeleted = true)") := by
    decide +kernel
  have hlargest : watermark "Lead" leads.baseQuery "Stamp"
      ["Id in (select Id from Account where x = 1)"] =
        .ok ("SELECT Stamp FROM Lead where Id in (select Id from Account where x = 1)" ++
          " and (Stamp != null) ORDER BY Stamp desc LIMIT 1") := by
    decide +kernel
  exact ⟨hname, hcolumn, hcolumns, hdeleted,
    entity_of_composed leads rfl hname hcolumns "Stamp" hcolumn _ (some "IsDeleted") _
      (.inl hdeleted), hlargest,
    entity_of_composed leads rfl hname hcolumns "Stamp" hcolumn _ none _ (.inr (.inr hlargest))⟩

end Query

end Harvest
