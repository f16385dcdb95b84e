import Harvest.Proofs.Disk.Frame
import Harvest.Proofs.Lists
import Harvest.Proofs.Stream.Delivery
import Harvest.Staging.Server
import Mathlib.Data.List.Perm.Basic

/-!
# What is staged in a directory

`Stages` says which texts a directory of a disk holds as pages, plain or compressed, in the
ascending order of their names without the ending. They are found in this order whatever the order
of the directory (`Stages.onDisk_stagedFiles`), each gives all of its text
(`StagedPage.Holds.onDisk_openFile`), and their rows are counted as they are read
(`Stages.onDisk_recordCount`). Where two pages may have one name, `Contains` leaves the order open.
-/

namespace Harvest

open Disk (Memory)

/-- A joined path ends with its second part. -/
theorem Path.exists_join_eq_append (a b : String) : ∃ front, join a b = front ++ b := by
  unfold join
  split
  · exact ⟨"", by simp⟩
  · split
    · exact ⟨"", by simp⟩
    · exact ⟨a, rfl⟩
    · exact ⟨a ++ "/", rfl⟩

namespace Staging

section Endings

theorem endsWith_iff (path ending : String) :
    path.endsWith ending = true ↔ ending.toList <:+ path.toList := by
  rw [String.endsWith_eq_endsWith_toSlice, String.Slice.endsWith_string_iff, String.copy_toSlice]

/-- The ending of the file of a page. -/
def endingOf (compressed : Bool) : String := if compressed then ".csv.gz" else ".csv"

/-- Of the two endings only the one of a compressed page ends so. -/
theorem endsWith_join (a stem : String) (compressed : Bool) :
    (Path.join a (stem ++ endingOf compressed)).endsWith ".gz" = compressed := by
  obtain ⟨front, hjoin⟩ := Path.exists_join_eq_append a (stem ++ endingOf compressed)
  rw [hjoin]
  cases compressed with
  | true =>
    rw [endsWith_iff]
    refine ⟨front.toList ++ stem.toList ++ ".csv".toList, ?_⟩
    simp [endingOf]
  | false =>
    rw [← Bool.not_eq_true, endsWith_iff]
    rintro ⟨s, hs⟩
    have hlast := congrArg List.getLast? hs
    simp [endingOf, List.getLast?_append] at hlast

theorem dropEnding?_append (ending stem : String) :
    dropEnding? ending (stem ++ ending) = some stem := by
  have hsuffix : ending.toList.isSuffixOf (stem ++ ending).toList = true := by
    rw [List.isSuffixOf_iff_suffix, String.toList_append]
    exact List.suffix_append _ _
  simp only [dropEnding?, hsuffix, if_true]
  simp

/-- The name of a page is told from the name of its file. -/
theorem resultOf?_append (stem : String) (compressed : Bool) :
    resultOf? (stem ++ endingOf compressed) = some stem := by
  cases compressed with
  | true =>
    unfold resultOf?
    rw [endingOf, if_pos rfl, dropEnding?_append]
    rfl
  | false =>
    have hother : dropEnding? ".csv.gz" (stem ++ ".csv") = none := by
      have hsuffix : (".csv.gz".toList.isSuffixOf (stem ++ ".csv").toList) = false := by
        rw [← Bool.not_eq_true, List.isSuffixOf_iff_suffix]
        rintro ⟨s, hs⟩
        have hlast := congrArg List.getLast? hs
        simp [List.getLast?_append] at hlast
      simp only [dropEnding?, hsuffix]
      rfl
    unfold resultOf?
    rw [endingOf, if_neg Bool.false_ne_true, hother, dropEnding?_append]
    rfl

end Endings

/-- A page that is staged: the name of its result, whether it is compressed, and its text. -/
structure StagedPage where
  result : String
  compressed : Bool
  content : String
  deriving DecidableEq, Repr

namespace StagedPage

/-- The path of the file of a page. -/
def path (directory : String) (page : StagedPage) : String :=
  Path.join directory (page.result ++ endingOf page.compressed)

/-- The page as it is found: the name of its result and the path of its file. -/
def file (directory : String) (page : StagedPage) : String × String :=
  (page.result, page.path directory)

/-- The records of the page. -/
def records (page : StagedPage) : List Record := Csv.records page.content

/-- The file of the page gives all of its text, once it is expanded if it is compressed. -/
def Holds (m : Memory) (directory : String) (page : StagedPage) : Prop :=
  ∃ bytes, m.find (page.path directory) = .ok (.file bytes) ∧
    (if page.compressed then Gzip.expand ⟨bytes, none⟩ else ⟨bytes, none⟩) = .whole page.content

end StagedPage

/-- A path leads to a file. -/
def isFileOn (m : Memory) (path : String) : Bool :=
  match m.find path with
  | .ok (.file _) => true
  | _ => false

/-- A disk holds just these pages in a directory, in whatever order. -/
structure Contains (m : Memory) (directory : String) (pages : List StagedPage) : Prop where
  files : ∃ place, m.place directory = .ok place ∧ m.content? place = some .directory ∧
    ((m.namesIn place).filter fun name =>
        (resultOf? name).isSome && isFileOn m (Path.join directory name)).Perm
      (pages.map fun page => page.result ++ endingOf page.compressed)
  holds : ∀ page ∈ pages, page.Holds m directory

/-- A disk holds just these pages in a directory, and their order is that of their names. -/
structure Stages (m : Memory) (directory : String) (pages : List StagedPage) : Prop extends
    Contains m directory pages where
  ordered : pages.Pairwise fun a b => a.result < b.result

variable {m : Memory} {directory : String} {pages : List StagedPage}

theorem onDisk_openFile {path : String} {bytes : List UInt8}
    (h : m.find path = .ok (.file bytes)) :
    Program.onDisk (openFile path) m =
      (.ok (if path.endsWith ".gz" then Gzip.expand ⟨bytes, none⟩ else ⟨bytes, none⟩), m) := by
  rw [openFile, Storing.onDisk_bind_ok (Storing.onDisk_read h)]
  rfl

theorem StagedPage.Holds.onDisk_openFile {page : StagedPage} (h : page.Holds m directory) :
    Program.onDisk (openFile (page.path directory)) m = (.ok (.whole page.content), m) := by
  obtain ⟨bytes, hfile, hpage⟩ := h
  rw [Staging.onDisk_openFile hfile, path, endsWith_join, hpage]

theorem onDisk_keepFiles (m : Memory) (directory : String) (names : List String) :
    Program.onDisk (keepFiles directory names) m =
      (.ok (names.filterMap fun name =>
        if isFileOn m (Path.join directory name) then
          (resultOf? name).map fun result => (result, Path.join directory name)
        else none), m) := by
  induction names with
  | nil => rfl
  | cons name rest ih =>
    have hisFile : Program.onDisk (Storing.isFile (Path.join directory name)) m =
        (.ok (isFileOn m (Path.join directory name)), m) := Storing.onDisk_isFile _ m
    rw [keepFiles, Storing.onDisk_bind_ok hisFile, Storing.onDisk_bind_ok ih, List.filterMap_cons]
    cases isFileOn m (Path.join directory name) with
    | false => rfl
    | true => cases resultOf? name <;> rfl

theorem sortFiles_eq {files : List (String × String)} {sorted : List (String × String)}
    (hperm : files.Perm sorted) (hsorted : sorted.Pairwise fun a b => a.1 < b.1) :
    sortFiles files = sorted := by
  have hle : sorted.Pairwise fun a b => decide (a.1 ≤ b.1) = true :=
    hsorted.imp fun h => decide_eq_true (String.not_lt.1 fun h' => absurd h (String.lt_asymm h'))
  have hfiles : (sortFiles files).Pairwise fun a b => decide (a.1 ≤ b.1) = true :=
    Lists.pairwise_mergeSort_by Prod.fst files
  have hall : (sortFiles files).Perm sorted := (List.mergeSort_perm files _).trans hperm
  refine List.Perm.eq_of_pairwise ?_ hfiles hle hall
  -- two files of one result are the same one
  intro a b ha hb hab hba
  have heq : a.1 = b.1 := String.le_antisymm (of_decide_eq_true hab) (of_decide_eq_true hba)
  have hdistinct : (sorted.map Prod.fst).Nodup :=
    List.pairwise_map.2 (hsorted.imp fun h => String.ne_of_lt h)
  exact List.inj_on_of_nodup_map hdistinct (hall.subset ha) hb heq

namespace Contains

theorem perm_files (h : Contains m directory pages) :
    ∃ place, m.place directory = .ok place ∧ m.content? place = some .directory ∧
      ((m.namesIn place).filterMap fun name =>
        if isFileOn m (Path.join directory name) then
          (resultOf? name).map fun result => (result, Path.join directory name)
        else none).Perm (pages.map (·.file directory)) := by
  obtain ⟨place, hplace, hcontent, hperm⟩ := h.files
  refine ⟨place, hplace, hcontent, ?_⟩
  have hkept := hperm.filterMap fun name =>
    if isFileOn m (Path.join directory name) then
      (resultOf? name).map fun result => (result, Path.join directory name)
    else none
  rw [List.filterMap_filter, List.filterMap_map] at hkept
  have hpages : pages.filterMap ((fun name =>
      if isFileOn m (Path.join directory name) then
        (resultOf? name).map fun result => (result, Path.join directory name)
      else none) ∘ fun page => page.result ++ endingOf page.compressed) =
      pages.map (·.file directory) := by
    rw [← List.filterMap_eq_map]
    refine List.filterMap_congr fun page hpage => ?_
    obtain ⟨bytes, hfile, -⟩ := h.holds page hpage
    have hisFile : isFileOn m (page.path directory) = true := by rw [isFileOn, hfile]
    rw [StagedPage.path] at hisFile
    simp only [Function.comp, hisFile, if_true, resultOf?_append]
    rfl
  rw [hpages] at hkept
  refine List.Perm.trans (List.Perm.of_eq ?_) hkept
  refine List.filterMap_congr fun name _ => ?_
  cases hname : resultOf? name with
  | none => simp
  | some result => cases isFileOn m (Path.join directory name) <;> simp

theorem onDisk_entityDirectory {root entity : String}
    (h : Contains m (Path.join root entity) pages) :
    Program.onDisk (entityDirectory root entity) m = (.ok (Path.join root entity), m) := by
  obtain ⟨place, hplace, hcontent, -⟩ := h.files
  have hfind : m.find (Path.join root entity) = .ok .directory := by
    rw [Memory.find, hplace]
    simp [bind, Except.bind, hcontent]
  rw [entityDirectory, Storing.onDisk_bind_ok (Storing.onDisk_isDirectory _ m), hfind]
  rfl

/-- The pages are found in some order. -/
theorem exists_onDisk_stagedFiles (h : Contains m directory pages) :
    ∃ found : List StagedPage, found.Perm pages ∧
      Program.onDisk (stagedFiles directory) m = (.ok (found.map (·.file directory)), m) := by
  obtain ⟨place, hplace, hcontent, hperm⟩ := h.perm_files
  have hsorted := (List.mergeSort_perm _ fun a b => decide (a.1 ≤ b.1)).trans hperm
  obtain ⟨found, hfiles, hfound⟩ :=
    (congrFun₂ (List.eq_map_comp_perm (StagedPage.file directory)) _ pages).mpr hsorted
  refine ⟨found, hfound, ?_⟩
  rw [stagedFiles, Storing.onDisk_bind_ok (Storing.onDisk_list hplace hcontent),
    Storing.onDisk_bind_ok (onDisk_keepFiles m _ _), ← hfiles]
  rfl

end Contains

namespace Stages

/-- The pages are found in their order. -/
theorem onDisk_stagedFiles (h : Stages m directory pages) :
    Program.onDisk (stagedFiles directory) m =
      (.ok (pages.map (·.file directory)), m) := by
  obtain ⟨place, hplace, hcontent, hperm⟩ := h.perm_files
  rw [stagedFiles, Storing.onDisk_bind_ok (Storing.onDisk_list hplace hcontent),
    Storing.onDisk_bind_ok (onDisk_keepFiles m _ _)]
  have hsorted := sortFiles_eq hperm (List.pairwise_map.2 h.ordered)
  rw [hsorted]
  rfl

end Stages

section Counting

theorem onDisk_readFile {α : Type} {path : String} {decode : Feed → Except DecodeFault α}
    {page : Page} {a : α} (h : Program.onDisk (openFile path) m = (.ok page, m))
    (hdecode : decode page.feed = .ok a) :
    Program.onDisk (readFile path decode) m = (.ok a, m) := by
  rw [readFile, Storing.onDisk_bind_ok h, hdecode]
  rfl

theorem forM_rowText (path : String) (rows : List Csv.Row) (h : ∀ row ∈ rows, row.IsText) :
    (rows.forM fun row => (rowText path row).map fun _ => () : Except DecodeFault Unit) =
      .ok () := by
  induction rows with
  | nil => rfl
  | cons row rows ih =>
    obtain ⟨hrow, hrows⟩ := List.forall_mem_cons.1 h
    obtain ⟨fields, hfields⟩ := hrow.exists_text
    rw [List.forM, rowText, hfields]
    exact ih hrows

theorem length_records (content : String) :
    (Csv.records content).length = (Csv.rows (Utf8.encodeString content)).length - 1 := by
  have hlength := congrArg List.length (Csv.map_text_rows content)
  rw [List.length_map, List.length_map] at hlength
  simp [Csv.records, Csv.data, hlength]

/-- The rows of a text are counted as they are read. -/
theorem countRows_whole (path content : String) :
    countRows path (Page.whole content).feed = .ok (Csv.records content).length := by
  have htext : ∀ row ∈ Csv.rows (Utf8.encodeString content), row.IsText :=
    fun row hrow => Csv.isText_of_mem_rows content.toList row hrow
  have hfeed : (Page.whole content).feed = ⟨Csv.rows (Utf8.encodeString content), none⟩ := rfl
  rw [hfeed, length_records]
  unfold countRows
  match hrows : Csv.rows (Utf8.encodeString content) with
  | [] => rfl
  | [_] => rfl
  | _ :: row :: rows =>
    rw [hrows] at htext
    obtain ⟨-, hrow, hothers⟩ := List.forall_mem_cons.1 htext |>.imp_right List.forall_mem_cons.1
    obtain ⟨fields, hfields⟩ := Csv.exists_decodeFields .start 0 row.fields hrow
    have hstart : row.textAt .start = .ok fields := hfields
    dsimp only
    rw [hstart, forM_rowText path rows hothers]
    rfl

end Counting

/-- Where each file takes what was added up a step further, all of them are taken in their order. -/
theorem onDisk_foldFiles {α : Type} {directory : String} {step : α → String → Storing α}
    {next : α → StagedPage → α} (pages : List StagedPage)
    (hstep : ∀ page ∈ pages, ∀ x, Program.onDisk (step x (page.path directory)) m =
      (.ok (next x page), m)) (x : α) :
    Program.onDisk (foldFiles step x (pages.map (·.file directory))) m =
      (.ok (pages.foldl next x), m) := by
  induction pages generalizing x with
  | nil => rfl
  | cons page pages ih =>
    obtain ⟨hpage, hpages⟩ := List.forall_mem_cons.1 hstep
    rw [List.map_cons, StagedPage.file, foldFiles, Storing.onDisk_bind_ok (hpage x), ih hpages,
      List.foldl_cons]

theorem onDisk_queriedEntity {query entity : String} (h : Query.entity query = .ok entity) :
    Program.onDisk (queriedEntity query) m = (.ok entity, m) := by
  rw [queriedEntity, h]
  rfl

namespace Stages

variable {root entity : String}

theorem onDisk_entityFiles (h : Stages m (Path.join root entity) pages) :
    Program.onDisk (entityFiles root entity) m =
      (.ok (pages.map (·.file (Path.join root entity))), m) := by
  rw [entityFiles, Storing.onDisk_bind_ok h.onDisk_entityDirectory]
  exact h.onDisk_stagedFiles

/-- The records of a query are those of all pages of its entity. -/
theorem onDisk_recordCount (h : Stages m (Path.join root entity) pages) {query : String}
    (hquery : Query.entity query = .ok entity) :
    Program.onDisk (recordCount root query) m =
      (.ok (pages.flatMap StagedPage.records).length, m) := by
  have hstep : ∀ page ∈ pages, ∀ n, Program.onDisk (do
      let m ← readFile (page.path (Path.join root entity))
        (countRows (page.path (Path.join root entity)))
      pure (n + m) : Storing Nat) m = (.ok (n + page.records.length), m) := by
    intro page hpage n
    rw [Storing.onDisk_bind_ok (onDisk_readFile (h.holds page hpage).onDisk_openFile
      (countRows_whole _ page.content))]
    rfl
  rw [recordCount, Storing.onDisk_bind_ok (onDisk_queriedEntity hquery),
    Storing.onDisk_bind_ok h.onDisk_entityFiles, onDisk_foldFiles pages hstep 0,
    List.length_flatMap, List.sum_eq_foldl, List.foldl_map]

end Stages

end Staging

end Harvest
