import Harvest.Extraction
import Harvest.Proofs.Local.Chunking
import Harvest.Proofs.Watermark.Reading
import Mathlib.Order.Bounds.Basic

/-!
# The high watermark of what is staged

A machine looks the values of a column up in all pages of an entity, takes the one that is the
greatest as a text, and reads its number (`Local.watermark_of_greatest_text`). This is the greatest
number if the values are written so that the order of their texts is that of their numbers: moments
and dates whose year has four digits and whose fields have their full width, or plain numbers of
digits of one width (`Watermark.Aligned`). Otherwise it need not be, as `9` is behind `10` as a text
(`Local.greatest_text_not_greatest`).
-/

namespace Harvest

open Text Calendar Staging
open Program (play)

namespace Watermark

/-- The values are written so that the order of their texts is that of their numbers: numbers by
digits of one width, and moments and dates by fields of full width. -/
def Aligned (kind : WatermarkKind) (values : List String) : Prop :=
  match kind with
  | .simple => ∃ w, ∀ value ∈ values, ∃ n, value.toList = fixedDigits w n
  | .date => ∀ value ∈ values, ∃ t s, HasWidth t ∧ value.toList = write dateLiteral t ++ s
  | .timestamp | .hour =>
    ∀ value ∈ values, ∃ t s, HasWidth t ∧ value.toList = write momentLiteral t ++ s

variable {kind : WatermarkKind} {values : List String} {v k : Int}

theorem Aligned.le (h : Aligned kind values) (hvalue : value ∈ values) (hother : other ∈ values)
    (hle : value ≤ other) (hv : readWatermark value kind = .ok v)
    (hk : readWatermark other kind = .ok k) : v ≤ k := by
  refine Int.not_lt.1 fun hlt => not_lt_of_ge hle ?_
  have hmoment (hkind : kind = .timestamp ∨ kind = .hour)
      (h : ∀ value ∈ values, ∃ t s, HasWidth t ∧ value.toList = write momentLiteral t ++ s) :
      other < value := by
    obtain ⟨t, s, ht, htext⟩ := h value hvalue
    obtain ⟨u, s', hu, hutext⟩ := h other hother
    cases hv.symm.trans (readWatermark_moment ht htext hkind)
    cases hk.symm.trans (readWatermark_moment hu hutext hkind)
    exact lt_of_write_lt hu ht hutext htext (write_lt_of_stamp_lt hu ht hlt)
  cases kind with
  | timestamp => exact hmoment (.inl rfl) h
  | hour => exact hmoment (.inr rfl) h
  | date =>
    obtain ⟨t, s, ht, htext⟩ := h value hvalue
    obtain ⟨u, s', hu, hutext⟩ := h other hother
    cases hv.symm.trans (readWatermark_date ht htext)
    cases hk.symm.trans (readWatermark_date hu hutext)
    exact lt_of_write_lt hu ht hutext htext (write_dateLiteral_lt hu ht hlt)
  | simple =>
    obtain ⟨w, h⟩ := h
    obtain ⟨n, htext⟩ := h value hvalue
    obtain ⟨m, hmtext⟩ := h other hother
    rw [number_of_readWatermark htext hv, number_of_readWatermark hmtext hk] at hlt
    rw [String.lt_iff_toList_lt, htext, hmtext]
    exact fixedDigits_lt (Int.ofNat_lt.1 hlt)

end Watermark

namespace Staging

/-- The values at a place of rows that are not empty. -/
def valuesAt (index : Nat) (rows : List (List String)) : List String :=
  (rows.filterMap fun fields => fields[index]?).filter fun value => !value.isEmpty

/-- The values of a page in the column of a name that are not empty. -/
def StagedPage.valuesOf (column : String) (page : StagedPage) : List String :=
  if column ∈ Csv.header page.content then
    valuesAt ((Csv.header page.content).idxOf column) (Csv.data page.content)
  else []

/-- The values of pages in the column of a name that are not empty. -/
def valuesOf (column : String) (pages : List StagedPage) : List String :=
  pages.flatMap (·.valuesOf column)

section Folding

variable {path column : String}

theorem maxOfRows_eq (index : Nat) {rows : List Csv.Row} {texts : List (List String)}
    (h : rows.map Csv.Row.text = texts.map .ok) (best : Option String) :
    maxOfRows path index best rows = .ok ((valuesAt index texts).foldl larger best) := by
  induction texts generalizing rows best with
  | nil =>
    rw [List.map_nil, List.map_eq_nil_iff] at h
    subst h
    rfl
  | cons fields texts ih =>
    obtain ⟨row, rows, rfl, hrow, hrows⟩ := List.map_eq_cons_iff.1 h
    have hread : rowText path row = .ok fields := by
      rw [rowText, hrow]
      rfl
    have hstep : maxOfRows path index best (row :: rows) = maxOfRows path index
        ((valuesAt index [fields]).foldl larger best) rows := by
      rw [maxOfRows, hread]
      simp only [bind, Except.bind, valuesAt, List.filterMap_cons, List.filterMap_nil]
      cases fields[index]? with
      | none => rfl
      | some value => cases hempty : value.isEmpty <;> simp [hempty]
    have hsplit : valuesAt index (fields :: texts) =
        valuesAt index [fields] ++ valuesAt index texts := by
      rw [valuesAt, ← List.singleton_append, List.filterMap_append, List.filter_append]
      rfl
    rw [hstep, ih hrows, hsplit, List.foldl_append]

/-- A page goes on from the value before with all of its values. -/
theorem maxOfFile_whole (page : StagedPage) (best : Option String) :
    maxOfFile path column best (Page.whole page.content).feed =
      .ok ((page.valuesOf column).foldl larger best) := by
  have hfeed : (Page.whole page.content).feed =
      ⟨Csv.rows (Utf8.encodeString page.content), none⟩ := rfl
  have htexts := Csv.map_text_rows page.content
  rw [hfeed, maxOfFile, StagedPage.valuesOf, Csv.header, Csv.data]
  cases htable : Csv.table page.content with
  | nil =>
    rw [htable, List.map_nil, List.map_eq_nil_iff] at htexts
    rw [htexts]
    rfl
  | cons header texts =>
    rw [htable] at htexts
    obtain ⟨row, rows, hrows, hrow, hothers⟩ := List.map_eq_cons_iff.1 htexts
    have hheader : headerOf path ⟨row :: rows, none⟩ = .ok header := by
      show rowText path row = .ok header
      rw [rowText, hrow]
      rfl
    rw [hrows, hheader]
    by_cases hcolumn : column ∈ header <;>
      simp only [bind, Except.bind, List.headD_cons, List.tail_cons, List.drop_succ_cons,
        List.drop_zero, maxOfRows_eq _ hothers, hcolumn, if_true, if_false] <;> rfl

theorem larger_some (best value : String) : larger (some best) value = some (max best value) := by
  rw [larger, max_def_lt]
  split <;> rfl

/-- What is found value by value is the greatest text. -/
theorem foldl_larger (values : List String) : values.foldl larger none = values.max? := by
  have hfold (best : String) (values : List String) :
      values.foldl larger (some best) = some (values.foldl max best) := by
    induction values generalizing best with
    | nil => rfl
    | cons value values ih => rw [List.foldl_cons, larger_some, ih, List.foldl_cons]
  cases values with
  | nil => rfl
  | cons value values => rw [List.foldl_cons, larger, hfold, List.max?_cons']

theorem max?_perm {xs ys : List String} (h : xs.Perm ys) : xs.max? = ys.max? := by
  cases hmax : ys.max? with
  | none => 
    rw [List.max?_eq_none_iff] at hmax ⊢
    exact (hmax ▸ h).eq_nil
  | some best =>
    rw [List.max?_eq_some_iff] at hmax ⊢
    exact ⟨h.mem_iff.2 hmax.1, fun b hb => hmax.2 b (h.mem_iff.1 hb)⟩

end Folding

/-- The value that is looked up is the greatest text of the column. -/
theorem Contains.onDisk_highWatermark {m : Disk.Memory} {root entity query : String}
    {pages : List StagedPage} (h : Contains m (Path.join root entity) pages)
    (hquery : Query.entity query = .ok entity) (column : String) :
    Program.onDisk (highWatermark root query column) m = (.ok (valuesOf column pages).max?, m) := by
  obtain ⟨found, hperm, hfiles⟩ := h.exists_onDisk_stagedFiles
  have hstep : ∀ page ∈ found, ∀ best, Program.onDisk
      (readFile (page.path (Path.join root entity))
        (maxOfFile (page.path (Path.join root entity)) column best)) m =
      (.ok ((page.valuesOf column).foldl larger best), m) :=
    fun page hpage best => onDisk_readFile
      (h.holds page (hperm.subset hpage)).onDisk_openFile (maxOfFile_whole page best)
  have hentityFiles : Program.onDisk (entityFiles root entity) m =
      (.ok (found.map (·.file (Path.join root entity))), m) := by
    rw [entityFiles, Storing.onDisk_bind_ok h.onDisk_entityDirectory, hfiles]
  rw [highWatermark, Storing.onDisk_bind_ok (onDisk_queriedEntity hquery),
    Storing.onDisk_bind_ok hentityFiles, onDisk_foldFiles found hstep none,
    ← List.foldl_flatMap, foldl_larger, valuesOf, max?_perm (hperm.flatMap_right _)]

end Staging

namespace Local

open Watermark

variable (places : Places) {host : Host} {e : EntityOptions} {column query entity : String}
  {predicates : List String} {pages : List StagedPage}

/-- What is looked up is the number of the greatest text, or the error that it has none. -/
theorem play_lookUpWatermark
    (hcompose : Query.watermark e.name e.baseQuery column predicates = .ok query)
    (hentity : Query.entity query = .ok entity)
    (hpages : Contains host.2.disk (Path.join places.staging entity) pages) :
    (play (S := services) (respond places) (Extraction.lookUpWatermark e column predicates)
        host).2 =
      (match (valuesOf column pages).max? with
        | none => .ok noWatermark
        | some value => (readWatermark value (e.watermarkKind.getD .timestamp)).mapError
            fun fault => .decode (.watermark fault), host) := by
  have hcomposed : (play (S := services) (respond places)
      (Extraction.composed (Query.watermark e.name e.baseQuery column predicates)) host).2 =
      (.ok query, host) := by
    rw [hcompose]
    rfl
  have hlooked : (play (S := services) (respond places) (Engine.highWatermark query column)
      host).2 = (.ok (valuesOf column pages).max?, host) :=
    snd_play_request (r := .highWatermark query column) rfl
      (onHost_storing (hpages.onDisk_highWatermark hentity column))
  rw [Extraction.lookUpWatermark, Engine.snd_play_bind_ok hcomposed,
    Engine.snd_play_bind_ok hlooked]
  cases (valuesOf column pages).max? with
  | none => rfl
  | some value =>
    dsimp only
    cases readWatermark value (e.watermarkKind.getD .timestamp) <;> rfl

/-- The watermark of an entity is the number of the greatest text in its column, which is the
greatest number if the texts are in the order of their numbers. -/
theorem watermark_of_greatest_text
    (hcompose : Query.watermark e.name e.baseQuery column predicates = .ok query)
    (hentity : Query.entity query = .ok entity)
    (hpages : Contains host.2.disk (Path.join places.staging entity) pages)
    (hread : ∀ value ∈ valuesOf column pages, ∃ n,
      readWatermark value (e.watermarkKind.getD .timestamp) = .ok n) :
    ∃ n, (play (S := services) (respond places) (Extraction.lookUpWatermark e column predicates)
        host).2 = (.ok n, host) ∧
      match (valuesOf column pages).max? with
      | none => valuesOf column pages = [] ∧ n = noWatermark
      | some value => readWatermark value (e.watermarkKind.getD .timestamp) = .ok n ∧
          (Aligned (e.watermarkKind.getD .timestamp) (valuesOf column pages) →
            IsGreatest {k | ∃ v ∈ valuesOf column pages,
              readWatermark v (e.watermarkKind.getD .timestamp) = .ok k} n) := by
  rw [play_lookUpWatermark places hcompose hentity hpages]
  cases hmax : (valuesOf column pages).max? with
  | none => exact ⟨noWatermark, rfl, List.max?_eq_none_iff.1 hmax, rfl⟩
  | some value =>
    obtain ⟨hmem, hgreatest⟩ := List.max?_eq_some_iff.1 hmax
    obtain ⟨n, hn⟩ := hread value hmem
    refine ⟨n, ?_, hn, fun haligned => ⟨⟨value, hmem, hn⟩, ?_⟩⟩
    · dsimp only
      rw [hn]
      rfl
    · rintro k ⟨v, hv, hk⟩
      exact haligned.le hv hmem (hgreatest v hv) hk hn

/-- A host on which two pages of one name are staged, one of them compressed, with numbers of
unequal widths and with moments. -/
def numberedHost : Host :=
  ({}, ⟨⟨[(["in"], .directory), (["Account", "in"], .directory),
      (["p.csv.gz", "Account", "in"], .file (Gzip.compress (Utf8.encodeString "At,N\n,10\n"))),
      (["p.csv", "Account", "in"], .file (Utf8.encodeString
        "Id,N,At\n1,9,2024-01-09T08:00:00.000Z\n2\n3,,2024-01-15T10:30:00.000+0000\n"))],
    []⟩, ⟨2024, 1, 1, 0, 0, 0⟩, []⟩)

def numberedPages : List StagedPage :=
  [⟨"p", true, "At,N\n,10\n"⟩, ⟨"p", false,
    "Id,N,At\n1,9,2024-01-09T08:00:00.000Z\n2\n3,,2024-01-15T10:30:00.000+0000\n"⟩]

def numberedEntity (kind : WatermarkKind) : EntityOptions :=
  { name := "Account", watermarkKind := some kind }

theorem contains_numberedHost :
    Contains numberedHost.2.disk (Path.join stagedPlaces.staging "Account") numberedPages where
  files := by
    refine ⟨["Account", "in"], eq_ok_of_toOption (by decide +kernel), by decide +kernel, ?_⟩
    decide +kernel
  holds := by
    intro page hpage
    simp only [numberedPages, List.mem_cons, List.not_mem_nil, or_false] at hpage
    rcases hpage with rfl | rfl
    · refine ⟨Gzip.compress (Utf8.encodeString "At,N\n,10\n"),
        eq_ok_of_toOption (by decide +kernel), ?_⟩
      rw [if_pos rfl]
      exact Gzip.expand_compress _
    · exact ⟨_, eq_ok_of_toOption (by decide +kernel), rfl⟩

/-- Of the numbers nine and ten, nine is told to be the greatest. -/
theorem greatest_text_not_greatest :
    (play (S := services) (respond stagedPlaces)
        (Extraction.lookUpWatermark (numberedEntity .simple) "N" []) numberedHost).2 =
      (.ok 9, numberedHost) ∧
      valuesOf "N" numberedPages = ["10", "9"] ∧
      readWatermark "9" .simple = .ok 9 ∧ readWatermark "10" .simple = .ok 10 ∧
      ¬ IsGreatest {k | ∃ v ∈ valuesOf "N" numberedPages, readWatermark v .simple = .ok k} 9 := by
  have hvalues : valuesOf "N" numberedPages = ["10", "9"] := by decide +kernel
  have hnine : readWatermark "9" .simple = .ok 9 := by decide +kernel
  have hten : readWatermark "10" .simple = .ok 10 := by decide +kernel
  have hcompose : Query.watermark (numberedEntity .simple).name (numberedEntity .simple).baseQuery
      "N" [] = .ok "SELECT N FROM Account where N != null ORDER BY N desc LIMIT 1" :=
    eq_ok_of_toOption (by decide +kernel)
  have hmax : ["10", "9"].max? = some "9" := by decide
  refine ⟨?_, hvalues, hnine, hten, fun h => ?_⟩
  · rw [play_lookUpWatermark stagedPlaces hcompose (eq_ok_of_toOption (by decide +kernel))
      contains_numberedHost, hvalues, hmax]
    dsimp only [numberedEntity, Option.getD_some]
    rw [hnine]
    rfl
  · have hle := h.2 ⟨"10", by rw [hvalues]; exact List.mem_cons_self, hten⟩
    exact absurd hle (by decide)

/-- The moments of that host, with different zones, are in the order of their numbers. -/
theorem watermark_of_greatest_text_moments :
    (play (S := services) (respond stagedPlaces)
        (Extraction.lookUpWatermark (numberedEntity .timestamp) "At" []) numberedHost).2 =
      (.ok 20240115103000, numberedHost) ∧
      IsGreatest {k | ∃ v ∈ valuesOf "At" numberedPages, readWatermark v .timestamp = .ok k}
        20240115103000 := by
  have hvalues : valuesOf "At" numberedPages =
      ["2024-01-09T08:00:00.000Z", "2024-01-15T10:30:00.000+0000"] := by
    decide +kernel
  have hfirst : readWatermark "2024-01-09T08:00:00.000Z" .timestamp = .ok 20240109080000 := by
    decide +kernel
  have hsecond : readWatermark "2024-01-15T10:30:00.000+0000" .timestamp =
      .ok 20240115103000 := by
    decide +kernel
  have hread : ∀ value ∈ valuesOf "At" numberedPages, ∃ n,
      readWatermark value .timestamp = .ok n := by
    rw [hvalues]
    exact List.forall_mem_cons.2 ⟨⟨_, hfirst⟩, List.forall_mem_singleton.2 ⟨_, hsecond⟩⟩
  have haligned : Aligned .timestamp (valuesOf "At" numberedPages) := by
    rw [hvalues]
    refine List.forall_mem_cons.2 ⟨⟨⟨2024, 1, 9, 8, 0, 0⟩, ".000Z".toList, ?_, by decide⟩,
      List.forall_mem_singleton.2 ⟨⟨2024, 1, 15, 10, 30, 0⟩, ".000+0000".toList, ?_, by decide⟩⟩ <;>
      exact ⟨by decide, by decide, by decide⟩
  have hcompose : Query.watermark (numberedEntity .timestamp).name
      (numberedEntity .timestamp).baseQuery "At" [] =
        .ok "SELECT At FROM Account where At != null ORDER BY At desc LIMIT 1" :=
    eq_ok_of_toOption (by decide +kernel)
  obtain ⟨n, hplay, hmax⟩ := watermark_of_greatest_text stagedPlaces hcompose
    (eq_ok_of_toOption (by decide +kernel)) contains_numberedHost hread
  have hgreatest : (valuesOf "At" numberedPages).max? = some "2024-01-15T10:30:00.000+0000" := by
    rw [hvalues]
    decide
  rw [hgreatest] at hmax
  obtain ⟨hn, hall⟩ := hmax
  cases hsecond.symm.trans hn
  exact ⟨hplay, hall haligned⟩

end Local

end Harvest
