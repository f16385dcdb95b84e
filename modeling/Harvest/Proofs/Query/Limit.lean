import Harvest.Proofs.Query.Composition
import Harvest.Proofs.Text.Boundary

/-!
# The limit at the end of a query

A limit is a keyword in any case, blanks, digits and perhaps blanks (`Query.Limited`). A query is
cut before such a limit exactly if it ends with one behind other text
(`Query.limitClause_recognises`): the keyword that is found last is the one of the limit, since
blanks and digits have no letters. Then its parts are determined by the query.
-/

namespace Harvest

open Text Utf8

namespace Query

/-- A text that ends with a limit, in its parts: what stands before, the keyword with the blank
before it, blanks, the digits of the count, and blanks. -/
@[ext] structure Limited where
  before : String
  keyword : String
  gap : String
  count : String
  rest : String
  before_ne : before ≠ ""
  folded : sameFolded keyword " limit" = true
  gap_ne : gap ≠ ""
  gap_blank : ∀ c ∈ gap.toList, isBlank c = true
  count_ne : count ≠ ""
  count_digit : ∀ c ∈ count.toList, c.isDigit = true
  rest_blank : ∀ c ∈ rest.toList, isBlank c = true

namespace Limited

/-- The limit, from its keyword on. -/
def limit (l : Limited) : String := l.keyword ++ l.gap ++ l.count ++ l.rest

def text (l : Limited) : String := l.before ++ l.limit

variable (l : Limited)

theorem toList_limit :
    l.limit.toList = l.keyword.toList ++ (l.gap.toList ++ l.count.toList ++ l.rest.toList) := by
  simp [limit]

theorem limit_ne : l.limit ≠ "" := by
  intro h
  have hgap : l.gap.toList ≠ [] := by simpa using l.gap_ne
  have hnil := congrArg String.toList h
  rw [toList_limit] at hnil
  simp_all

theorem length_keyword : l.keyword.toList.length = " limit".length := by
  rw [← List.length_map, beq_iff_eq.1 l.folded]
  rfl

theorem drop_limit : l.limit.toList.drop " limit".length =
    l.gap.toList ++ l.count.toList ++ l.rest.toList := by
  rw [toList_limit, ← length_keyword, List.drop_left]

theorem trim_count : trim (l.gap.toList ++ l.count.toList ++ l.rest.toList) = l.count.toList :=
  trim_append_blanks (by simpa using l.count_ne) l.gap_blank
    (fun c hc => isBlank_of_isDigit c (l.count_digit c hc)) l.rest_blank

theorem isLimit_limit : IsLimit l.limit := by
  refine ⟨?_, ?_⟩
  · rw [startsFolded_iff, toList_limit, List.map_append, beq_iff_eq.1 l.folded]
    exact List.prefix_append _ _
  · rw [drop_limit]
    have htrim := l.trim_count
    cases hgap : l.gap.toList with
    | nil => exact absurd (by simpa using hgap) l.gap_ne
    | cons b gap =>
      have hb : isBlank b = true := l.gap_blank b (by simp [hgap])
      have hcount : l.count.toList ≠ [] := by simpa using l.count_ne
      rw [hgap, List.cons_append, List.cons_append] at htrim
      rw [List.cons_append, List.cons_append, isLimitCount, htrim, hb]
      simpa [hcount] using l.count_digit

/-- The limit of a text is cut where its parts say. -/
theorem cutLimit_text : cutLimit l.text.toList = (l.before.toList, l.limit.toList) :=
  cutLimit_append_limit l.before l.limit l.before_ne l.isLimit_limit

theorem limitClause_text : limitClause l.text = l.limit := by
  rw [limitClause, cutLimit_text, String.ofList_toList]

theorem withoutLimit_text : withoutLimit l.text = l.before := by
  rw [withoutLimit, cutLimit_text, String.ofList_toList]

/-- The blanks end with the first digit. -/
theorem takeWhile_gap :
    (l.gap.toList ++ l.count.toList ++ l.rest.toList).takeWhile isBlank = l.gap.toList := by
  obtain ⟨c, count, hcount⟩ := List.exists_cons_of_ne_nil
    (by simpa using l.count_ne : l.count.toList ≠ [])
  have hc : ¬ isBlank c = true := by
    simp [isBlank_of_isDigit c (l.count_digit c (by simp [hcount]))]
  rw [List.append_assoc, List.takeWhile_append_of_pos l.gap_blank, hcount, List.cons_append,
    List.takeWhile_cons_of_neg hc, List.append_nil]

variable {l} {l' : Limited}

/-- A text ends with a limit in one way at most. -/
theorem eq_of_text_eq (h : l'.text = l.text) : l' = l := by
  have hbefore : l'.before = l.before := by
    rw [← withoutLimit_text, ← withoutLimit_text, h]
  have hlimit : l'.limit = l.limit := by
    rw [← limitClause_text, ← limitClause_text, h]
  have hparts := congrArg String.toList hlimit
  rw [toList_limit, toList_limit] at hparts
  obtain ⟨hkeyword, htail⟩ :=
    List.append_inj hparts (l'.length_keyword.trans l.length_keyword.symm)
  have hgap : l'.gap.toList = l.gap.toList :=
    l'.takeWhile_gap.symm.trans ((congrArg (List.takeWhile isBlank) htail).trans l.takeWhile_gap)
  have hcount : l'.count.toList = l.count.toList :=
    l'.trim_count.symm.trans ((congrArg trim htail).trans l.trim_count)
  have hrest : l'.rest.toList = l.rest.toList := by
    rw [hgap, hcount] at htail
    exact List.append_cancel_left htail
  exact Limited.ext hbefore (String.toList_inj.1 hkeyword) (String.toList_inj.1 hgap)
    (String.toList_inj.1 hcount) (String.toList_inj.1 hrest)

end Limited

/-- The parts of a limit can be told apart. -/
theorem exists_limited_of_isLimit {before limit : String} (hbefore : before ≠ "")
    (h : IsLimit limit) : ∃ l : Limited, l.before = before ∧ l.limit = limit := by
  obtain ⟨hstart, hcount⟩ := h
  obtain ⟨after, hafter⟩ := (startsFolded_iff _ _).1 hstart
  have hkeyword : (limit.toList.take " limit".length).map Char.toLower = " limit".toList := by
    rw [List.map_take, ← hafter]
    rfl
  obtain ⟨gap, rest, hsplit, hgap, hrest⟩ :=
    exists_blanks_trim (limit.toList.drop " limit".length)
  obtain ⟨b, count, hcons⟩ : ∃ b count, limit.toList.drop " limit".length = b :: count := by
    obtain ⟨⟨b, count, hcons, -⟩, -⟩ := blank_or_digit_of_isLimitCount _ hcount
    exact ⟨b, count, hcons⟩
  rw [hcons] at hcount hsplit
  simp only [isLimitCount, Bool.and_eq_true, Bool.not_eq_true', List.isEmpty_eq_false_iff,
    List.all_eq_true] at hcount
  obtain ⟨⟨hb, hne⟩, hdigits⟩ := hcount
  have hgap_ne : gap ≠ [] := by
    rintro rfl
    obtain ⟨c, word, hword⟩ := List.exists_cons_of_ne_nil hne
    rw [hword] at hsplit hdigits
    obtain ⟨rfl, -⟩ := List.cons.inj hsplit
    rw [isBlank_of_isDigit b (hdigits b List.mem_cons_self)] at hb
    cases hb
  refine ⟨⟨before, .ofList (limit.toList.take " limit".length), .ofList gap,
    .ofList (trim (b :: count)), .ofList rest, hbefore, ?_, ?_, ?_, ?_, ?_, ?_⟩, rfl, ?_⟩
  · rw [sameFolded, String.toList_ofList, hkeyword]
    rfl
  · simpa using hgap_ne
  · simpa using hgap
  · simpa using hne
  · simpa using hdigits
  · simpa using hrest
  · rw [← String.toList_inj, Limited.toList_limit]
    simp only [String.toList_ofList]
    rw [← hsplit, ← hcons, List.take_append_drop]

/-- What is cut from a query is a limit, and something stands before it. -/
theorem isLimit_limitClause {query : String} (h : limitClause query ≠ "") :
    withoutLimit query ≠ "" ∧ IsLimit (limitClause query) := by
  cases hsplit : splitLast? " limit".toList query.toList with
  | none =>
    have hnone : cutLimit query.toList = (query.toList, []) := by rw [cutLimit, hsplit]
    rw [limitClause, hnone] at h
    exact absurd rfl h
  | some parts =>
    obtain ⟨before, rest⟩ := parts
    cases hcut : !before.isEmpty && isLimitCount (rest.drop " limit".length) with
    | false =>
      have hnone : cutLimit query.toList = (query.toList, []) := by
        simp only [cutLimit, hsplit, hcut, Bool.false_eq_true, if_false]
      rw [limitClause, hnone] at h
      exact absurd rfl h
    | true =>
      have hsome : cutLimit query.toList = (before, rest) := by
        simp only [cutLimit, hsplit, hcut, if_true]
      obtain ⟨hbefore, hcount⟩ := Bool.and_eq_true_iff.1 hcut
      simp only [withoutLimit, limitClause, hsome, IsLimit, String.toList_ofList]
      exact ⟨by simpa using hbefore, startsFolded_of_splitLast? _ _ _ _ hsplit, hcount⟩

theorem exists_limited_of_limitClause_ne {query : String} (h : limitClause query ≠ "") :
    ∃ l : Limited, l.text = query := by
  obtain ⟨hbefore, hlimit⟩ := isLimit_limitClause h
  obtain ⟨l, hl, hl'⟩ := exists_limited_of_isLimit hbefore hlimit
  exact ⟨l, by rw [Limited.text, hl, hl', withoutLimit_append_limitClause]⟩

/-- The limit of a query is the one at its very end, if there is one. Nothing of the query is lost,
its limit is the same behind any other text, and wherever the bytes of the keyword are found in the
lower-case query, a keyword of the query begins behind as many bytes, and ends behind six more. -/
theorem limitClause_recognises (query : String) :
    withoutLimit query ++ limitClause query = query ∧
      (limitClause query ≠ "" ↔ ∃ l : Limited, l.text = query) ∧
      (∀ l : Limited, l.text = query → limitClause query = l.limit ∧ withoutLimit query = l.before ∧
        ∀ l' : Limited, l'.text = query → l' = l) ∧
      (∀ before after, encodeString (lower query) = before ++ encodeString " limit" ++ after →
        ∃ front keyword back : String, front ++ keyword ++ back = query ∧
          sameFolded keyword " limit" = true ∧ (encodeString front).length = before.length ∧
          (encodeString keyword).length = 6) ∧
      ∀ text, text ≠ "" → limitClause query ≠ "" →
        limitClause (text ++ limitClause query) = limitClause query := by
  refine ⟨withoutLimit_append_limitClause query, ⟨exists_limited_of_limitClause_ne, ?_⟩, ?_, ?_, ?_⟩
  · rintro ⟨l, rfl⟩
    rw [l.limitClause_text]
    exact l.limit_ne
  · rintro l rfl
    exact ⟨l.limitClause_text, l.withoutLimit_text, fun l' h => Limited.eq_of_text_eq h⟩
  · intro before after h
    have hascii : ∀ c ∈ " limit".toList, c.toNat ≤ 0x7F := by simp
    obtain ⟨front, keyword, back, htext, hkeyword, hfront, hlength⟩ :=
      exists_of_encode_lower_eq hascii (by decide) h
    refine ⟨front, keyword, back, htext, ?_, hfront, hlength⟩
    rw [sameFolded, hkeyword]
    rfl
  · intro text htext hlimit
    rw [limitClause, cutLimit_append_limit _ _ htext (isLimit_limitClause hlimit).2,
      String.ofList_toList]

def Limited.wide : Limited where
  before := "SELECT Größe, LimitAmount FROM Größe limit 7 LIMIT x"
  keyword := " LiMiT"
  gap := "\u2003 "
  count := "042"
  rest := "\u00a0"
  before_ne := by decide
  folded := by decide
  gap_ne := by decide
  gap_blank := List.all_eq_true.1 rfl
  count_ne := by decide
  count_digit := List.all_eq_true.1 rfl
  rest_blank := List.all_eq_true.1 rfl

/-- A limit with wide blanks, behind letters that take two bytes and other limits. -/
theorem limitClause_recognises_wide :
    limitClause Limited.wide.text = " LiMiT\u2003 042\u00a0" ∧
      limitClause ("é" ++ limitClause Limited.wide.text) = " LiMiT\u2003 042\u00a0" ∧
      ∃ front keyword back : String, front ++ keyword ++ back = Limited.wide.text ∧
        sameFolded keyword " limit" = true ∧ (encodeString front).length = 15 ∧
        (encodeString keyword).length = 6 := by
  obtain ⟨-, -, hparts, hbytes, hagain⟩ := limitClause_recognises Limited.wide.text
  have hlimit : limitClause Limited.wide.text = " LiMiT\u2003 042\u00a0" :=
    (hparts Limited.wide rfl).1
  have hne : limitClause Limited.wide.text ≠ "" := by
    rw [hlimit]
    decide
  refine ⟨hlimit, (hagain "é" (by decide) hne).trans hlimit, ?_⟩
  exact hbytes ((encodeString (lower Limited.wide.text)).take 15)
    ((encodeString (lower Limited.wide.text)).drop 21) (by decide +kernel)

end Query

end Harvest
