/-!
# White space

A character is blank when Unicode gives it the property White_Space. Blanks are
what trimming removes from the two ends of a text and what separates its words.
-/

namespace Harvest.Text

/-- The twenty-five characters with the property White_Space. -/
def isBlank (c : Char) : Bool :=
  let n := c.toNat
  (9 ≤ n && n ≤ 13) || n == 0x20 || n == 0x85 || n == 0xA0 || n == 0x1680 ||
    (0x2000 ≤ n && n ≤ 0x200A) || n == 0x2028 || n == 0x2029 || n == 0x202F ||
    n == 0x205F || n == 0x3000

/-- The text from its first character that is not blank. -/
def trimStart (s : List Char) : List Char := s.dropWhile isBlank

/-- The text up to its last character that is not blank. -/
def trimEnd (s : List Char) : List Char := (s.reverse.dropWhile isBlank).reverse

/-- The text without the blanks at its two ends. -/
def trim (s : List Char) : List Char := trimEnd (trimStart s)

/-- The text without the blanks at its two ends, for strings. -/
def trimmed (s : String) : String := String.ofList (trim s.toList)

/-- A string of blanks only. -/
def isBlankText (s : String) : Bool := s.toList.all isBlank

/-- The first maximal run of characters that are not blank, if there is one. -/
def firstWord? (s : List Char) : Option (List Char) :=
  match (trimStart s).takeWhile (fun c => !isBlank c) with
  | [] => none
  | word => some word

theorem trimStart_cons (c : Char) (s : List Char) :
    trimStart (c :: s) = if isBlank c then trimStart s else c :: s := by
  unfold trimStart
  rw [List.dropWhile_cons]

/-- A text starts with what trimming removes and goes on with what it keeps. -/
theorem takeWhile_append_trimStart (s : List Char) :
    s.takeWhile isBlank ++ trimStart s = s :=
  List.takeWhile_append_dropWhile

end Harvest.Text
