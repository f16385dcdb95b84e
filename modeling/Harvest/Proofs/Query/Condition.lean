import Harvest.Proofs.Text.Words

/-!
# Conditions and their texts

A condition is built from atoms with `and`, `or` and parentheses, `and` binding tighter. Its
grammar is laid down in three mutual types, so that every condition has one order of
operations. A text reads as a condition if it consists of its lexemes
(`Condition.Reads`); what an atom says is left open.

A text reads as one condition at most (`Condition.Reads.unique`), because conditions can be
read off their lexemes from the left (`Condition.read_lexemes`).
-/

namespace Harvest

open Text

inductive Lexeme
  | opening
  | closing
  | and
  | or
  | word (text : List Char)
  deriving DecidableEq

namespace Lexeme

/-- The connectives are words whatever the case of their letters. -/
def ofWord (text : List Char) : Lexeme :=
  if text.map Char.toLower = "and".toList then .and
  else if text.map Char.toLower = "or".toList then .or
  else .word text

/-- The parentheses open behind a lexeme of an atom, `depth` being open before. Between atoms
stand a closing parenthesis that nothing opened and the connectives outside of parentheses. -/
def depthAfter (depth : Nat) : Lexeme → Option Nat
  | .opening => some (depth + 1)
  | .closing => if depth = 0 then none else some (depth - 1)
  | .and => if depth = 0 then none else some depth
  | .or => if depth = 0 then none else some depth
  | .word _ => some depth

end Lexeme

/-- A comparison or the like. It starts with a word, and its parentheses are balanced. -/
structure Atom where
  first : List Char
  rest : List Lexeme
  balanced : rest.foldlM Lexeme.depthAfter 0 = some 0
  deriving DecidableEq

def Atom.lexemes (a : Atom) : List Lexeme := .word a.first :: a.rest

mutual

inductive Condition
  | one (c : Conjunction)
  | or (c : Condition) (d : Conjunction)

inductive Conjunction
  | one (f : Factor)
  | and (c : Conjunction) (f : Factor)

inductive Factor
  | atom (a : Atom)
  | group (c : Condition)

end

mutual

def Condition.lexemes : Condition → List Lexeme
  | .one c => c.lexemes
  | .or c d => c.lexemes ++ .or :: d.lexemes

def Conjunction.lexemes : Conjunction → List Lexeme
  | .one f => f.lexemes
  | .and c f => c.lexemes ++ .and :: f.lexemes

def Factor.lexemes : Factor → List Lexeme
  | .atom a => a.lexemes
  | .group c => .opening :: (c.lexemes ++ [.closing])

end

def Conjunction.ofWords (first : String) (rest : List String) : Conjunction :=
  .one (.atom ⟨first.toList, rest.map fun word => .word word.toList, by
    induction rest with
    | nil => rfl
    | cons word rest ih => exact ih⟩)

section Holds

variable (row : Atom → Prop)

mutual

/-- Whether a condition is true of a row, of which is known which atoms are. -/
def Condition.holds : Condition → Prop
  | .one c => c.holds
  | .or c d => c.holds ∨ d.holds

def Conjunction.holds : Conjunction → Prop
  | .one f => f.holds
  | .and c f => c.holds ∧ f.holds

def Factor.holds : Factor → Prop
  | .atom a => row a
  | .group c => c.holds

end

end Holds

/-- Where in a text a lexer is: quotes keep blanks, parentheses and connectives to a word, and
a backslash within quotes keeps the next character to it. -/
inductive Quoting
  | outside
  | quoted
  | escaped
  deriving DecidableEq

/-- The state of the lexer: the word at hand and the lexemes before it, both in reverse. -/
structure Lexer where
  quoting : Quoting
  word : List Char
  done : List Lexeme

namespace Lexer

def initial : Lexer := ⟨.outside, [], []⟩

/-- The lexemes read, in reverse, where the word at hand ends. -/
def endWord (s : Lexer) : List Lexeme :=
  if s.word = [] then s.done else .ofWord s.word.reverse :: s.done

def step (s : Lexer) (c : Char) : Lexer :=
  match s.quoting with
  | .outside =>
    if isBlank c then ⟨.outside, [], s.endWord⟩
    else if c = '(' then ⟨.outside, [], .opening :: s.endWord⟩
    else if c = ')' then ⟨.outside, [], .closing :: s.endWord⟩
    else ⟨if c = '\'' then .quoted else .outside, c :: s.word, s.done⟩
  | .quoted =>
    ⟨if c = '\'' then .outside else if c = '\\' then .escaped else .quoted,
      c :: s.word, s.done⟩
  | .escaped => ⟨.quoted, c :: s.word, s.done⟩

/-- The lexemes of a text that does not end within quotes. -/
def finish (s : Lexer) : Option (List Lexeme) :=
  if s.quoting = .outside then some s.endWord.reverse else none

/-- The lexer with further lexemes before those read. -/
def behind (s : Lexer) (before : List Lexeme) : Lexer := { s with done := s.done ++ before }

theorem endWord_behind (s : Lexer) (before : List Lexeme) :
    (s.behind before).endWord = s.endWord ++ before := by
  by_cases h : s.word = [] <;> simp [endWord, behind, h]

theorem step_behind (s : Lexer) (before : List Lexeme) (c : Char) :
    (s.behind before).step c = (s.step c).behind before := by
  have hend := endWord_behind s before
  unfold step
  rw [hend]
  cases s with
  | mk quoting word done =>
    cases quoting with
    | outside =>
      simp only [behind]
      split
      · rfl
      · split
        · rfl
        · split <;> rfl
    | quoted => rfl
    | escaped => rfl

theorem foldl_behind (text : List Char) (s : Lexer) (before : List Lexeme) :
    text.foldl step (s.behind before) = (text.foldl step s).behind before := by
  induction text generalizing s with
  | nil => rfl
  | cons c text ih => rw [List.foldl_cons, List.foldl_cons, step_behind, ih]

theorem finish_behind (s : Lexer) (before : List Lexeme) :
    (s.behind before).finish = s.finish.map (before.reverse ++ ·) := by
  rw [finish, finish, endWord_behind]
  by_cases h : s.quoting = .outside <;> simp [behind, h]

theorem step_of_blank (s : Lexer) (b : Char) (hb : isBlank b = true)
    (h : s.quoting = .outside) : s.step b = ⟨.outside, [], s.endWord⟩ := by
  simp [step, h, hb]

theorem finish_step_blank (s : Lexer) (b : Char) (hb : isBlank b = true) :
    (s.step b).finish = s.finish := by
  have hquote : b ≠ '\'' := by
    rintro rfl
    exact absurd hb (by decide)
  cases h : s.quoting with
  | outside =>
    rw [step_of_blank s b hb h]
    simp [finish, h, endWord]
  | quoted => by_cases hslash : b = '\\' <;> simp [step, finish, h, hquote, hslash]
  | escaped => simp [step, finish, h]

end Lexer

/-- The lexemes of a text. -/
def lex (text : List Char) : Option (List Lexeme) := (text.foldl Lexer.step .initial).finish

section Lex

variable {s t : List Char} {xs : List Lexeme}

theorem foldl_of_lex (h : lex s = some xs) :
    (s.foldl Lexer.step .initial).quoting = .outside ∧
      (s.foldl Lexer.step .initial).endWord = xs.reverse := by
  unfold lex Lexer.finish at h
  split at h
  · rename_i hquoting
    exact ⟨hquoting, by simp [← Option.some.inj h]⟩
  · cases h

theorem lex_append_blank (h : lex s = some xs) (b : Char) (hb : isBlank b = true) :
    lex (s ++ b :: t) = (lex t).map (xs ++ ·) := by
  obtain ⟨hquoting, hend⟩ := foldl_of_lex h
  have hstep : (s.foldl Lexer.step .initial).step b = Lexer.initial.behind xs.reverse := by
    rw [Lexer.step_of_blank _ b hb hquoting, hend]
    rfl
  rw [lex, List.foldl_append, List.foldl_cons, hstep, Lexer.foldl_behind, Lexer.finish_behind,
    List.reverse_reverse]
  rfl

theorem lex_opening (t : List Char) : lex ('(' :: t) = (lex t).map (Lexeme.opening :: ·) := by
  have hstep : Lexer.initial.step '(' = Lexer.initial.behind [.opening] := rfl
  rw [lex, List.foldl_cons, hstep, Lexer.foldl_behind, Lexer.finish_behind]
  rfl

theorem lex_append_closing (h : lex s = some xs) :
    lex (s ++ [')']) = some (xs ++ [.closing]) := by
  obtain ⟨hquoting, hend⟩ := foldl_of_lex h
  have hstep : (s.foldl Lexer.step .initial).step ')' =
      ⟨.outside, [], .closing :: xs.reverse⟩ := by
    simp [Lexer.step, hquoting, hend, show isBlank ')' = false by decide]
  rw [lex, List.foldl_append, List.foldl_cons, hstep]
  simp [Lexer.finish, Lexer.endWord]

theorem lex_cons_blank (b : Char) (hb : isBlank b = true) (t : List Char) :
    lex (b :: t) = lex t := by
  have hstep : Lexer.initial.step b = .initial := by
    simp [Lexer.step, Lexer.initial, Lexer.endWord, hb]
  rw [lex, List.foldl_cons, hstep]
  rfl

theorem lex_append_blanks (blanks : List Char) (h : ∀ b ∈ blanks, isBlank b = true)
    (s : List Char) : lex (s ++ blanks) = lex s := by
  induction blanks generalizing s with
  | nil => rw [List.append_nil]
  | cons b blanks ih =>
    have hrest := ih (fun c hc => h c (List.mem_cons_of_mem b hc)) (s ++ [b])
    rw [List.append_assoc, List.singleton_append] at hrest
    rw [hrest, lex, List.foldl_append]
    exact Lexer.finish_step_blank _ b (h b List.mem_cons_self)

theorem lex_cons_blanks (blanks : List Char) (h : ∀ b ∈ blanks, isBlank b = true)
    (s : List Char) : lex (blanks ++ s) = lex s := by
  induction blanks with
  | nil => rfl
  | cons b blanks ih =>
    rw [List.cons_append, lex_cons_blank b (h b List.mem_cons_self)]
    exact ih fun c hc => h c (List.mem_cons_of_mem b hc)

theorem lex_trim (s : List Char) : lex (trim s) = lex s := by
  obtain ⟨before, after, hs, hbefore, hafter⟩ := exists_blanks_trim s
  have hlex : lex (before ++ trim s ++ after) = lex (trim s) := by
    rw [lex_append_blanks after hafter, lex_cons_blanks before hbefore]
  rw [← hlex, ← hs]

end Lex

/-- What was read between an opening parenthesis and the factor at hand. -/
structure Frame where
  earlier : Option Condition
  factors : Option Conjunction

namespace Frame

def conjunction (frame : Frame) (f : Factor) : Conjunction :=
  match frame.factors with
  | none => .one f
  | some c => .and c f

def condition (frame : Frame) (f : Factor) : Condition :=
  match frame.earlier with
  | none => .one (frame.conjunction f)
  | some c => .or c (frame.conjunction f)

end Frame

/-- The factor at hand: it is to come, or it is an atom of which so many parentheses are open,
its lexemes in reverse, or a group that was closed. -/
inductive Pending
  | fresh
  | atom (first : List Char) (rest : List Lexeme) (depth : Nat)
  | group (c : Condition)

def Pending.factor? : Pending → Option Factor
  | .fresh => none
  | .atom first rest _ =>
    if h : rest.reverse.foldlM Lexeme.depthAfter 0 = some 0 then
      some (.atom ⟨first, rest.reverse, h⟩)
    else none
  | .group c => some (.group c)

structure Reader where
  outer : List Frame
  frame : Frame
  pending : Pending

namespace Reader

def initial : Reader := ⟨[], ⟨none, none⟩, .fresh⟩

/-- Takes a lexeme behind a factor. -/
def leave (s : Reader) (f : Factor) : Lexeme → Option Reader
  | .and => some ⟨s.outer, ⟨s.frame.earlier, some (s.frame.conjunction f)⟩, .fresh⟩
  | .or => some ⟨s.outer, ⟨some (s.frame.condition f), none⟩, .fresh⟩
  | .closing =>
    match s.outer with
    | [] => none
    | frame :: outer => some ⟨outer, frame, .group (s.frame.condition f)⟩
  | _ => none

def step (s : Reader) (l : Lexeme) : Option Reader :=
  match s.pending with
  | .fresh =>
    match l with
    | .opening => some ⟨s.frame :: s.outer, ⟨none, none⟩, .fresh⟩
    | .word text => some { s with pending := .atom text [] 0 }
    | _ => none
  | .atom first rest depth =>
    match Lexeme.depthAfter depth l with
    | some deeper => some { s with pending := .atom first (l :: rest) deeper }
    | none => s.pending.factor?.bind fun f => s.leave f l
  | .group c => s.leave (.group c) l

/-- The condition read, where no parenthesis is open. -/
def finish (s : Reader) : Option Condition :=
  match s.outer with
  | [] => s.pending.factor?.map s.frame.condition
  | _ => none

end Reader

/-- The condition that a list of lexemes stands for. -/
def Condition.read (ls : List Lexeme) : Option Condition :=
  (ls.foldlM Reader.step .initial).bind Reader.finish

def Factor.pending : Factor → Pending
  | .atom a => .atom a.first a.rest.reverse 0
  | .group c => .group c

namespace Conjunction

def last : Conjunction → Factor
  | .one f => f
  | .and _ f => f

def before : Conjunction → Option Conjunction
  | .one _ => none
  | .and c _ => some c

end Conjunction

namespace Condition

def last : Condition → Conjunction
  | .one d => d
  | .or _ d => d

/-- The condition before its last `or`. -/
def before : Condition → Option Condition
  | .one _ => none
  | .or c _ => some c

end Condition

theorem factor?_pending (f : Factor) : f.pending.factor? = some f := by
  cases f with
  | atom a =>
    have h : a.rest.reverse.reverse.foldlM Lexeme.depthAfter 0 = some 0 := by
      rw [List.reverse_reverse]
      exact a.balanced
    rw [Factor.pending, Pending.factor?, dif_pos h]
    simp
  | group c => rfl

theorem conjunction_before_last (earlier : Option Condition) (c : Conjunction) :
    Frame.conjunction ⟨earlier, c.before⟩ c.last = c := by
  cases c <;> rfl

theorem condition_before_last (c : Condition) :
    Frame.condition ⟨c.before, c.last.before⟩ c.last.last = c := by
  cases c <;> simp [Frame.condition, Condition.before, Condition.last, conjunction_before_last]

namespace Reader

/-- Behind a factor a connective and a closing parenthesis end it. -/
theorem step_pending (outer : List Frame) (frame : Frame) (f : Factor) (l : Lexeme)
    (h : Lexeme.depthAfter 0 l = none) :
    step ⟨outer, frame, f.pending⟩ l = leave ⟨outer, frame, f.pending⟩ f l := by
  have hfactor := factor?_pending f
  cases f with
  | atom a =>
    rw [Factor.pending] at hfactor ⊢
    simp only [step, h, hfactor]
    rfl
  | group c => rfl

/-- The lexemes of an atom are kept as long as its parentheses close what they open. -/
theorem foldlM_step_atom (outer : List Frame) (frame : Frame) (first : List Char)
    (ls done : List Lexeme) (depth last : Nat)
    (h : ls.foldlM Lexeme.depthAfter depth = some last) :
    ls.foldlM step ⟨outer, frame, .atom first done depth⟩ =
      some ⟨outer, frame, .atom first (ls.reverse ++ done) last⟩ := by
  induction ls generalizing done depth with
  | nil =>
    cases h
    rfl
  | cons l ls ih =>
    rw [List.foldlM_cons] at h
    obtain ⟨deeper, hdeeper, hrest⟩ := Option.bind_eq_some_iff.1 h
    have hstep : step ⟨outer, frame, .atom first done depth⟩ l =
        some ⟨outer, frame, .atom first (l :: done) deeper⟩ := by
      simp [step, hdeeper]
    rw [List.foldlM_cons, hstep, List.reverse_cons, List.append_assoc]
    exact ih (l :: done) deeper hrest

mutual

theorem foldlM_step_factor (f : Factor) (outer : List Frame) (frame : Frame) :
    f.lexemes.foldlM step ⟨outer, frame, .fresh⟩ = some ⟨outer, frame, f.pending⟩ := by
  cases f with
  | atom a =>
    rw [Factor.lexemes, Atom.lexemes, List.foldlM_cons]
    have hrest := foldlM_step_atom outer frame a.first a.rest [] 0 0 a.balanced
    rw [List.append_nil] at hrest
    exact hrest
  | group c =>
    rw [Factor.lexemes, List.foldlM_cons]
    have hinner := foldlM_step_condition c (frame :: outer)
    have hopen : step ⟨outer, frame, .fresh⟩ .opening =
        some ⟨frame :: outer, ⟨none, none⟩, .fresh⟩ := rfl
    rw [hopen]
    show (c.lexemes ++ [Lexeme.closing]).foldlM step _ = _
    rw [List.foldlM_append, hinner]
    show [Lexeme.closing].foldlM step _ = _
    rw [List.foldlM_cons, step_pending _ _ _ _ rfl, leave, condition_before_last]
    rfl

theorem foldlM_step_conjunction (c : Conjunction) (outer : List Frame)
    (earlier : Option Condition) :
    c.lexemes.foldlM step ⟨outer, ⟨earlier, none⟩, .fresh⟩ =
      some ⟨outer, ⟨earlier, c.before⟩, c.last.pending⟩ := by
  cases c with
  | one f => exact foldlM_step_factor f outer ⟨earlier, none⟩
  | and c f =>
    rw [Conjunction.lexemes, List.foldlM_append, foldlM_step_conjunction c outer earlier]
    show (Lexeme.and :: f.lexemes).foldlM step _ = _
    rw [List.foldlM_cons, step_pending _ _ _ _ rfl, leave, conjunction_before_last]
    exact foldlM_step_factor f outer ⟨earlier, some c⟩

theorem foldlM_step_condition (c : Condition) (outer : List Frame) :
    c.lexemes.foldlM step ⟨outer, ⟨none, none⟩, .fresh⟩ =
      some ⟨outer, ⟨c.before, c.last.before⟩, c.last.last.pending⟩ := by
  cases c with
  | one d => exact foldlM_step_conjunction d outer none
  | or c d =>
    rw [Condition.lexemes, List.foldlM_append, foldlM_step_condition c outer]
    show (Lexeme.or :: d.lexemes).foldlM step _ = _
    rw [List.foldlM_cons, step_pending _ _ _ _ rfl, leave, condition_before_last]
    exact foldlM_step_conjunction d outer (some c)

end

end Reader

namespace Condition

/-- Every condition is read back from its lexemes. -/
theorem read_lexemes (c : Condition) : read c.lexemes = some c := by
  rw [read, Reader.initial, Reader.foldlM_step_condition c []]
  show Option.map _ c.last.last.pending.factor? = some c
  rw [factor?_pending, Option.map_some, condition_before_last]

/-- The text consists of the lexemes of the condition. -/
def Reads (text : String) (c : Condition) : Prop := lex text.toList = some c.lexemes

/-- A text reads as one condition at most. -/
theorem Reads.unique {text : String} {c d : Condition} (hc : Reads text c)
    (hd : Reads text d) : c = d := by
  have hlexemes : c.lexemes = d.lexemes := Option.some.inj (hc.symm.trans hd)
  have hread : some c = some d := by rw [← read_lexemes c, hlexemes, read_lexemes d]
  exact Option.some.inj hread

/-- The condition with a factor after its last `and`. -/
def restrict : Condition → Factor → Condition
  | .one d, f => .one (.and d f)
  | .or c d, f => .or c (.and d f)

/-- The condition with further ones after its last `and`, each in parentheses. -/
def restrictAll (c : Condition) (others : List Condition) : Condition :=
  others.foldl (fun c d => c.restrict (.group d)) c

theorem lexemes_restrict (c : Condition) (f : Factor) :
    (c.restrict f).lexemes = c.lexemes ++ .and :: f.lexemes := by
  cases c <;> simp [restrict, Condition.lexemes, Conjunction.lexemes]

theorem before_restrict (c : Condition) (f : Factor) : (c.restrict f).before = c.before := by
  cases c <;> rfl

theorem holds_iff (row : Atom → Prop) (c : Condition) :
    c.holds row ↔ (∃ b ∈ c.before, b.holds row) ∨ c.last.holds row := by
  cases c <;> simp [Condition.holds, before, last]

theorem holds_last_restrict (row : Atom → Prop) (c : Condition) (f : Factor) :
    (c.restrict f).last.holds row ↔ c.last.holds row ∧ f.holds row := by
  cases c <;> simp [restrict, last, Conjunction.holds]

/-- What is added is joined to what stands behind the last `or`, and not to what stands before
it. -/
theorem holds_restrictAll (c : Condition) (row : Atom → Prop) (others : List Condition) :
    (c.restrictAll others).holds row ↔
      (∃ b ∈ c.before, b.holds row) ∨ (c.last.holds row ∧ ∀ d ∈ others, d.holds row) := by
  induction others generalizing c with
  | nil =>
    rw [restrictAll, List.foldl_nil, holds_iff row c]
    simp
  | cons d others ih =>
    have hrest := ih (c.restrict (.group d))
    rw [before_restrict, holds_last_restrict, and_assoc] at hrest
    rw [List.forall_mem_cons]
    exact hrest

/-- A restricted condition says that all are true, unless what stands before the last `or` is
true and one of the others is not. -/
theorem holds_restrictAll_iff_forall (c : Condition) (row : Atom → Prop)
    (others : List Condition) :
    ((c.restrictAll others).holds row ↔ ∀ d ∈ c :: others, d.holds row) ↔
      ((∃ b ∈ c.before, b.holds row) → ∀ d ∈ others, d.holds row) := by
  rw [holds_restrictAll, List.forall_mem_cons, holds_iff row c]
  constructor
  · intro h hbefore
    exact (h.1 (.inl hbefore)).2
  · intro h
    constructor
    · rintro (hbefore | ⟨hlast, hothers⟩)
      · exact ⟨.inl hbefore, h hbefore⟩
      · exact ⟨.inr hlast, hothers⟩
    · rintro ⟨hbefore | hlast, hothers⟩
      · exact .inl hbefore
      · exact .inr ⟨hlast, hothers⟩

end Condition

end Harvest
