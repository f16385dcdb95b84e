import Harvest.Disk.Memory
import Harvest.Proofs.Text.Encoding

/-!
# What a program leaves alone on a disk

Where a path leads to does not depend on what the disk holds (`Memory.lead`). So a program changes a
file only by writing to a path that leads there (`Program.WritesTo.keepsFile`), and what it writes
is found behind its own paths (`Memory.content?_writeFile`, `Memory.find_of_writeFile`).
-/

namespace Harvest

namespace Path

/-- A joined path ends as its second part does. -/
theorem getLast?_join (a b : String) (h : b.toList ≠ []) :
    (join a b).toList.getLast? = b.toList.getLast? := by
  have hlast (s : List Char) : (s ++ b.toList).getLast? = b.toList.getLast? := by
    rw [List.getLast?_append, List.getLast?_eq_some_getLast h, Option.some_or]
  unfold join
  split
  · rfl
  · split
    · rfl
    · rw [String.toList_append, hlast]
    · rw [String.toList_append, hlast]

theorem split_concat (s : List Char) (c : Char) (hc : c ≠ '/') :
    ∃ names name, split (s ++ [c]) = names ++ [name ++ [c]] := by
  induction s with
  | nil => exact ⟨[], [], by simp [split, hc]⟩
  | cons d s ih =>
    obtain ⟨names, name, hsplit⟩ := ih
    rw [List.cons_append, split, hsplit]
    split
    · exact ⟨[] :: names, name, rfl⟩
    · cases names with
      | nil => exact ⟨[], d :: name, rfl⟩
      | cons first names => exact ⟨(d :: first) :: names, name, rfl⟩

end Path

namespace Disk

namespace Memory

/-- The place that names lead to from another one, whatever is there. -/
def walk (here : Place) : List String → Place
  | [] => here
  | name :: rest =>
    if isVoid name then walk here rest
    else if name == ".." then walk here.tail rest
    else walk (name :: here) rest

/-- The place that a path leads to. -/
def lead (home : Place) (path : String) : Place :=
  walk (if Path.isAbsolute path then [] else home) (Path.names path)

theorem walk_append (here : Place) (names others : List String) :
    walk here (names ++ others) = walk (walk here names) others := by
  induction names generalizing here with
  | nil => rfl
  | cons name names ih =>
    rw [List.cons_append, walk, walk]
    split
    · exact ih here
    · split
      · exact ih here.tail
      · exact ih (name :: here)

/-- A path that ends with a character of a name leads to a place of such a name. -/
theorem lead_of_getLast? (home : Place) (path : String) (c : Char) (hslash : c ≠ '/')
    (hpoint : c ≠ '.') (h : path.toList.getLast? = some c) :
    ∃ name above, lead home path = name :: above ∧ name.toList.getLast? = some c := by
  obtain ⟨s, hs⟩ := List.getLast?_eq_some_iff.1 h
  obtain ⟨names, name, hsplit⟩ := Path.split_concat s c hslash
  let last := String.ofList (name ++ [c])
  have hlast : last.toList.getLast? = some c := by
    rw [String.toList_ofList, List.getLast?_concat]
  have hnames : Path.names path = names.map String.ofList ++ [last] := by
    rw [Path.names, hs, hsplit, List.map_append]
    rfl
  -- a name that ends so is neither empty nor made of points
  have hne (other : String) (h : other.toList.getLast? ≠ some c) : last ≠ other :=
    fun heq => h (heq ▸ hlast)
  have hvoid : isVoid last = false := by
    have hempty : last ≠ "" := hne "" (by simp)
    have hhere : last ≠ "." := hne "." fun h => hpoint (Option.some.inj h).symm
    simp [isVoid, hempty, hhere]
  have hup : (last == "..") = false :=
    beq_false_of_ne (hne ".." fun h => hpoint (Option.some.inj h).symm)
  have hlead : lead home path = last :: walk (if Path.isAbsolute path then [] else home)
      (names.map String.ofList) := by
    rw [lead, hnames, walk_append, walk, hvoid, hup]
    rfl
  exact ⟨last, _, hlead, hlast⟩

variable {m m' : Memory}

theorem eq_walk_of_follow {here p : Place} {names : List String}
    (h : m.follow here names = .ok p) : p = walk here names := by
  induction names generalizing here with
  | nil =>
    cases h
    rfl
  | cons name rest ih =>
    rw [walk]
    rw [follow] at h
    by_cases hvoid : isVoid name
    · rw [if_pos hvoid] at h ⊢
      exact ih h
    rw [if_neg hvoid] at h ⊢
    by_cases hup : name == ".."
    · rw [if_pos hup] at h ⊢
      exact ih h
    rw [if_neg hup] at h ⊢
    have hend (o : Obstacle)
        (h : (if rest.isEmpty then .ok (name :: here) else .error o) = Except.ok p) :
        p = walk (name :: here) rest := by
      cases rest with
      | nil =>
        cases h
        rfl
      | cons _ _ => cases h
    split at h
    · exact ih h
    · exact hend _ h
    · exact hend _ h

theorem eq_lead_of_place {path : String} {p : Place} (h : m.place path = .ok p) :
    p = lead m.home path := by
  cases hstart : m.start path with
  | error o =>
    rw [place, hstart] at h
    cases h
  | ok begun =>
    rw [place, hstart] at h
    have hp := eq_walk_of_follow h
    unfold Memory.start at hstart
    split at hstart
    · cases hstart
    split at hstart
    · cases hstart
    dsimp only at hstart
    split at hstart
    · cases hstart
    · cases hstart
      exact hp

theorem content?_of_find {path : String} {e : Entry} (h : m.find path = .ok e) :
    m.content? (lead m.home path) = some e := by
  cases hplace : m.place path with
  | error o =>
    rw [find, hplace] at h
    cases h
  | ok p =>
    rw [← eq_lead_of_place hplace]
    rw [find, hplace] at h
    cases hcontent : m.content? p with
    | none =>
      simp only [hcontent, bind, Except.bind] at h
      cases h
    | some entry =>
      simp only [hcontent, bind, Except.bind] at h
      cases h
      rfl

/-- A file is written where its path leads, in place of the file that is there or as a new one. -/
theorem content?_writeFile {path : String} {content : List UInt8 → List UInt8}
    (h : m.writeFile path content = .ok m') :
    m'.home = m.home ∧ ∃ old, (m.content? (lead m.home path)).getD (.file []) = .file old ∧
      ∀ q, m'.content? q =
        if q = lead m.home path then some (.file (content old)) else m.content? q := by
  cases hplace : m.place path with
  | error o =>
    rw [writeFile, hplace] at h
    cases h
  | ok p =>
    rw [← eq_lead_of_place hplace]
    rw [writeFile, hplace] at h
    -- neither the root nor the home is written, they hold a directory
    have hinsert (old : List UInt8) (hold : (m.content? p).getD (.file []) = .file old) :
        ∀ q, (m.insert p (.file (content old))).content? q =
          if q = p then some (.file (content old)) else m.content? q := by
      intro q
      refine content?_insert m p q _ ?_ ?_
      all_goals
        rintro rfl
        simp [content?] at hold
    cases hcontent : m.content? p with
    | none =>
      simp only [hcontent, bind, Except.bind] at h
      cases h
      exact ⟨rfl, [], rfl, hinsert [] (by rw [hcontent]; rfl)⟩
    | some entry =>
      cases entry with
      | file old =>
        simp only [hcontent, bind, Except.bind] at h
        cases h
        exact ⟨rfl, old, rfl, hinsert old (by rw [hcontent]; rfl)⟩
      | directory =>
        simp only [hcontent, bind, Except.bind] at h
        cases h

/-- Names lead to the same place once there is a file, if there was no directory. -/
theorem follow_of_file {here p : Place} {names : List String} {bytes : List UInt8}
    (h : m.follow here names = .ok p) (hp : m.content? p ≠ some .directory)
    (hafter : ∀ q, m'.content? q = if q = p then some (.file bytes) else m.content? q) :
    m'.follow here names = .ok p := by
  induction names generalizing here with
  | nil => exact h
  | cons name rest ih =>
    rw [follow] at h ⊢
    by_cases hvoid : isVoid name
    · rw [if_pos hvoid] at h ⊢
      exact ih h
    rw [if_neg hvoid] at h ⊢
    by_cases hup : name == ".."
    · rw [if_pos hup] at h ⊢
      exact ih h
    rw [if_neg hup] at h ⊢
    by_cases hhere : name :: here = p
    · -- nothing but the last name leads to the file
      subst hhere
      rw [hafter, if_pos rfl]
      cases hcontent : m.content? (name :: here) with
      | none =>
        rw [hcontent] at h
        cases rest with
        | nil => rfl
        | cons _ _ => cases h
      | some entry =>
        cases entry with
        | file old =>
          rw [hcontent] at h
          cases rest with
          | nil => rfl
          | cons _ _ => cases h
        | directory => exact absurd hcontent hp
    · rw [hafter, if_neg hhere]
      cases hcontent : m.content? (name :: here) with
      | none =>
        rw [hcontent] at h
        exact h
      | some entry =>
        rw [hcontent] at h
        cases entry with
        | file old => exact h
        | directory => exact ih h

/-- A file that was written is found behind its path. -/
theorem find_of_writeFile {path : String} {content : List UInt8 → List UInt8}
    (h : m.writeFile path content = .ok m') :
    ∃ old, (m.content? (lead m.home path)).getD (.file []) = .file old ∧
      m'.find path = .ok (.file (content old)) := by
  obtain ⟨hhome, old, hold, hafter⟩ := content?_writeFile h
  refine ⟨old, hold, ?_⟩
  cases hplace : m.place path with
  | error o =>
    rw [writeFile, hplace] at h
    cases h
  | ok p =>
    rw [← eq_lead_of_place hplace] at hold hafter
    have hfile : m.content? p ≠ some .directory := by
      intro hdirectory
      rw [hdirectory] at hold
      cases hold
    have hplace' : m'.place path = .ok p := by
      cases hstart : m.start path with
      | error o =>
        rw [place, hstart] at hplace
        cases hplace
      | ok begun =>
        rw [place, hstart] at hplace
        rw [place, show m'.start path = m.start path by rw [start, start, hhome], hstart]
        exact follow_of_file hplace hfile hafter
    rw [find, hplace']
    simp [bind, Except.bind, hafter]

/-- A file that is found can be written. -/
theorem exists_writeFile_of_find {path : String} {old : List UInt8}
    (h : m.find path = .ok (.file old)) (content : List UInt8 → List UInt8) :
    ∃ m', m.writeFile path content = .ok m' ∧ m'.find path = .ok (.file (content old)) := by
  suffices hwrite : ∃ m', m.writeFile path content = .ok m' by
    obtain ⟨m', hm'⟩ := hwrite
    obtain ⟨old', hold', hfind⟩ := find_of_writeFile hm'
    rw [content?_of_find h] at hold'
    cases hold'
    exact ⟨m', hm', hfind⟩
  cases hplace : m.place path with
  | error o =>
    rw [find, hplace] at h
    cases h
  | ok p =>
    have hcontent : m.content? p = some (.file old) := by
      rw [eq_lead_of_place hplace]
      exact content?_of_find h
    rw [writeFile, hplace]
    simp [bind, Except.bind, hcontent]

/-- The file in a place, if there is one, is as it was. -/
structure KeepsFile (p : Place) (before after : Memory) : Prop where
  home : after.home = before.home
  file : ∀ bytes, before.content? p = some (.file bytes) → after.content? p = some (.file bytes)

theorem KeepsFile.refl (p : Place) (m : Memory) : KeepsFile p m m := ⟨rfl, fun _ h => h⟩

theorem KeepsFile.trans {p : Place} {m m' m'' : Memory} (h : KeepsFile p m m')
    (h' : KeepsFile p m' m'') : KeepsFile p m m'' :=
  ⟨h'.home.trans h.home, fun bytes hfile => h'.file bytes (h.file bytes hfile)⟩

theorem keepsFile_makeAlong (p : Place) {here : Place} {names : List String}
    (h : m.makeAlong here names = .ok m') : KeepsFile p m m' := by
  induction names generalizing m here with
  | nil =>
    cases h
    exact .refl p _
  | cons name rest ih =>
    rw [makeAlong] at h
    split at h
    · exact ih h
    split at h
    · exact ih h
    split at h
    · exact ih h
    · cases h
    · rename_i hnone
      have hroot : name :: here ≠ [] := List.cons_ne_nil name here
      have hhome : name :: here ≠ m.home := by
        intro hhome
        rw [hhome] at hnone
        simp [content?] at hnone
      have hinsert : KeepsFile p m (m.insert (name :: here) .directory) := by
        refine ⟨rfl, fun bytes hfile => ?_⟩
        have hother : p ≠ name :: here := by
          rintro rfl
          rw [hnone] at hfile
          cases hfile
        rw [content?_insert m _ p _ hroot hhome, if_neg hother, hfile]
      exact hinsert.trans (ih h)

theorem keepsFile_makeDirectories (p : Place) {path : String}
    (h : m.makeDirectories path = .ok m') : KeepsFile p m m' := by
  rw [makeDirectories] at h
  split at h
  · cases h
    exact .refl p m
  · cases hstart : m.start path with
    | error o =>
      rw [hstart] at h
      cases h
    | ok start =>
      rw [hstart] at h
      exact keepsFile_makeAlong p h

theorem keepsFile_writeFile {p : Place} {path : String} {content : List UInt8 → List UInt8}
    (hp : lead m.home path ≠ p) (h : m.writeFile path content = .ok m') : KeepsFile p m m' := by
  obtain ⟨hhome, old, -, hcontent⟩ := content?_writeFile h
  refine ⟨hhome, fun bytes hfile => ?_⟩
  rw [hcontent, if_neg hp.symm, hfile]

end Memory

/-- The path to which a request writes a file. -/
def Request.target? : Request → Option String
  | .write path _ => some path
  | .append path _ => some path
  | _ => none

theorem Memory.keepsFile_answer {p : Place} {m : Memory} (r : Request)
    (h : ∀ path ∈ r.target?, lead m.home path ≠ p) : KeepsFile p m (answer r m).2 := by
  have hchange (f : Memory → Except Obstacle Memory)
      (hf : ∀ m', f m = .ok m' → KeepsFile p m m') : KeepsFile p m (change f m).2 := by
    unfold change
    split
    · exact hf _ ‹_›
    · exact .refl p m
  cases r with
  | write path bytes => exact hchange _ fun _ => keepsFile_writeFile (h path rfl)
  | append path bytes => exact hchange _ fun _ => keepsFile_writeFile (h path rfl)
  | makeDirectories path => exact hchange _ fun _ => keepsFile_makeDirectories p
  | _ => exact .refl p m

/-- The home stays, since there is always a file that is not written to. -/
theorem Memory.home_answer (r : Request) (m : Memory) : (answer r m).2.home = m.home :=
  (keepsFile_answer (p := "" :: lead m.home (r.target?.getD "")) r fun path hpath => by
    rw [Option.mem_def.1 hpath]
    exact (List.cons_ne_self _ _).symm).home

end Disk

namespace Program

open Disk (Memory Place)

variable {α β : Type}

/-- What a program is done with on a disk in memory, and the disk then. -/
def onDisk (p : Program Disk.service α) (m : Memory) : α × Memory := (p.run Memory.answer).run m

theorem onDisk_bind (p : Program Disk.service α) (f : α → Program Disk.service β) (m : Memory) :
    (p.bind f).onDisk m = (f (p.onDisk m).1).onDisk (p.onDisk m).2 := by
  induction p generalizing m with
  | done value => rfl
  | ask r next ih => exact ih _ _

theorem exists_trace_onDisk (p : Program Disk.service α) (m : Memory) :
    ∃ log, Trace p log (p.onDisk m).1 := by
  induction p generalizing m with
  | done value => exact ⟨[], .done value⟩
  | ask r next ih =>
    obtain ⟨log, ht⟩ := ih (Memory.answer r m).1 (Memory.answer r m).2
    exact ⟨_, .ask r next _ log _ ht⟩

@[simp] theorem home_onDisk (p : Program Disk.service α) (m : Memory) :
    (p.onDisk m).2.home = m.home := by
  induction p generalizing m with
  | done value => rfl
  | ask r next ih => exact (ih _ _).trans (Memory.home_answer r m)

/-- The program writes files to no other path. -/
def WritesTo (path : String) : Program Disk.service α → Prop
  | .done _ => True
  | .ask r next => (∀ target ∈ r.target?, target = path) ∧ ∀ reply, (next reply).WritesTo path

namespace WritesTo

variable {path : String}

theorem bind {p : Program Disk.service α} {f : α → Program Disk.service β} (h : p.WritesTo path)
    (hf : ∀ a, (f a).WritesTo path) : (p.bind f).WritesTo path := by
  induction p with
  | done value => exact hf value
  | ask r next ih => exact ⟨h.1, fun reply => ih reply (h.2 reply)⟩

theorem ofReply (r : Disk.Request) (f : r.Reply → Program Disk.service α)
    (h : ∀ target ∈ r.target?, target = path) (hf : ∀ reply, (f reply).WritesTo path) :
    ((request (S := Disk.service) r).bind f).WritesTo path :=
  ⟨h, hf⟩

/-- Two programs over the disk in sequence. -/
theorem andThen {x : Storing α} {f : α → Storing β} (h : WritesTo path x)
    (hf : ∀ a, WritesTo path (f a)) : WritesTo path (x >>= f : Storing β) :=
  bind h fun
    | .ok a => hf a
    | .error _ => trivial

/-- Files elsewhere are kept. -/
theorem keepsFile {p : Place} {prog : Program Disk.service α} {m : Memory}
    (h : prog.WritesTo path) (hp : Memory.lead m.home path ≠ p) :
    Memory.KeepsFile p m (prog.onDisk m).2 := by
  induction prog generalizing m with
  | done value => exact .refl p m
  | ask r next ih =>
    have hanswer : Memory.KeepsFile p m (Memory.answer r m).2 :=
      Memory.keepsFile_answer r fun target htarget => by rwa [h.1 target htarget]
    refine hanswer.trans (ih _ (h.2 _) ?_)
    rwa [hanswer.home]

end WritesTo

end Program

namespace Storing

open Disk (Memory)

variable {α β : Type} {m m' : Memory}

/-- A program over the disk that ends well went well at its first step. -/
theorem ok_of_onDisk_bind {x : Storing α} {f : α → Storing β} {b : β}
    (h : Program.onDisk (x >>= f : Storing β) m = (.ok b, m')) :
    ∃ a middle, Program.onDisk x m = (.ok a, middle) ∧
      Program.onDisk (f a) middle = (.ok b, m') := by
  have hrest := (Program.onDisk_bind x (ExceptT.bindCont f) m).symm.trans h
  rcases hx : Program.onDisk x m with ⟨e | a, middle⟩
  · rw [hx] at hrest
    cases hrest
  · rw [hx] at hrest
    exact ⟨a, middle, rfl, hrest⟩

theorem eq_ok_of_change {f : Memory → Except Disk.Obstacle Memory}
    (h : ((Memory.change f m).1.mapError ExtractError.storage, (Memory.change f m).2) =
      (.ok (), m')) : f m = .ok m' := by
  unfold Memory.change at h
  cases hf : f m with
  | error o =>
    rw [hf] at h
    cases h
  | ok changed =>
    rw [hf] at h
    cases h
    rfl

theorem writeFile_of_write {path : String} {bytes : List UInt8}
    (h : Program.onDisk (write path bytes) m = (.ok (), m')) :
    m.writeFile path (fun _ => bytes) = .ok m' :=
  eq_ok_of_change (f := fun m => m.writeFile path fun _ => bytes) h

theorem writeFile_of_append {path : String} {bytes : List UInt8}
    (h : Program.onDisk (append path bytes) m = (.ok (), m')) :
    m.writeFile path (· ++ bytes) = .ok m' :=
  eq_ok_of_change (f := fun m => m.writeFile path (· ++ bytes)) h

theorem content?_of_size {path : String} {n : Nat}
    (h : Program.onDisk (size path) m = (.ok n, m')) :
    m' = m ∧ ∃ e, m.content? (Memory.lead m.home path) = some e ∧ n = match e with
      | .file bytes => bytes.length
      | .directory => 0 := by
  have h : ((Memory.fault ((m.find path).map fun
    | .file bytes => bytes.length
    | .directory => 0)).mapError ExtractError.storage, m) = (.ok n, m') := h
  cases hfind : m.find path with
  | error o =>
    rw [hfind] at h
    cases h
  | ok e =>
    rw [hfind] at h
    cases h
    exact ⟨rfl, e, Memory.content?_of_find hfind, rfl⟩

/-- Behind a program that ends well the second one goes on. -/
theorem onDisk_bind_ok {x : Storing α} {f : α → Storing β} {a : α}
    (h : Program.onDisk x m = (.ok a, m')) :
    Program.onDisk (x >>= f : Storing β) m = Program.onDisk (f a) m' := by
  refine (Program.onDisk_bind x (ExceptT.bindCont f) m).trans ?_
  rw [h]
  rfl

theorem onDisk_isFile (path : String) (m : Memory) :
    Program.onDisk (isFile path) m =
      (.ok (match m.find path with | .ok (.file _) => true | _ => false), m) :=
  rfl

theorem onDisk_isDirectory (path : String) (m : Memory) :
    Program.onDisk (isDirectory path) m =
      (.ok (match m.find path with | .ok .directory => true | _ => false), m) :=
  rfl

theorem onDisk_list {path : String} {place : Disk.Place} (hplace : m.place path = .ok place)
    (hcontent : m.content? place = some .directory) :
    Program.onDisk (list path) m = (.ok (m.namesIn place), m) := by
  have hanswer : Memory.answer (.list path) m = (.ok (m.namesIn place), m) := by
    simp only [Memory.answer, hplace, hcontent, bind, Except.bind]
    rfl
  change ((Memory.answer (.list path) m).1.mapError ExtractError.storage,
    (Memory.answer (.list path) m).2) = _
  rw [hanswer]
  rfl

theorem onDisk_read {path : String} {bytes : List UInt8} (h : m.find path = .ok (.file bytes)) :
    Program.onDisk (read path) m = (.ok ⟨bytes, none⟩, m) := by
  change ((Memory.fault ((m.find path).map _)).mapError ExtractError.storage, m) = _
  rw [h]
  rfl

theorem onDisk_append {path : String} {old : List UInt8} (h : m.find path = .ok (.file old))
    (bytes : List UInt8) :
    ∃ m', Program.onDisk (append path bytes) m = (.ok (), m') ∧
      m'.find path = .ok (.file (old ++ bytes)) := by
  obtain ⟨m', hwrite, hfind⟩ := Memory.exists_writeFile_of_find h (· ++ bytes)
  refine ⟨m', ?_, hfind⟩
  change ((Memory.change (·.writeFile path (· ++ bytes)) m).1.mapError ExtractError.storage,
    (Memory.change (·.writeFile path (· ++ bytes)) m).2) = _
  rw [Memory.change, hwrite]
  rfl

theorem onDisk_size {path : String} {bytes : List UInt8} (h : m.find path = .ok (.file bytes)) :
    Program.onDisk (size path) m = (.ok bytes.length, m) := by
  change ((Memory.fault ((m.find path).map _)).mapError ExtractError.storage, m) = _
  rw [h]
  rfl

/-- A file that was written as a text is read as this text. -/
theorem onDisk_readText {path text : String}
    (h : m.find path = .ok (.file (Utf8.encodeString text))) :
    Program.onDisk (readText path) m = (.ok text, m) := by
  have hdecode : Utf8.decodeString (Utf8.encodeString text) = .ok text := by
    rw [Utf8.encodeString, Utf8.decodeString_encode, String.ofList_toList]
  rw [readText, onDisk_bind_ok (onDisk_read h)]
  dsimp only
  rw [hdecode]
  rfl

end Storing

end Harvest
