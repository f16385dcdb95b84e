import Harvest.Disk.Basic
import Harvest.Path

/-!
# Disks in memory

A disk as a value: which places hold a file and which a directory. It answers every
request as a disk does on which reading and writing as such never fail, so a program
over a disk can be run, and reasoned about, without one.
-/

namespace Harvest.Disk

/-- What a place holds. -/
inductive Entry
  | file (bytes : List UInt8)
  | directory
  deriving DecidableEq, Repr

/-- A place by the names that lead to it, the last one first. -/
abbrev Place := List String

/-- The places in use, and the place that relative paths start from. -/
structure Memory where
  entries : List (Place × Entry)
  home : Place
  deriving Repr

/-- The faults that tell that a path does not lead where it should. -/
inductive Obstacle
  | missing
  | occupied
  | notDirectory
  | directory
  | badName
  | longName
  deriving DecidableEq, Repr

/-- The text of an obstacle. -/
def Obstacle.message : Obstacle → String
  | .missing => "No such file or directory (os error 2)"
  | .occupied => "File exists (os error 17)"
  | .notDirectory => "Not a directory (os error 20)"
  | .directory => "Is a directory (os error 21)"
  | .badName => "file name contained an unexpected NUL byte"
  | .longName => "File name too long (os error 36)"

namespace Memory

/-- An empty disk. -/
def empty : Memory := ⟨[], []⟩

/-- What a place holds; the root and the home are directories. -/
def content? (m : Memory) (p : Place) : Option Entry :=
  if p.isEmpty || p == m.home then some .directory else m.entries.lookup p

/-- Puts an entry into a place. -/
def put (p : Place) (e : Entry) : List (Place × Entry) → List (Place × Entry)
  | [] => [(p, e)]
  | (q, old) :: rest => if q == p then (p, e) :: rest else (q, old) :: put p e rest

/-- The disk with an entry in a place. -/
def insert (m : Memory) (p : Place) (e : Entry) : Memory := { m with entries := put p e m.entries }

theorem lookup_put (p q : Place) (e : Entry) (entries : List (Place × Entry)) :
    (put p e entries).lookup q = if q = p then some e else entries.lookup q := by
  induction entries with
  | nil => by_cases h : q = p <;> simp [put, h, beq_eq_false_iff_ne.2, List.lookup_cons]
  | cons x entries ih =>
    obtain ⟨other, old⟩ := x
    by_cases ho : other = p
    · by_cases h : q = p <;> simp [put, ho, h, beq_eq_false_iff_ne.2, List.lookup_cons]
    · by_cases h : q = other
      · simp [put, ho, h]
      · simp [put, ho, beq_eq_false_iff_ne.2 h, List.lookup_cons, ih]

/-- A place holds what was put there; other places are left alone. -/
theorem content?_insert (m : Memory) (p q : Place) (e : Entry) (hp : p ≠ []) (hm : p ≠ m.home) :
    (m.insert p e).content? q = if q = p then some e else m.content? q := by
  by_cases h : q = p
  · subst h
    simp [content?, insert, lookup_put, hp, hm]
  · simp [content?, insert, lookup_put, h]

/-- The names of a path from its starting place, if it is one at all. -/
def start (m : Memory) (path : String) : Except Obstacle (Place × List String) :=
  if path.isEmpty then .error .missing
  else if path.toList.contains '\x00' then .error .badName
  else
    let names := Path.names path
    if names.any fun n => 255 < n.utf8ByteSize then .error .longName
    else .ok (if Path.isAbsolute path then [] else m.home, names)

/-- The name leads nowhere else. -/
def isVoid (name : String) : Bool := name.isEmpty || name == "."

/-- Follows names from a directory: the place they lead to. The last name need not be there. -/
def follow (m : Memory) (here : Place) : List String → Except Obstacle Place
  | [] => .ok here
  | name :: rest =>
    if isVoid name then follow m here rest
    else if name == ".." then follow m here.tail rest
    else
      match m.content? (name :: here) with
      | some .directory => follow m (name :: here) rest
      | some (.file _) => if rest.isEmpty then .ok (name :: here) else .error .notDirectory
      | none => if rest.isEmpty then .ok (name :: here) else .error .missing

/-- The place that a path leads to. -/
def place (m : Memory) (path : String) : Except Obstacle Place := do
  let (here, names) ← m.start path
  m.follow here names

/-- What a path leads to. -/
def find (m : Memory) (path : String) : Except Obstacle Entry := do
  let p ← m.place path
  match m.content? p with
  | some e => .ok e
  | none => .error .missing

/-- Makes the directories that names lead through. -/
def makeAlong (m : Memory) (here : Place) : List String → Except Obstacle Memory
  | [] => .ok m
  | name :: rest =>
    if isVoid name then makeAlong m here rest
    else if name == ".." then makeAlong m here.tail rest
    else
      match m.content? (name :: here) with
      | some .directory => makeAlong m (name :: here) rest
      | some (.file _) => .error (if rest.isEmpty then .occupied else .notDirectory)
      | none => makeAlong (m.insert (name :: here) .directory) (name :: here) rest

/-- Makes the directory of a path, and those it lies in. -/
def makeDirectories (m : Memory) (path : String) : Except Obstacle Memory :=
  if path.isEmpty then .ok m
  else do
    let (here, names) ← m.start path
    m.makeAlong here names

/-- Puts a file where a path leads. -/
def writeFile (m : Memory) (path : String) (content : List UInt8 → List UInt8) :
    Except Obstacle Memory := do
  let p ← m.place path
  match m.content? p with
  | some .directory => .error .directory
  | some (.file old) => .ok (m.insert p (.file (content old)))
  | none => .ok (m.insert p (.file (content [])))

/-- The names in a directory. -/
def namesIn (m : Memory) (p : Place) : List String :=
  m.entries.filterMap fun (q, _) =>
    match q with
    | [] => none
    | name :: parent => if parent == p then some name else none

/-- Removes what a path leads to, with all that lies in it. -/
def remove (m : Memory) (path : String) : Memory :=
  match m.place path with
  | .ok p => { m with entries := m.entries.filter fun (q, _) => !p.isSuffixOf q }
  | .error _ => m

/-- A fault for an obstacle. -/
def fault {α : Type} (r : Except Obstacle α) : Except StorageFault α :=
  r.mapError fun o => ⟨o.message⟩

/-- Makes a change if nothing stands in its way. -/
def change (f : Memory → Except Obstacle Memory) : StateM Memory (Except StorageFault Unit) :=
  fun m =>
    match f m with
    | .ok m' => (.ok (), m')
    | .error o => (.error ⟨o.message⟩, m)

/-- Answers a request. -/
def answer : (r : Request) → StateM Memory r.Reply
  | .read path => fun m =>
    (fault ((m.find path).map fun
      | .file bytes => ⟨bytes, none⟩
      | .directory => ⟨[], some Obstacle.directory.message⟩), m)
  | .write path bytes => change (·.writeFile path fun _ => bytes)
  | .append path bytes => change (·.writeFile path (· ++ bytes))
  | .makeDirectories path => change (·.makeDirectories path)
  | .list path => fun m =>
    (fault (do
      let p ← m.place path
      match m.content? p with
      | some .directory => .ok (m.namesIn p)
      | some (.file _) => .error .notDirectory
      | none => .error .missing), m)
  | .isDirectory path => fun m =>
    ((match m.find path with
      | .ok .directory => true
      | _ => false), m)
  | .isFile path => fun m =>
    ((match m.find path with
      | .ok (.file _) => true
      | _ => false), m)
  | .size path => fun m =>
    (fault ((m.find path).map fun
      | .file bytes => bytes.length
      | .directory => 0), m)

end Memory

end Harvest.Disk
