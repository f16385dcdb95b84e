/-!
# Paths

A path is a text whose names are separated by slashes. Names that are empty or a single
point do not count, except a point in front of all others. Joining does not normalise,
so a path is shown as it was put together.
-/

namespace Harvest.Path

/-- The path of `b` seen from `a`; a `b` that starts with a slash stands for itself. -/
def join (a b : String) : String :=
  match b.toList with
  | '/' :: _ => b
  | _ =>
    match a.toList.getLast? with
    | none => b
    | some '/' => a ++ b
    | some _ => a ++ "/" ++ b

/-- Cuts a text at its slashes. -/
def split : List Char → List (List Char)
  | [] => [[]]
  | c :: s =>
    if c = '/' then [] :: split s
    else
      match split s with
      | [] => [[c]]
      | name :: names => (c :: name) :: names

/-- The names of a path, the empty ones included. -/
def names (p : String) : List String := (split p.toList).map String.ofList

/-- The path starts at the root. -/
def isAbsolute (p : String) : Bool := p.toList.head? == some '/'

/-- What stands before the names of a path: a slash, a point or nothing. -/
def lead : List Char → List Char
  | '/' :: _ => ['/']
  | ['.'] => ['.']
  | '.' :: '/' :: _ => ['.']
  | _ => []

/-- The last name of a path in reverse, and the rest in reverse. -/
def cutLast (reversed : List Char) : List Char × List Char :=
  (reversed.takeWhile (· != '/'), (reversed.dropWhile (· != '/')).drop 1)

/-- Drops the names at the end that do not count from a reversed path. -/
def dropVoid (fuel : Nat) (reversed : List Char) : List Char :=
  match fuel with
  | 0 => reversed
  | fuel + 1 =>
    let (name, rest) := cutLast reversed
    if reversed.isEmpty || !(name.isEmpty || name == ['.']) then reversed else dropVoid fuel rest

/-- The path without its last name; the root and the empty path have none. -/
def parent? (p : String) : Option String :=
  let chars := p.toList
  let lead := lead chars
  let body := dropVoid (chars.length + 1) (chars.drop lead.length).reverse
  if body.isEmpty then if lead = ['.'] then some "" else none
  else
    let rest := dropVoid (chars.length + 1) (cutLast body).2
    some (String.ofList (lead ++ rest.reverse))

end Harvest.Path
