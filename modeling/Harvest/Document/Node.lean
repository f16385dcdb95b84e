/-!
# Documents as trees

A document text is read into a tree of lists and maps over scalar leaves. Reading is
total: where the text stops to follow its notation the tree has a `broken` leaf, and
the lists and maps around it are marked as cut. So everything before the fault can
still be examined, in the order of the text.
-/

namespace Harvest.Document

/-- A node of a tree over scalar leaves, with all that lies beneath it. The name of a member
is absent when the text has a key there that is no scalar; `complete` tells that a list or
map is not cut. -/
inductive Node (Leaf : Type) where
  | leaf (value : Leaf)
  | list (items : List (Node Leaf)) (complete : Bool)
  | map (members : List (Option String × Node Leaf)) (complete : Bool)
  | broken

namespace Node

variable {Leaf : Type}

mutual

/-- The node has no fault. -/
def isWhole : Node Leaf → Bool
  | .leaf _ => true
  | .list items complete => complete && areWhole items
  | .map members complete => complete && membersWhole members
  | .broken => false

/-- The nodes have no fault. -/
def areWhole : List (Node Leaf) → Bool
  | [] => true
  | t :: rest => t.isWhole && areWhole rest

/-- The members have no fault. -/
def membersWhole : List (Option String × Node Leaf) → Bool
  | [] => true
  | (_, t) :: rest => t.isWhole && membersWhole rest

end

end Node

end Harvest.Document
