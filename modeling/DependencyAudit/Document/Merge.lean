import DependencyAudit.Document.Tree

/-!
Laying one table over another. Where both hold a table under a key the tables
are laid over each other in turn; anywhere else the upper entry stands. Keys of
the lower table keep their places, new keys follow in the order of the upper.
-/

namespace DependencyAudit

mutual

/-- What stands under a key that holds `base` below and the given tree above. -/
def Tree.over (base : Tree) : Tree → Tree
  | .table upper =>
    match base with
    | .table lower => .table (Fields.over lower upper)
    | _ => .table upper
  | t => t

def Fields.over (base : Fields) : List (String × Tree) → Fields
  | [] => base
  | (key, value) :: rest =>
    let entry :=
      match Fields.find? key base with
      | some below => Tree.over below value
      | none => value
    Fields.over (Fields.put key entry base) rest

end

namespace Tree

def at? : Tree → List String → Option Tree
  | t, [] => some t
  | .table fields, key :: path => (Fields.find? key fields).bind (at? · path)
  | _, _ :: _ => none

end Tree
end DependencyAudit
