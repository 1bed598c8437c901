import LinkedNotes.Path.Basic

/-!
# Clean paths and relative paths

A clean path has no `.`, and a `..` only at the start of a path without a root. Cleaning works on
the components alone and never looks at files, so a `..` after a link is not followed.
-/

namespace LinkedNotes.Path

/-- Adds a component to the reversed components of a clean path. A `..` takes the last name away,
is lost at the root, and otherwise stays. -/
def cleanStep (done : List Component) : Component → List Component
  | .here => done
  | .up =>
    match done with
    | .name _ :: rest => rest
    | _ => if done.getLast? = some .root then done else .up :: done
  | .root => [.root]
  | .name text => .name text :: done

/-- The components of the clean form of a path. -/
def cleanComponents (parts : List Component) : List Component :=
  (parts.foldl cleanStep []).reverse

/-- The clean form of a path. -/
def clean (path : Path) : Path :=
  ofComponents (cleanComponents path.components)

/-- The components after those that both lists start with. -/
def dropCommon : List Component → List Component → List Component × List Component
  | a :: s, b :: t => if a = b then dropCommon s t else (a :: s, b :: t)
  | s, t => (s, t)

/-- The path of `target` as seen from the directory `base`: up from what only the base has, then
down to the target. A target with a root that the base does not share stands for itself. -/
def relative (base target : Path) : Path :=
  match dropCommon (cleanComponents base.components) (cleanComponents target.components) with
  | (_, .root :: rest) => ofComponents (.root :: rest)
  | (above, below) => ofComponents (above.map (fun _ => .up) ++ below)

end LinkedNotes.Path
