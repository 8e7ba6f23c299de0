import StackTemplate.Text.Quoted

/-! Paths as text with `/` between components. Joining never normalises, so a
message shows a path the way it was put together. -/
namespace StackTemplate.Path

/-- Paths that do not start at the root. -/
def isRelative : Text → Bool
  | '/' :: _ => false
  | _ => true

/-- A path as seen from a base directory. An absolute path stays as it is, and a
relative one is set off by exactly one `/`. -/
def join (base path : Text) : Text :=
  if isRelative path = false then path
  else if base.isEmpty || base.getLast? = some '/' then base ++ path
  else base ++ '/' :: path

/-- The text between the slashes, empty stretches included. -/
def components : Text → List Text
  | [] => [[]]
  | c :: rest =>
    if c = '/' then [] :: components rest
    else match components rest with
      | [] => [[c]]
      | first :: more => (c :: first) :: more

/-- Drops the slashes and single dots at the end of a reversed path. A dot that
is the whole path is kept, since it names a component. -/
def dropIdle : Text → Text
  | '/' :: rest => dropIdle rest
  | '.' :: '/' :: rest => dropIdle rest
  | reversed => reversed

/-- The path without its last component: the root and the empty path have none. -/
def parent? (path : Text) : Option Text :=
  let rooted := !isRelative path
  let kept := dropIdle path.reverse
  if kept.isEmpty then none
  else
    let above := dropIdle (kept.dropWhile (· ≠ '/'))
    if above.isEmpty && rooted then some ['/'] else some above.reverse

/-- A path that may be missing, as a log line shows it. -/
def quote? : Option Text → Text
  | none => "None".toList
  | some path => "Some(".toList ++ Text.quote path ++ [')']

end StackTemplate.Path
