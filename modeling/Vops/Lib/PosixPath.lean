import Mathlib.Data.List.Basic

/-!
# POSIX paths

`node:path` on POSIX, on the texts alone: nothing here looks at a file system.

* `PosixPath.resolve` — `path.resolve(base, path)` for an absolute `base`.
* `PosixPath.relative` — `path.relative(from, to)` for absolute paths.
* `PosixPath.basename`, `PosixPath.isAbsolute`.
-/

namespace PosixPath

/-- The parts between slashes. -/
def splitSlash (cs : List Char) : List (List Char) := cs.splitOn '/'

/-- Drop empty parts and `.`, and let `..` take the part before it away. -/
def normalize (parts : List (List Char)) : List (List Char) :=
  (parts.foldl (fun acc part =>
    if part = [] ∨ part = ['.'] then acc
    else if part = ['.', '.'] then acc.drop 1
    else part :: acc) []).reverse

/-- `path.isAbsolute(path)` -/
def isAbsolute (path : String) : Bool := path.toList.head? == some '/'

/-- The parts of an absolute path. -/
def parts (path : String) : List (List Char) := normalize (splitSlash path.toList)

/-- The text of an absolute path. -/
def ofParts (ps : List (List Char)) : String :=
  if ps = [] then "/" else String.ofList (ps.flatMap fun part => '/' :: part)

/-- `path.resolve(base, path)` -/
def resolve (base path : String) : String :=
  if isAbsolute path then ofParts (parts path)
  else ofParts (normalize (splitSlash base.toList ++ splitSlash path.toList))

/-- `path.join(base, ...names)` for an absolute base. -/
def join (base : String) (names : List String) : String :=
  ofParts (normalize (splitSlash base.toList ++ names.flatMap fun n => splitSlash n.toList))

/-- What is left of two lists behind their common start. -/
def dropCommon : List (List Char) → List (List Char) → List (List Char) × List (List Char)
  | a :: as, b :: bs => if a = b then dropCommon as bs else (a :: as, b :: bs)
  | as, bs => (as, bs)

/-- `path.relative(from, to)` for absolute paths, as its parts: a `..` for each part of `from` that
is left, then what is left of `to`. -/
def relative (base path : String) : List (List Char) :=
  let (up, down) := dropCommon (parts base) (parts path)
  up.map (fun _ => ['.', '.']) ++ down

/-- `path.basename(path)` for an absolute path. -/
def basename (path : String) : String := String.ofList ((parts path).getLast?.getD [])

end PosixPath
