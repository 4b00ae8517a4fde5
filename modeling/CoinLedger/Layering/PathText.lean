/-!
# Paths of files

The path of a file is kept as it was put together, for it is shown in messages: joining appends a
path to a directory unless it starts at the root, and the parent of a path is the text in front of
its last component. A component `.` between others means nothing, so it is passed over at the ends.

## Main definitions

* `join`, `parent`, `stem?` — a directory with a path below it, and the parts of a path.
* `below?` — the path of a file as seen from a directory.
-/

namespace CoinLedger.Layering.PathText

/-- Whether a path starts at the root. -/
def isAbsolute (path : List Char) : Bool := path.head? = some '/'

/-- A path below a directory; one that starts at the root stands for itself. -/
def join (directory path : List Char) : List Char :=
  if isAbsolute path then path
  else if directory = [] || directory.getLast? = some '/' then directory ++ path
  else directory ++ '/' :: path

/-- A reversed path without separators and `.` at its end; a lone root stays. -/
def trimReversed : List Char → List Char
  | ['/'] => ['/']
  | '/' :: rest => trimReversed rest
  | '.' :: '/' :: rest => trimReversed ('/' :: rest)
  | path => path

def lastComponent (path : List Char) : List Char :=
  ((trimReversed path.reverse).takeWhile (· ≠ '/')).reverse

/-- What stands in front of the last component of a path. -/
def parent (path : List Char) : List Char :=
  (trimReversed ((trimReversed path.reverse).dropWhile (· ≠ '/'))).reverse

/-- The last component without what follows its last dot, the leading dot excepted. -/
def stem? (path : List Char) : Option (List Char) :=
  match lastComponent path with
  | [] => none
  | ['.', '.'] => none
  | c :: rest =>
    if rest.contains '.' then
      some (c :: ((rest.reverse.dropWhile (· ≠ '.')).drop 1).reverse)
    else some (c :: rest)

/-- A path without separators and `.` at its start. -/
def trimStart : List Char → List Char
  | '/' :: rest => trimStart rest
  | ['.'] => []
  | '.' :: '/' :: rest => trimStart rest
  | path => path

/-- The components of a path; the last one is `.` if the path ends in a separator, for then it means
a directory. -/
def components (path : List Char) : List (List Char) :=
  let parts := path.splitOn '/'
  parts.filter (· ≠ []) ++ (if parts.getLast? = some [] then [['.']] else [])

/-- What is left of a path behind some components. -/
def dropComponents : List (List Char) → List Char → Option (List Char)
  | [], path => some (trimStart path)
  | c :: rest, path =>
    let path := trimStart path
    if c = ['.'] then dropComponents rest path
    else if path.takeWhile (· ≠ '/') = c then dropComponents rest (path.dropWhile (· ≠ '/'))
    else none

def below? (directory path : List Char) : Option (List Char) :=
  if isAbsolute directory = isAbsolute path then dropComponents (components directory) path
  else none

end CoinLedger.Layering.PathText
