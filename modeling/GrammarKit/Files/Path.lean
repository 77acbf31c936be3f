/-!
# Paths

A path is a text whose segments stand between slashes.  Empty segments and segments `.` add
nothing, and `..` goes up.
-/

namespace GrammarKit.Path

/-- Whether a path starts where the program was started, rather than at the top. -/
def isRelative (path : String) : Bool :=
  path.toList.head? != some '/'

/-- The path that leads to `name` from the directory `dir`. -/
def join (dir name : String) : String :=
  if !isRelative name then name
  else if dir.isEmpty || dir.toList.getLast? == some '/' then dir ++ name
  else dir ++ "/" ++ name

/-- A path written backwards, without what adds nothing at its end. -/
def dropTrailing : List Char → List Char
  | '/' :: rest => if rest.isEmpty then ['/'] else dropTrailing rest
  | '.' :: '/' :: rest => if rest.isEmpty then ['/'] else dropTrailing rest
  | path => path

/-- The directory of the last segment.  Neither the empty path nor the top has one. -/
def parent? (path : String) : Option String :=
  match dropTrailing path.toList.reverse with
  | [] => none
  | ['/'] => none
  | trimmed =>
    match trimmed.dropWhile (· != '/') with
    | [] => some ""
    | rest => some (String.ofList (dropTrailing rest).reverse)

/-- Whether a file name has the given extension behind a dot that does not start it. -/
def hasExtension (extension name : String) : Bool :=
  ('.' :: extension.toList).isSuffixOf name.toList && extension.length + 1 < name.length

/-- The segments of a path from `pending` on, which is the start of the first one backwards. -/
def segmentsFrom (pending : List Char) : List Char → List String
  | [] => [String.ofList pending.reverse]
  | '/' :: rest => String.ofList pending.reverse :: segmentsFrom [] rest
  | c :: rest => segmentsFrom (c :: pending) rest

def segments (path : String) : List String :=
  segmentsFrom [] path.toList

end GrammarKit.Path
