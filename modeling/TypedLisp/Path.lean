import TypedLisp.Text.Lines

/-! Slash-separated paths, as text. -/

set_option autoImplicit false

namespace TypedLisp.Path

/-- The names between slashes; repeated and trailing slashes name nothing. -/
def segments (path : String) : List String :=
  ((Text.split '/' path.toList).filter (· ≠ [])).map String.ofList

def isAbsolute (path : String) : Bool :=
  path.toList.head? == some '/'

/-- The names that matter for comparing paths: a dot does so only in front of a relative path. -/
def names (path : String) : List String :=
  match isAbsolute path, segments path with
  | false, "." :: rest => "." :: rest.filter (· ≠ ".")
  | _, names => names.filter (· ≠ ".")

def same (first second : String) : Bool :=
  isAbsolute first == isAbsolute second && names first == names second

def join (directory name : String) : String :=
  if isAbsolute name || directory.isEmpty then name
  else if directory.toList.getLast? == some '/' then directory ++ name
  else directory ++ "/" ++ name

def parents (path : String) : List String :=
  let names := names path
  let root := if isAbsolute path then "/" else ""
  let above := (List.range names.length).reverse.map fun count =>
    root ++ "/".intercalate (names.take count)
  above.filter (· ≠ "")

/-- The part of a name before its last dot, if something stands before it. -/
def dropExtension (name : List Char) : List Char :=
  match name.reverse.dropWhile (· ≠ '.') with
  | [] | [_] => name
  | _ :: before => before.reverse

def stem? (path : String) : Option String :=
  match (names path).getLast? with
  | none | some "." | some ".." => none
  | some name => some (String.ofList (dropExtension name.toList))

end TypedLisp.Path
