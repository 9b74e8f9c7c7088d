import Piet.Files

/-! Names as paths: how the system finds a file from the folder in which the program runs. -/
namespace Piet

inductive Entry where
  | file (file : File)
  | folder

/-- Paths that lead down from the folder, with what lies at their ends. A folder on the way to an
entry needs no entry of its own. -/
abbrev Folder := List (List String × Entry)

inductive Place where
  | below (path : List String)
  /-- Above the folder, where nothing is known but that there are folders. -/
  | above

namespace Place

def parent : Place → Place
  | below [] => above
  | below path => below path.dropLast
  | above => above

end Place

namespace Folder

def entry? (f : Folder) (path : List String) : Option Entry :=
  match f.lookup path with
  | some entry => some entry
  | none => if path.isEmpty || f.any fun e => path.isPrefixOf e.1 then some .folder else none

def isFolder (f : Folder) : Place → Bool
  | .below path => (f.entry? path matches some .folder)
  | .above => true

def maxComponent : Nat := 255

def maxName : Nat := 4095

/-- Follow one component of a name. What is not a folder leads nowhere, not even to itself. -/
def follow (f : Folder) (place : Place) (component : String) : Except OpenError Place :=
  if !f.isFolder place then .error .notDirectory
  else if component = "" || component = "." then .ok place
  else if component = ".." then .ok place.parent
  else if maxComponent < component.utf8ByteSize then .error .nameTooLong
  else match place with
    | .above => .error .notFound
    | .below path =>
      if (f.entry? (path ++ [component])).isSome then .ok (.below (path ++ [component]))
      else .error .notFound

/-- The end of a name. One that begins with a slash is followed from the top. -/
def resolve (f : Folder) (name : String) : Except OpenError Place :=
  if name = "" then .error .notFound
  else if maxName < name.utf8ByteSize then .error .nameTooLong
  else (name.splitOn "/").foldlM f.follow (if name.startsWith "/" then .above else .below [])

/-- The files that a program finds when it runs in the folder. -/
def files (f : Folder) : Files := fun name =>
  (f.resolve name).bind fun
    | .above => .error .isDirectory
    | .below path =>
      match f.entry? path with
      | some (.file file) => .ok file
      | some .folder => .error .isDirectory
      | none => .error .notFound

end Folder
end Piet
