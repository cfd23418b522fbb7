import PassScheduler.CommandLine.Host
import PassScheduler.Text.Pieces

/-!
Contract: files in memory, found by the rules of a disk.

A path is walked name by name. Every place on the way has to be a directory, a dot stays where it
is, and two dots lead one directory up. Empty names do not count, but a path that ends with a slash
can only mean a directory.

Owns:
- places, which lie below the working directory or below the root of the machine;
- trees of files, and what lies at a place;
- the walk along a path, and with it reading and writing;
- the host that keeps its files in a tree.

Does not own: links, permissions or devices other than the one that holds nothing.
-/

namespace PassScheduler.CommandLine

/-- A place, by the names on the way to it from the working directory or from the root. -/
inductive Place where
  | local (names : List String)
  | global (names : List String)
deriving DecidableEq, Repr

namespace Place

def child (name : String) : Place → Place
  | .local names => .local (names ++ [name])
  | .global names => .global (names ++ [name])

/-- The directory in which a place lies. Of what lies around the working directory nothing is
known, and the root lies in itself. -/
def parent : Place → Place
  | .local [] => .global []
  | .local names => .local names.dropLast
  | .global names => .global names.dropLast

/-- Whether another place is this one or lies below it. -/
def holds : Place → Place → Bool
  | .local outer, .local inner => outer.isPrefixOf inner
  | .global outer, .global inner => outer.isPrefixOf inner
  | _, _ => false

/-- Whether this is one of the two places from which all others are counted. -/
def isTop (place : Place) : Bool :=
  place = .local [] || place = .global []

end Place

/-- A path: where it starts, its names, and whether a slash ends it. -/
structure Path where
  start : Place
  names : List String
  endsInSlash : Bool
deriving DecidableEq, Repr

/-- No name may take more bytes. -/
def nameLimit : Nat := 255

/-- Every path has to take fewer bytes. -/
def pathLimit : Nat := 4096

namespace Path

def ofText (text : String) : Path where
  start := if text.toList.head? = some '/' then .global [] else .local []
  names := ((Text.pieces '/' text.toList).filter (· ≠ [])).map String.ofList
  endsInSlash := text.toList.getLast? = some '/'

/-- The path that a text spells, if it is one that can be walked. -/
def ofText? (text : String) : Except FileError Path :=
  if text = "" then .error .notFound
  else if pathLimit ≤ text.utf8ByteSize then .error .nameTooLong
  else .ok (ofText text)

end Path

/-- What lies at a place. A sink holds nothing, whatever is written to it. -/
inductive Node where
  | file (bytes : ByteArray)
  | directory
  | sink

/-- Files, directories and the places at which they lie. A directory need not be listed if
anything lies below it. -/
structure FileTree where
  entries : List (Place × Node)

namespace FileTree

/-- The tree of a machine with the given files and directories and nothing else but a sink. -/
def ofEntries (entries : List (String × Node)) : FileTree where
  entries :=
    (.global ["dev", "null"], .sink) ::
      entries.map fun entry => (.local (Path.ofText entry.1).names, entry.2)

def node? (tree : FileTree) (place : Place) : Option Node :=
  match tree.entries.find? fun entry => entry.1 = place with
  | some entry => some entry.2
  | none =>
      if place.isTop || tree.entries.any fun entry => place.holds entry.1 then
        some .directory
      else
        none

/-- The place to which a name leads from another, which has to be a directory. Whether anything
lies there is another matter. -/
def enter (tree : FileTree) (place : Place) (name : String) : Except FileError Place :=
  match tree.node? place with
  | none => .error .notFound
  | some .directory =>
      if name = "." then .ok place
      else if name = ".." then .ok place.parent
      else if nameLimit < name.utf8ByteSize then .error .nameTooLong
      else .ok (place.child name)
  | some _ => .error .notDirectory

/-- The place to which some names lead, one after the other. -/
def walk (tree : FileTree) : Place → List String → Except FileError Place
  | place, [] => .ok place
  | place, name :: rest =>
      match tree.enter place name with
      | .error error => .error error
      | .ok next => tree.walk next rest

/-- The text of a file. What a path with a slash at its end leads to is entered. -/
def read (tree : FileTree) (text : String) : Except FileError String := do
  let path ← Path.ofText? text
  let place ← tree.walk path.start (path.names ++ if path.endsInSlash then ["."] else [])
  match tree.node? place with
  | none => .error .notFound
  | some .directory => .error .isDirectory
  | some .sink => .ok ""
  | some (.file bytes) =>
      match String.fromUTF8? bytes with
      | some content => .ok content
      | none => .error .notText

/-- The tree with a node in the place of whatever lay there. -/
def put (tree : FileTree) (place : Place) (node : Node) : FileTree where
  entries := (place, node) :: tree.entries.filter fun entry => entry.1 ≠ place

/-- The tree after a text was written to a file, which is made if there is none. A path with a
slash at its end is taken for a directory before its last name is looked at. -/
def write (tree : FileTree) (text content : String) : Except FileError FileTree := do
  let path ← Path.ofText? text
  let around := path.names.dropLast
  let last := if path.endsInSlash then ["."] else path.names.drop around.length
  let place ← tree.walk path.start (around ++ last)
  match tree.node? place with
  | some .directory => .error .isDirectory
  | some .sink => .ok tree
  | _ => .ok (tree.put place (.file content.toUTF8))

/-- The host that keeps its files in a tree. -/
def host : Host (StateM FileTree) where
  read path := do
    let tree ← get
    pure (tree.read path)
  write path content := do
    let tree ← get
    match tree.write path content with
    | .error error => pure (.error error)
    | .ok tree => do
        set tree
        pure (.ok ())

end FileTree

end PassScheduler.CommandLine
