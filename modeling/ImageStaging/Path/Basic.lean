import ImageStaging.Text.Utf8

/-!
# Paths

A path is a byte string whose meaning comes from its slashes. Reading it as components forgets
repeated slashes and every `.` but a leading one; joining and taking the parent keep the spelling
of what they leave in place. Nothing here looks at a file system.
-/

namespace ImageStaging

structure Path where
  bytes : Bytes
  deriving DecidableEq, Repr, Inhabited

namespace Path

def slash : UInt8 := 0x2F

def dot : UInt8 := 0x2E

def ofText (text : Text) : Path :=
  ⟨Utf8.encode text⟩

def ofString (text : String) : Path :=
  ofText text.toList

/-- The path as it is shown to a reader. -/
def display (path : Path) : String :=
  String.ofList (Utf8.decodeLossy path.bytes)

def isAbsolute (path : Path) : Bool :=
  path.bytes.head? = some slash

def endsWithSlash (path : Path) : Bool :=
  path.bytes.getLast? = some slash

inductive Component
  | root
  | current
  | parent
  | name (bytes : Bytes)
  deriving DecidableEq, Repr

def Component.ofPiece (piece : Bytes) : Option Component :=
  if piece = [] || piece = [dot] then none
  else if piece = [dot, dot] then some .parent
  else some (.name piece)

def pieces (path : Path) : List Bytes :=
  path.bytes.splitOn slash

def components (path : Path) : List Component :=
  let body := path.pieces.filterMap Component.ofPiece
  if path.isAbsolute then .root :: body
  else if path.pieces.head? = some [dot] then .current :: body
  else body

/-- The second path as seen from the first: an absolute path stands for itself. -/
def join (base path : Path) : Path :=
  if path.isAbsolute then path
  else if base.bytes = [] || base.endsWithSlash then ⟨base.bytes ++ path.bytes⟩
  else ⟨base.bytes ++ slash :: path.bytes⟩

/-- Slashes and `.` pieces that stand after the last proper component. -/
def dropSilentEnd (reversed : List Bytes) : List Bytes :=
  reversed.dropWhile fun piece => (Component.ofPiece piece).isNone

/-- The part of a path that is never dropped with a component, and the pieces that follow it. -/
def anchored (path : Path) : Bytes × List Bytes :=
  match path.bytes with
  | first :: rest =>
    if first = slash then ([slash], rest.splitOn slash)
    else if path.pieces.head? = some [dot] then ([dot], rest.splitOn slash)
    else ([], path.pieces)
  | [] => ([], [])

/-- The path without its last component, unless it has none or is the root. -/
def parent? (path : Path) : Option Path :=
  let (anchor, body) := path.anchored
  match dropSilentEnd body.reverse with
  | _ :: above =>
    some ⟨anchor ++ [slash].intercalate (dropSilentEnd above).reverse⟩
  | [] => if anchor = [dot] then some ⟨[]⟩ else none

/-- The last component, if it is a name. -/
def fileName? (path : Path) : Option Bytes :=
  match path.components.getLast? with
  | some (.name bytes) => some bytes
  | _ => none

def Component.toPath : Component → Path
  | .root => ⟨[slash]⟩
  | .current => ⟨[dot]⟩
  | .parent => ⟨[dot, dot]⟩
  | .name bytes => ⟨bytes⟩

/-- Where the spelling of an absolute path starts, and the components that follow. A path that is
not absolute starts from the working directory, if there is one. Two leading slashes, but no other
number of them, are kept apart from one. -/
def absoluteStart? (path : Path) (workingDirectory : Option Path) : Option (Path × List Component) :=
  let parts := path.components
  if !path.isAbsolute then
    workingDirectory.map fun here => (here, parts.filter (· ≠ .current))
  else if path.bytes.take 2 = [slash, slash] && path.bytes[2]? ≠ some slash then
    some (⟨[slash, slash]⟩, parts.drop 1)
  else some (⟨[]⟩, parts)

/-- The path from the root, by spelling alone: `..` stays, and so does a slash at the end. -/
def absolute? (path : Path) (workingDirectory : Option Path) : Option Path :=
  if path.bytes = [] then none
  else
    (path.absoluteStart? workingDirectory).map fun start =>
      let joined := start.2.foldl (fun base part => base.join part.toPath) start.1
      if path.endsWithSlash then joined.join ⟨[]⟩ else joined

end Path

end ImageStaging
