import ImageStaging.Template.Placeholder
import ImageStaging.TreeCopy
import ImageStaging.Variable.Table

/-!
# Resolving a template

The first pass brings shared files from the libraries into the context and leaves their paths in
the template. The second puts values in the place of variables. Both look at the references in the
order of first appearance and stop at the first that cannot be resolved.
-/

namespace ImageStaging.Template

/-- The path of a shared file, if it stays inside the directory it starts from. -/
def containedPath? (text : Text) : Option Path :=
  let path := Path.ofText text
  if path.components.any fun part => part = .root || part = .parent then none
  else if path.components.any fun part => part ≠ .current then some path
  else none

/-- The first library that holds a path. -/
def findLibrary? (path : Path) : List Path → Action StagingFault (Option Path)
  | [] => pure none
  | library :: rest => do
    let candidate := library.join path
    if ← (Action.look (·.exists? candidate)).blaming (.inspect candidate) then
      pure (some library)
    else
      findLibrary? path rest

/-- Brings the file or tree of one reference into the context. -/
def fetch (libraries : List Path) (context : Path) (inner : Text) : Action Failure Unit := do
  let reference := fileReference inner
  match containedPath? (sharedPath inner) with
  | none => throw (.fileReference reference .outsideLibrary)
  | some path =>
    match ← (findLibrary? path libraries).blaming .staging with
    | none =>
      throw (.fileReference reference (if libraries.isEmpty then .noLibraries else .inNoLibrary))
    | some library =>
      let _ ← (TreeCopy.copy (library.join path) (context.join path)).blaming .staging
      Action.note ⟨.resolution, .debug, "resolved file reference",
        [("reference", String.ofList reference), ("library", library.display)]⟩

/-- What the placeholders of a template are replaced by, each told by its whole text. -/
abbrev Replacements := List (Text × Text)

/-- The template with each placeholder replaced that has a replacement, inserted text not being read
again. -/
def replacePlaceholders (kind : Kind) (template : Text) (replacements : Replacements) : Text :=
  substitute kind (fun inner => replacements.lookup (placeholderText kind inner)) template

def resolveFiles (template : Text) (libraries : List Path) (context : Path) :
    Action Failure Text := do
  let replacements ← (references .file template).foldlM (fun replacements inner => do
    fetch libraries context inner
    pure (Association.put replacements (placeholderText .file inner) (sharedPath inner))) []
  pure (replacePlaceholders .file template replacements)

/-- The value of a variable placeholder. An empty value is none. -/
def value? (table : VariableTable) (inner : Text) : Option Text :=
  (table.get? (variableName inner)).filter (· ≠ [])

def resolveVariables (template : Text) (table : VariableTable) : Action Failure Text := do
  let replacements ← (references .variable template).foldlM (fun replacements inner => do
    match value? table inner with
    | none => throw (.variableReference (variableName inner))
    | some value =>
      Action.note ⟨.resolution, .debug, "resolved variable reference",
        [("name", String.ofList (variableName inner))]⟩
      pure (Association.put replacements (placeholderText .variable inner) value)) []
  pure (replacePlaceholders .variable template replacements)

end ImageStaging.Template
