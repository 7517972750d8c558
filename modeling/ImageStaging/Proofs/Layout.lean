import ImageStaging.Layout
import ImageStaging.Proofs.Path.Descent

/-!
# The names of the layout

The entries with a meaning are called by names that a directory can hold, so their paths are names
joined to a directory.
-/

namespace ImageStaging

namespace Layout

/-- An entry of the layout as the name that it has in a directory. -/
def nameOf (entry : String) (valid : Name.Valid (Path.ofString entry).bytes := by decide) : Name :=
  ⟨(Path.ofString entry).bytes, valid⟩

def dockerfileName : Name := nameOf dockerfile

def templateName : Name := nameOf template

def variablesFileName : Name := nameOf variablesFile

def variablesDirectoryName : Name := nameOf variablesDirectory

def sourceTreeName : Name := nameOf sourceTree

def contextName : Name := nameOf defaultContext

/-- The name of the sibling that a new Dockerfile is written to. -/
def temporaryName : Name := nameOf ".Dockerfile.tmp"

/-! The examples have these names for an image source, a library, a shared file, a fragment, and an
entry whose name is blank. -/

def imageName : Name := nameOf "image"

def libraryName : Name := nameOf "library"

def sharedName : Name := nameOf "a"

def fragmentName : Name := nameOf "A"

def blankName : Name := nameOf " "

theorem temporaryName_ne_dockerfileName : temporaryName ≠ dockerfileName := by decide

theorem toPath_sourceTreeName : Path.ofString sourceTree = sourceTreeName.toPath := rfl

theorem toPath_templateName : Path.ofString template = templateName.toPath := rfl

end Layout

namespace Flavour

def name : Flavour → Name
  | .template => Layout.templateName
  | .plain => Layout.dockerfileName

theorem toPath_name (flavour : Flavour) : Path.ofString flavour.fileName = flavour.name.toPath := by
  cases flavour <;> rfl

theorem name_injective {first second : Flavour} (same : first.name = second.name) :
    first = second := by
  revert same
  cases first <;> cases second <;> decide

theorem name_ne_sourceTree (flavour : Flavour) : flavour.name ≠ Layout.sourceTreeName := by
  cases flavour <;> decide

end Flavour

end ImageStaging
