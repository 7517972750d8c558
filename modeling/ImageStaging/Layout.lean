import ImageStaging.Path.Basic

/-!
# The layout of an image source

These are the entries of a source or library directory that have a meaning, and the flavours that
a Dockerfile comes in.
-/

namespace ImageStaging

namespace Layout

def dockerfile : String := "Dockerfile"

def template : String := "Dockerfile.template"

def variablesFile : String := "Dockerfile.variables"

def variablesDirectory : String := "Dockerfile.variables.d"

def sourceTree : String := "src"

def defaultContext : String := "_docker-build"

/-- The entries that staging reads, so that no context may take their place. -/
def reserved : List String :=
  [sourceTree, dockerfile, template, variablesFile, variablesDirectory]

end Layout

inductive Flavour
  | template
  | plain
  deriving DecidableEq, Repr

def Flavour.fileName : Flavour → String
  | .template => Layout.template
  | .plain => Layout.dockerfile

/-- A staged build context. -/
structure BuildContext where
  root : Path
  flavour : Flavour
  deriving DecidableEq

namespace BuildContext

def dockerfilePath (context : BuildContext) : Path :=
  context.root.join (Path.ofString Layout.dockerfile)

def templatePath (context : BuildContext) : Path :=
  context.root.join (Path.ofString Layout.template)

def usesTemplate (context : BuildContext) : Bool :=
  context.flavour = .template

end BuildContext

end ImageStaging
