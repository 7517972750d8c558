import ImageStaging.Failure
import ImageStaging.Layout

/-!
# Configuration

The configuration names the build tool, its verb and the directory of the build context inside the
image source. A valid one leaves neither word empty and keeps the context out of the way of what
staging reads.
-/

namespace ImageStaging

structure Config where
  buildTool : String := "docker"
  buildVerb : String := "build"
  contextDirectory : String := Layout.defaultContext
  deriving DecidableEq

namespace Config

/-- A path of one component that is a name. It may end in slashes and dots. -/
def isPlainName (text : String) : Bool :=
  match (Path.ofString text).components with
  | [.name _] => true
  | _ => false

def validate (config : Config) : Except ConfigFault Unit :=
  if Text.isEmptyOrWhiteSpace config.buildTool.toList then .error .emptyTool
  else if Text.isEmptyOrWhiteSpace config.buildVerb.toList then .error .emptyVerb
  else if !isPlainName config.contextDirectory then .error (.notPlainName config.contextDirectory)
  else if Layout.reserved.contains config.contextDirectory then
    .error (.reservedName config.contextDirectory)
  else .ok ()

end Config

end ImageStaging
