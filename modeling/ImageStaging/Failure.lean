import ImageStaging.FileSystem.Fault
import ImageStaging.Path.Basic

/-!
# Why a run fails

A failure carries its cause: the paths, names and faults that explain it. The wording is given once,
by `message`, and the exit code tells the class of the cause. Each class also has a cause that is
just described in words.
-/

namespace ImageStaging

inductive UsageFault
  | missingSource
  | missingOptions
  | described (text : String)
  deriving DecidableEq

inductive ConfigFault
  | emptyTool
  | emptyVerb
  | notPlainName (found : String)
  | reservedName (found : String)
  | unreadable (path : Path) (fault : FileFault)
  | malformed (detail : String)
  | described (text : String)
  deriving DecidableEq

inductive PathFault
  | empty
  /-- The working directory, from which a relative path is told, has been taken away. -/
  | noWorkingDirectory
  | described (text : String)
  deriving DecidableEq

inductive WalkFault
  /-- A link leads to a directory that the walk is already in. -/
  | loop (child ancestor : Path)
  | unreadable (path : Path) (fault : FileFault)
  deriving DecidableEq

inductive StagingFault
  | inspect (path : Path) (fault : FileFault)
  | inspectContext (path : Path) (fault : FileFault)
  | removeContext (path : Path) (fault : FileFault)
  | createContext (path : Path) (fault : FileFault)
  | walk (source : Path) (fault : WalkFault)
  | createDirectory (path : Path) (fault : FileFault)
  | copy (source target : Path) (fault : FileFault)
  | createParent (path : Path) (fault : FileFault)
  | namelessTarget (path : Path)
  | createTemporary (path : Path) (fault : FileFault)
  | writeTemporary (path : Path) (fault : FileFault)
  | syncTemporary (fault : FileFault)
  | replace (path : Path) (fault : FileFault)
  | readTemplate (path : Path) (fault : FileFault)
  | remove (path : Path) (fault : FileFault)
  | read (path : Path) (fault : FileFault)
  | previewCutShort
  | described (text : String)
  deriving DecidableEq

inductive ReferenceFault
  | outsideLibrary
  | noLibraries
  | inNoLibrary
  | described (text : String)
  deriving DecidableEq

inductive VariableFault
  | unreadable (path : Path) (fault : FileFault)
  | nameNotText (path : Path)
  | described (text : String)
  deriving DecidableEq

/-- How a process ended. -/
inductive ExitStatus
  | code (value : Nat)
  | signal (number : Nat) (name : String)
  deriving DecidableEq

inductive LaunchFault
  | file (fault : FileFault)
  /-- No word of a command can hold a NUL character. -/
  | nulInWord
  deriving DecidableEq

inductive ToolFault
  | launch (program : String) (fault : LaunchFault)
  | ended (commandLine : String) (status : ExitStatus)
  | described (text : String)
  deriving DecidableEq

inductive Failure
  | usage (fault : UsageFault)
  | config (fault : ConfigFault)
  | absolutePath (path : Path) (fault : PathFault)
  | staging (fault : StagingFault)
  | missingDockerfile (source : Path)
  | fileReference (reference : Text) (fault : ReferenceFault)
  | variableReference (name : Text)
  | variables (fault : VariableFault)
  | tool (fault : ToolFault)
  deriving DecidableEq

def UsageFault.message : UsageFault → String
  | .missingSource => "missing source directory"
  | .missingOptions => "missing build options"
  | .described text => text

def ConfigFault.message : ConfigFault → String
  | .emptyTool => "build_tool must not be empty"
  | .emptyVerb => "build_verb must not be empty"
  | .notPlainName found => s!"context_dir must be a plain directory name (found '{found}')"
  | .reservedName found =>
    s!"context_dir must not be '{found}', which is part of the image source"
  | .unreadable path fault => s!"failed to read config file '{path.display}': {fault.message}"
  | .malformed detail => s!"failed to parse config YAML: {detail}"
  | .described text => text

def WalkFault.message : WalkFault → String
  | .loop child ancestor =>
    s!"File system loop found: {child.display} points to an ancestor {ancestor.display}"
  | .unreadable path fault => s!"IO error for operation on {path.display}: {fault.message}"

def StagingFault.message : StagingFault → String
  | .inspect path fault => s!"failed to inspect '{path.display}': {fault.message}"
  | .inspectContext path fault => s!"failed to inspect context '{path.display}': {fault.message}"
  | .removeContext path fault =>
    s!"failed to remove existing context '{path.display}': {fault.message}"
  | .createContext path fault => s!"failed to create context '{path.display}': {fault.message}"
  | .walk source fault => s!"failed to walk '{source.display}': {fault.message}"
  | .createDirectory path fault => s!"failed to create directory '{path.display}': {fault.message}"
  | .copy source target fault =>
    s!"failed to copy '{source.display}' to '{target.display}': {fault.message}"
  | .createParent path fault =>
    s!"failed to create parent directory '{path.display}': {fault.message}"
  | .namelessTarget path => s!"invalid file path '{path.display}'"
  | .createTemporary path fault =>
    s!"failed to create temporary file '{path.display}': {fault.message}"
  | .writeTemporary path fault =>
    s!"failed to write temporary file '{path.display}': {fault.message}"
  | .syncTemporary fault => s!"failed to sync temporary file to disk: {fault.message}"
  | .replace path fault => s!"failed to atomically replace '{path.display}': {fault.message}"
  | .readTemplate path .notText => s!"template '{path.display}' is not valid UTF-8"
  | .readTemplate path fault => s!"failed to read template '{path.display}': {fault.message}"
  | .remove path fault => s!"failed to remove '{path.display}': {fault.message}"
  | .read path fault => s!"failed to read '{path.display}': {fault.message}"
  | .previewCutShort => "failed to write dry-run preview: failed to write whole buffer"
  | .described text => text

def ReferenceFault.message : ReferenceFault → String
  | .outsideLibrary => "path must be relative and stay inside the library directory"
  | .noLibraries => "no library paths were supplied"
  | .inNoLibrary => "not found in any library path"
  | .described text => text

def VariableFault.message : VariableFault → String
  | .unreadable path fault => s!"'{path.display}': {fault.message}"
  | .nameNotText path => s!"fragment name '{path.display}' is not valid UTF-8"
  | .described text => text

def ExitStatus.message : ExitStatus → String
  | .code value => s!"exit status: {value}"
  | .signal number name => s!"signal: {number} ({name})"

def LaunchFault.message : LaunchFault → String
  | .file fault => fault.message
  | .nulInWord => "nul byte found in provided data"

def ToolFault.message : ToolFault → String
  | .launch program fault =>
    s!"failed to execute '{program}': {fault.message}\n" ++
      "Fix: ensure the build tool is installed and in PATH."
  | .ended commandLine status => s!"'{commandLine}' exited with {status.message}"
  | .described text => text

namespace Failure

def message : Failure → String
  | .usage fault => fault.message
  | .config fault => s!"invalid configuration: {fault.message}"
  | .absolutePath path .empty =>
    s!"unable to determine absolute path: '{path.display}': cannot make an empty path absolute"
  | .absolutePath path .noWorkingDirectory =>
    s!"unable to determine absolute path: '{path.display}': {FileFault.notFound.message}"
  | .absolutePath _ (.described text) => s!"unable to determine absolute path: {text}"
  | .staging fault => s!"failed to stage build context: {fault.message}"
  | .missingDockerfile source =>
    s!"either Dockerfile.template or Dockerfile is required in '{source.display}'"
  | .fileReference reference fault =>
    s!"unable to locate file for: {String.ofList reference} ({fault.message})"
  | .variableReference name => s!"unable to locate value for: {String.ofList name}"
  | .variables fault => s!"failed to read variables: {fault.message}"
  | .tool fault => s!"build tool failed: {fault.message}"

/-- The caller's mistakes exit with 1, faults of the image source with 2, faults of staging with 3
and faults of the build tool with 4. -/
def exitCode : Failure → Nat
  | .usage _ | .config _ | .absolutePath _ _ => 1
  | .missingDockerfile _ | .fileReference _ _ | .variableReference _ | .variables _ => 2
  | .staging _ => 3
  | .tool _ => 4

end Failure

end ImageStaging
