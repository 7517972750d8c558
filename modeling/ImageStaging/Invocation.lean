import ImageStaging.Path.Basic
import ImageStaging.Text.Word

/-!
# Invocations of a build tool

A build tool is called with a verb, the options of the caller as they came, and the build context
last. The command line shows the same words to a reader.
-/

namespace ImageStaging

structure Invocation where
  program : String
  verb : String
  options : List String
  contextPath : Path
  deriving DecidableEq

namespace Invocation

def arguments (invocation : Invocation) : List String :=
  invocation.verb :: invocation.options ++ [invocation.contextPath.display]

def words (invocation : Invocation) : List String :=
  invocation.program :: invocation.arguments

def commandLine (invocation : Invocation) : String :=
  String.ofList (Word.join (invocation.words.map String.toList))

end Invocation

end ImageStaging
