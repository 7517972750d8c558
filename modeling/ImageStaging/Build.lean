import ImageStaging.Config.Basic
import ImageStaging.Replacement
import ImageStaging.Request
import ImageStaging.Staging
import ImageStaging.Template.Resolution
import ImageStaging.Variable.Source

/-!
# Building an image

A build stages the context, renders the template if there is one, takes the template out of the
context and then calls the build tool, or shows the call in a dry run. Everything up to the call is
`prepare`; `run` hands what it prepared to the tool or to the preview.
-/

namespace ImageStaging.Build

/-- Runs the program of an invocation. -/
abbrev Tool := Invocation → Action ToolFault Unit

def invocationOf (config : Config) (request : Request) (context : BuildContext) : Invocation :=
  ⟨config.buildTool, config.buildVerb, request.options, context.root⟩

/-- What a dry run prints for a call and a final Dockerfile. -/
def preview (invocation : Invocation) (dockerfile : Text) : String :=
  s!"*** DRY RUN > Build Command:\n{invocation.commandLine}\n\n" ++
    s!"*** DRY RUN > Dockerfile:\n{String.ofList (Text.trim dockerfile)}\n"

def writePreview (invocation : Invocation) (dockerfile : Text) : Action StagingFault Unit := do
  unless ← Action.print (Utf8.encode (preview invocation dockerfile).toList) do
    throw .previewCutShort

/-- Turns the staged template into the final Dockerfile. -/
def render (context : BuildContext) (request : Request) : Action Failure Text := do
  let template ← (Action.look (·.readText context.templatePath)).blaming fun fault =>
    .staging (.readTemplate context.templatePath fault)
  let withFiles ← Template.resolveFiles template request.libraries context.root
  let table ← (VariableSource.aggregate request.source request.libraries).blaming .variables
  if table.isEmpty then
    Action.note ⟨.building, .debug, "no template variables defined in source or library paths", []⟩
  let dockerfile ← Template.resolveVariables withFiles table
  (Replacement.replace context.dockerfilePath (Utf8.encode dockerfile)).blaming .staging
  Action.note ⟨.building, .info, "rendered Dockerfile from template",
    [("variables", toString table.size)]⟩
  pure dockerfile

/-- Takes the template, which has done its work, out of the context. -/
def finalize (context : BuildContext) : Action StagingFault Unit := do
  let path := context.templatePath
  match ← Action.attempt (Action.edit (FileSystem.removeFile path)) with
  | .ok () =>
    Action.note ⟨.delivery, .debug, "removed template artifact", [("path", path.display)]⟩
  | .error .notFound => pure ()
  | .error fault => throw (.remove path fault)

/-- Calls the tool, or shows the call and the final Dockerfile in a dry run. -/
def deliver (context : BuildContext) (request : Request) (config : Config) (tool : Tool) :
    Action Failure Unit := do
  let invocation := invocationOf config request context
  if request.dryRun then
    let dockerfile ← (Action.look (·.readForDisplay context.dockerfilePath)).blaming fun fault =>
      .staging (.read context.dockerfilePath fault)
    (writePreview invocation dockerfile).blaming .staging
  else
    Action.note ⟨.delivery, .info, "running build tool", [("command", invocation.commandLine)]⟩
    modify fun world => { world with launches := world.launches ++ [invocation] }
    (tool invocation).blaming .tool

def invoke (context : BuildContext) (request : Request) (config : Config) (tool : Tool) :
    Action Failure Unit := do
  (finalize context).blaming .staging
  deliver context request config tool

/-- Stages the context and renders its template, if it has one. -/
def prepare (request : Request) (config : Config) : Action Failure BuildContext := do
  if let .error fault := config.validate then throw (.config fault)
  Action.note ⟨.building, .info, "source path", [("source", request.source.display)]⟩
  for library in request.libraries do
    Action.note ⟨.building, .info, "library path", [("library", library.display)]⟩
  let context ← Staging.stage request.source (request.contextPath config.contextDirectory)
  if context.flavour = .template then
    let _ ← render context request
  pure context

def run (request : Request) (config : Config) (tool : Tool) : Action Failure BuildContext := do
  let context ← prepare request config
  invoke context request config tool
  pure context

end ImageStaging.Build
