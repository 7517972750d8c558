import ImageStaging.Build
import ImageStaging.Proofs.Replacement
import ImageStaging.Proofs.Template.Fetching
import ImageStaging.Proofs.Template.Substitution
import ImageStaging.Proofs.Variable.Source

/-!
# What rendering does

Rendering reads the staged template before it fetches any file, so a fetched file that takes the
place of the template does not change what is rendered. It ends with a Dockerfile that holds the
text of both passes.
-/

namespace ImageStaging.Build

open FileSystem (Confined)
open Replacement (Replaced)
open Template (Fetched LibrariesApart references resolveFiles_ends resolveVariables_ends
  substituteVariables withPaths)

variable {world : World} {start : FileSystem} {context : BuildContext} {root : Location}

/-- What the two passes make of a template in a staged context: the first brings the files that are
referred to, and the second is over the variables that are found then. -/
structure Passes (request : Request) (context : BuildContext) (template : Text)
    (staged middle : World) (text : Text) : Prop where
  filePass : (Template.resolveFiles template request.libraries context.root).run.run staged =
    (.ok (withPaths template), middle)
  variablePass : ∃ table,
    ((VariableSource.aggregate request.source request.libraries).run.run middle).1 = .ok table ∧
      substituteVariables table (withPaths template) = .ok text

/-- The two passes over a template and the Dockerfile that they end in. -/
structure Rendered (start : FileSystem) (request : Request) (context : BuildContext)
    (root : Location) (template : Text) (staged middle : World) (text : Text)
    (other : FileSystem) : Prop where
  passes : Passes request context template staged middle text
  fetched : LibrariesApart start root request.libraries →
    Fetched start root request.libraries (references .file template) staged.files middle.files
  replaced : Replaced root (Utf8.encode text) middle.files other

/-- The last step of rendering. -/
def publish (context : BuildContext) (withFiles : Text) (table : VariableTable) :
    Action Failure Text := do
  let dockerfile ← Template.resolveVariables withFiles table
  (Replacement.replace context.dockerfilePath (Utf8.encode dockerfile)).blaming .staging
  Action.note ⟨.building, .info, "rendered Dockerfile from template",
    [("variables", toString table.size)]⟩
  pure dockerfile

theorem publish_ends (withFiles : Text) (table : VariableTable)
    (confined : Confined start context.root root world.files) :
    (publish context withFiles table).Ends world
      (fun text after => Confined start context.root root after.files ∧
        substituteVariables table withFiles = .ok text ∧
        Replaced root (Utf8.encode text) world.files after.files)
      (fun _ after => Confined start context.root root after.files) := by
  unfold publish
  simp only [Action.ends_bind, Action.ends_blaming, Action.ends_note, Action.ends_pure]
  refine (resolveVariables_ends withFiles table).mono ?_ ?_
  · rintro text resolved ⟨same, isText⟩
    rw [← same] at confined ⊢
    refine (Replacement.replace_ends (Utf8.encode text) confined).mono ?_
      fun _ _ confined => confined
    rintro _ after ⟨confined, replaced⟩
    exact ⟨confined, isText, replaced⟩
  · rintro _ after ⟨same, -⟩
    rw [same]
    exact confined

theorem render_ends (request : Request)
    (confined : Confined start context.root root world.files) :
    (render context request).Ends world
      (fun text after => Confined start context.root root after.files ∧ ∃ template middle,
        world.files.readText context.templatePath = .ok template ∧
          Rendered start request context root template world middle text after.files)
      (fun _ after => Confined start context.root root after.files) := by
  unfold render
  simp only [Action.ends_bind, Action.ends_blaming, Action.ends_look]
  refine ⟨?_, fun _ _ => confined⟩
  intro template isTemplate
  refine ((Action.ends_run _).and (resolveFiles_ends template confined)).mono ?_
    fun _ _ stopped => stopped.2
  rintro _ middle ⟨filePass, rfl, confinedThen, fetched⟩
  have keeps : (VariableSource.aggregate request.source request.libraries).Keeps
      (· = middle.files) := VariableSource.aggregate_keeps _ _
  refine ((Action.ends_run _).and (keeps middle rfl)).mono ?_ ?_
  · rintro table collected ⟨run, same⟩
    have published : ∀ later : World, later.files = middle.files →
        (publish context (withPaths template) table).Ends later
          (fun text after => Confined start context.root root after.files ∧
            ∃ template middle, world.files.readText context.templatePath = .ok template ∧
              Rendered start request context root template world middle text after.files)
          (fun _ after => Confined start context.root root after.files) := by
      intro later same
      rw [← same] at confinedThen
      refine (publish_ends (withPaths template) table confinedThen).mono ?_
        fun _ _ confined => confined
      rintro text after ⟨confined, isText, replaced⟩
      rw [same] at replaced
      exact ⟨confined, template, middle, isTemplate, ⟨filePass, table, by rw [run], isText⟩,
        fetched, replaced⟩
    split
    · exact published _ same
    · exact published _ same
  · rintro _ after ⟨_, same⟩
    rw [same]
    exact confinedThen

end ImageStaging.Build
