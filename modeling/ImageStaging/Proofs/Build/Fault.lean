import ImageStaging.Proofs.Build.Preview

/-!
# The faults of a build

An accepted configuration is looked at once, before anything else. From then on a build can fail
only in staging, for want of a Dockerfile, or over a reference or the variables of the template,
until it calls its tool.
-/

namespace ImageStaging

open ImageStaging.Action (FailsOnly failsOnly_blaming failsOnly_note failsOnly_pure failsOnly_throw)

/-- A fault of the image source or of staging. -/
def Failure.OfStaging (fault : Failure) : Prop :=
  fault.exitCode = 2 ∨ fault.exitCode = 3

/-- A fault that is no mistake of the caller. -/
def Failure.OfBuild (fault : Failure) : Prop :=
  fault.OfStaging ∨ ∃ cause, fault = .tool cause

theorem Failure.ofStaging_staging (fault : StagingFault) : (Failure.staging fault).OfStaging :=
  .inr rfl

theorem Staging.stage_fails (source context : Path) :
    (stage source context).FailsOnly Failure.OfStaging := by
  refine (failsOnly_blaming _ Failure.ofStaging_staging).bind fun _ => ?_
  refine (failsOnly_blaming _ Failure.ofStaging_staging).bind fun _ => ?_
  have classifies : (classify source).FailsOnly Failure.OfStaging := by
    refine (failsOnly_blaming _ Failure.ofStaging_staging).bind fun found => ?_
    cases found with
    | some flavour => exact failsOnly_pure flavour
    | none => exact failsOnly_throw (.inl rfl)
  exact classifies.bind fun _ => (failsOnly_note _).bind fun _ => failsOnly_pure _

namespace Template

theorem fetch_fails (libraries : List Path) (context : Path) (inner : Text) :
    (fetch libraries context inner).FailsOnly Failure.OfStaging := by
  unfold fetch
  dsimp only
  split
  · exact failsOnly_throw (.inl rfl)
  · refine (failsOnly_blaming _ Failure.ofStaging_staging).bind fun found => ?_
    cases found with
    | none => exact failsOnly_throw (.inl rfl)
    | some library =>
      exact (failsOnly_blaming _ Failure.ofStaging_staging).bind fun _ => failsOnly_note _

theorem resolveFiles_fails (template : Text) (libraries : List Path) (context : Path) :
    (resolveFiles template libraries context).FailsOnly Failure.OfStaging := by
  rw [resolveFiles_eq]
  exact (FailsOnly.forM fun inner => fetch_fails libraries context inner).bind
    fun _ => failsOnly_pure _

theorem resolveVariables_fails (template : Text) (table : VariableTable) :
    (resolveVariables template table).FailsOnly Failure.OfStaging := by
  intro world
  refine (resolveVariables_ends template table).mono (fun _ _ _ => trivial) ?_
  rintro _ _ ⟨-, name, -, rfl⟩
  exact .inl rfl

end Template

namespace Build

variable {world after : World} {request : Request} {config : Config}

theorem render_fails (context : BuildContext) (request : Request) :
    (render context request).FailsOnly Failure.OfStaging := by
  refine (failsOnly_blaming _ fun _ => .inr rfl).bind fun template => ?_
  refine (Template.resolveFiles_fails _ _ _).bind fun withFiles => ?_
  refine (failsOnly_blaming _ fun _ => .inl rfl).bind fun table => ?_
  have publishes : (publish context withFiles table).FailsOnly Failure.OfStaging := by
    refine (Template.resolveVariables_fails withFiles table).bind fun dockerfile => ?_
    refine (failsOnly_blaming _ Failure.ofStaging_staging).bind fun _ => ?_
    exact (failsOnly_note _).bind fun _ => failsOnly_pure _
  dsimp only
  split
  · exact (failsOnly_note _).bind fun _ => publishes
  · exact publishes

theorem renderTemplate_fails (context : BuildContext) (request : Request) :
    (renderTemplate context request).FailsOnly Failure.OfStaging := by
  unfold renderTemplate
  split
  · exact (render_fails context request).bind fun _ => failsOnly_pure _
  · exact failsOnly_pure _

/-- With an accepted configuration, assembling fails for the image source or for staging only. -/
theorem assemble_fails (accepted : config.validate = .ok ()) (request : Request) :
    (assemble request config).FailsOnly Failure.OfStaging := by
  unfold assemble
  rw [prepare_eq, bind_assoc]
  refine FailsOnly.bind (fun world => ?_) fun _ => ?_
  · refine (announce_ends request config).mono (fun _ _ _ => trivial) ?_
    rintro fault after ⟨rejected, -⟩
    exact absurd accepted rejected
  · simp only [bind_assoc, pure_bind]
    refine (Staging.stage_fails _ _).bind fun context => ?_
    refine (renderTemplate_fails context request).bind fun _ => ?_
    exact (failsOnly_blaming _ Failure.ofStaging_staging).bind fun _ => failsOnly_pure _

theorem deliver_fails (context : BuildContext) (request : Request) (config : Config)
    (tool : Tool) : (deliver context request config tool).FailsOnly Failure.OfBuild := by
  unfold deliver
  dsimp only
  split
  · refine (failsOnly_blaming _ fun _ => .inl (.inr rfl)).bind fun dockerfile => ?_
    exact failsOnly_blaming _ fun fault => .inl (Failure.ofStaging_staging fault)
  · refine (failsOnly_note _).bind fun _ => FailsOnly.bind (fun _ => trivial) fun _ => ?_
    exact failsOnly_blaming _ fun fault => .inr ⟨fault, rfl⟩

/-- With an accepted configuration, a run fails for the image source, for staging or for its tool,
and for nothing that the caller could have been told at once. -/
theorem run_fails (accepted : config.validate = .ok ()) (request : Request) (tool : Tool) :
    (run request config tool).FailsOnly Failure.OfBuild := by
  rw [run_eq_assemble]
  refine ((assemble_fails accepted request).mono fun _ => .inl).bind fun context => ?_
  exact (deliver_fails context request config tool).bind fun _ => failsOnly_pure context

end Build

end ImageStaging
