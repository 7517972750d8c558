import ImageStaging.Proofs.Action
import ImageStaging.Proofs.Template.Scanning
import ImageStaging.Template.Resolution

/-!
# What the passes put in

A pass enters in a map, by the whole text of each placeholder it has resolved, what is to be put in,
and looks each placeholder up there when it scans the template again. Placeholders with the same
text have the same inside, so once all are resolved, each is replaced by what its inside stands for.
-/

namespace ImageStaging.Template

open ImageStaging.Action (Ends)

variable {kind : Kind} {meaning? : Text → Option Text} {seen : List Text}
  {replacements : Replacements} {template : Text} {world : World}

theorem placeholderText_inj {inner other : Text} :
    placeholderText kind inner = placeholderText kind other ↔ inner = other := by
  simp [placeholderText]

/-- The map tells for each of the placeholders seen so far what it stands for. -/
def Tells (kind : Kind) (meaning? : Text → Option Text) (seen : List Text)
    (replacements : Replacements) : Prop :=
  ∀ inner ∈ seen, replacements.lookup (placeholderText kind inner) = meaning? inner

namespace Tells

theorem nil (kind : Kind) (meaning? : Text → Option Text) : Tells kind meaning? [] [] :=
  fun _ member => (List.not_mem_nil member).elim

theorem put (tells : Tells kind meaning? seen replacements) {inner meaning : Text}
    (means : meaning? inner = some meaning) : Tells kind meaning? (seen ++ [inner])
      (Association.put replacements (placeholderText kind inner) meaning) := by
  intro other member
  simp only [Association.lookup_put, placeholderText_inj]
  split
  · next same => rw [same, means]
  · next differ =>
    rcases List.mem_append.1 member with earlier | last
    · exact tells other earlier
    · exact absurd (List.mem_singleton.1 last) differ

/-- A map that tells what all references of a template stand for replaces each placeholder by it. -/
theorem replacePlaceholders_eq (tells : Tells kind meaning? (references kind template) replacements) :
    replacePlaceholders kind template replacements = substitute kind meaning? template := by
  unfold replacePlaceholders substitute
  rw [List.flatMap_def, List.flatMap_def]
  refine congrArg List.flatten (List.map_congr_left fun segment member => ?_)
  cases segment with
  | literal => rfl
  | placeholder inner => simp only [tells inner (mem_references.2 member)]

end Tells

/-! ## Files -/

/-- Each file reference replaced by its path. -/
def withPaths (template : Text) : Text :=
  substitute .file (fun inner => some (sharedPath inner)) template

/-- The first pass brings what the references name and leaves their paths. -/
theorem resolveFiles_eq (template : Text) (libraries : List Path) (context : Path) :
    resolveFiles template libraries context = (do
      (references .file template).forM (fetch libraries context)
      pure (withPaths template)) := by
  have collects : ∀ items seen replacements, references .file template = seen ++ items →
      Tells .file (fun inner => some (sharedPath inner)) seen replacements →
      (do
        let replacements ← items.foldlM (fun replacements inner => do
          fetch libraries context inner
          pure (Association.put replacements (placeholderText .file inner) (sharedPath inner)))
          replacements
        pure (replacePlaceholders .file template replacements)) = (do
      items.forM (fetch libraries context)
      pure (withPaths template)) := by
    intro items
    induction items with
    | nil =>
      intro seen replacements whole tells
      rw [List.append_nil] at whole
      rw [List.foldlM_nil, pure_bind, Tells.replacePlaceholders_eq (whole ▸ tells)]
      rfl
    | cons inner rest ih =>
      intro seen replacements whole tells
      have first : (inner :: rest).forM (fetch libraries context) =
          fetch libraries context inner >>= fun _ => rest.forM (fetch libraries context) := rfl
      rw [List.foldlM_cons, first]
      simp only [bind_assoc, pure_bind]
      refine bind_congr fun _ => ih (seen ++ [inner]) _ ?_ (tells.put rfl)
      rw [whole, List.append_assoc, List.singleton_append]
  exact collects _ [] [] rfl (.nil _ _)

/-! ## Variables -/

/-- The template with every variable replaced, or the name of the first that has no value. -/
def substituteVariables (table : VariableTable) (template : Text) : Except Text Text :=
  match (references .variable template).find? fun inner => (value? table inner).isNone with
  | some inner => .error (variableName inner)
  | none => .ok (substitute .variable (value? table) template)

/-- The second pass comes to the substitution, and touches no file. -/
theorem resolveVariables_ends (template : Text) (table : VariableTable) :
    (resolveVariables template table).Ends world
      (fun text after => after.files = world.files ∧ substituteVariables table template = .ok text)
      (fun fault after => after.files = world.files ∧ ∃ name,
        substituteVariables table template = .error name ∧ fault = .variableReference name) := by
  unfold resolveVariables
  rw [Action.ends_bind]
  refine (Ends.foldlM_split (fun seen replacements after => after.files = world.files ∧
    (∀ inner ∈ seen, (value? table inner).isNone = false) ∧
      Tells .variable (value? table) seen replacements)
    ⟨rfl, fun _ member => (List.not_mem_nil member).elim, .nil _ _⟩ ?_).mono ?_
      fun _ _ stopped => stopped
  · rintro before inner rest whole replacements after ⟨same, valued, tells⟩
    split
    · next missing =>
      refine ⟨same, variableName inner, ?_, rfl⟩
      have first : (references .variable template).find? (fun inner => (value? table inner).isNone) =
          some inner :=
        List.find?_eq_some_iff_append.2
          ⟨by rw [missing]; rfl, before, rest, whole, fun other member => by simp [valued _ member]⟩
      rw [substituteVariables, first]
    · next value isValue =>
      simp only [Action.ends_bind, Action.ends_note, Action.ends_pure]
      refine ⟨same, fun other member => ?_, tells.put isValue⟩
      rcases List.mem_append.1 member with earlier | last
      · exact valued other earlier
      · rw [List.mem_singleton.1 last, isValue]
        rfl
  · rintro replacements after ⟨same, valued, tells⟩
    have noneMissing : (references .variable template).find?
        (fun inner => (value? table inner).isNone) = none :=
      List.find?_eq_none.2 fun inner member => by simp [valued inner member]
    refine ⟨same, ?_⟩
    rw [substituteVariables, noneMissing, tells.replacePlaceholders_eq]

end ImageStaging.Template
