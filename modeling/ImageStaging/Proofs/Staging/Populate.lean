import ImageStaging.Proofs.Layout
import ImageStaging.Proofs.TreeCopy
import ImageStaging.Staging

/-!
# Populating a context

The flavour of the Dockerfile is decided by what the source holds. Its file and the source tree then
come to stand in the context, each at its own name, and nothing else does.
-/

namespace ImageStaging

namespace FileSystem

/-- A tree has come to stand at a location, and what it does not hold is as it was. -/
structure Supplied (tree : List Name → Option Entry) (location : Location)
    (files other : FileSystem) : Prop where
  present : ∀ names entry, tree names = some entry → other.get? (location ++ names) = some entry
  absent : ∀ names, tree names = none →
    other.get? (location ++ names) = files.get? (location ++ names)

variable {tree : List Name → Option Entry} {location : Location} {files other third : FileSystem}

theorem Overlaid.supplied_at (laid : Overlaid tree location files other) :
    Supplied tree location files other := by
  refine ⟨laid.supplied, fun names nothing => laid.elsewhere _ ?_ ?_⟩
  · intro above
    rw [FileSystem.eq_nil_of_above above] at nothing
    have stands := laid.stands
    rw [nothing] at stands
    cases stands
  · intro names' same
    rw [← List.append_cancel_left same, nothing]

theorem Supplied.of_nothing (nothing : ∀ names, tree names = none) :
    Supplied tree location files files := by
  refine ⟨fun names entry stands => ?_, fun _ _ => rfl⟩
  rw [nothing names] at stands
  cases stands

/-- What happens away from a location later does not matter there. -/
theorem Supplied.later (supplied : Supplied tree location files other)
    (away : ∀ names, third.get? (location ++ names) = other.get? (location ++ names)) :
    Supplied tree location files third :=
  ⟨fun names entry stands => (away names).trans (supplied.present names entry stands),
    fun names nothing => (away names).trans (supplied.absent names nothing)⟩

theorem Supplied.earlier
    (away : ∀ names, other.get? (location ++ names) = files.get? (location ++ names))
    (supplied : Supplied tree location other third) : Supplied tree location files third :=
  ⟨supplied.present, fun names nothing => (supplied.absent names nothing).trans (away names)⟩

end FileSystem

namespace Staging

open FileSystem (Confined Overlaid Supplied Worked)

variable {world : World} {source context : Path} {start : FileSystem} {root : Location}

/-- The flavour that the entries of a source decide on. -/
def Chosen (files : FileSystem) (source : Path) : Option Flavour → Prop
  | some .template => files.exists? (source.join (Path.ofString Layout.template)) = .ok true
  | some .plain =>
    files.exists? (source.join (Path.ofString Layout.template)) = .ok false ∧
      files.exists? (source.join (Path.ofString Layout.dockerfile)) = .ok true
  | none =>
    files.exists? (source.join (Path.ofString Layout.template)) = .ok false ∧
      files.exists? (source.join (Path.ofString Layout.dockerfile)) = .ok false

theorem existsAt_ends (path : Path) :
    (existsAt path).Ends world
      (fun answer after => after = world ∧ world.files.exists? path = .ok answer)
      (fun _ after => after = world) := by
  simp only [existsAt, Action.ends_blaming, Action.ends_look]
  exact ⟨fun answer found => ⟨trivial, found⟩, fun _ _ => trivial⟩

theorem flavour?_ends (source : Path) :
    (flavour? source).Ends world
      (fun flavour after => after = world ∧ Chosen world.files source flavour)
      (fun _ after => after = world) := by
  simp only [flavour?, Action.ends_bind]
  refine (existsAt_ends _).mono ?_ fun _ _ same => same
  rintro hasTemplate world ⟨rfl, foundTemplate⟩
  cases hasTemplate with
  | true => exact ⟨rfl, foundTemplate⟩
  | false =>
    simp only [Bool.false_eq_true, if_false, Action.ends_bind]
    refine (existsAt_ends _).mono ?_ fun _ _ same => same
    rintro hasPlain world ⟨rfl, foundPlain⟩
    cases hasPlain with
    | true => exact ⟨rfl, foundTemplate, foundPlain⟩
    | false => exact ⟨rfl, foundTemplate, foundPlain⟩

/-- What populating a context has done to the files. -/
structure Populated (start : FileSystem) (source context : Path) (root : Location)
    (flavour : Option Flavour) (files other : FileSystem) : Prop where
  chosen : Chosen files source flavour
  confined : Confined start context root other
  dockerfile : ∀ found, flavour = some found →
    start.Apart root (source.join found.name.toPath) →
    Supplied (start.tree (source.join found.name.toPath)) (root ++ [found.name]) files other
  sourceTree : start.Apart root (source.join Layout.sourceTreeName.toPath) →
    Supplied (start.tree (source.join Layout.sourceTreeName.toPath))
      (root ++ [Layout.sourceTreeName]) files other
  others : ∀ name rest, name ≠ Layout.sourceTreeName →
    (∀ found, flavour = some found → name ≠ found.name) →
    other.get? (root ++ name :: rest) = files.get? (root ++ name :: rest)

/-- The second step of populating. -/
def copyDockerfile (source context : Path) : Option Flavour → Action StagingFault Unit
  | some found => do
    let _ ← TreeCopy.copy (source.join found.name.toPath) (context.join found.name.toPath)
  | none => pure ()

/-- The last step of populating. -/
def copySourceTree (source context : Path) : Action StagingFault Unit := do
  if ← existsAt (source.join Layout.sourceTreeName.toPath) then
    let copied ← TreeCopy.copy (source.join Layout.sourceTreeName.toPath)
      (context.join Layout.sourceTreeName.toPath)
    Action.note ⟨.staging, .debug, "copied source tree", [("files", toString copied)]⟩

theorem populate_eq (source context : Path) :
    populate source context = (do
      let flavour ← flavour? source
      copyDockerfile source context flavour
      copySourceTree source context
      pure flavour) := by
  have treeThen (flavour : Option Flavour) :
      (do copySourceTree source context; pure flavour) = (do
        if ← existsAt (source.join (Path.ofString Layout.sourceTree)) then
          let copied ← TreeCopy.copy (source.join (Path.ofString Layout.sourceTree))
            (context.join (Path.ofString Layout.sourceTree))
          Action.note ⟨.staging, .debug, "copied source tree", [("files", toString copied)]⟩
        pure flavour) := by
    unfold copySourceTree
    rw [bind_assoc]
    refine bind_congr fun present => ?_
    cases present <;> simp [Layout.toPath_sourceTreeName]
  unfold populate
  refine bind_congr fun flavour => ?_
  rw [treeThen]
  cases flavour with
  | none => simp [copyDockerfile]
  | some found => simp [copyDockerfile, Flavour.toPath_name]

section Steps

variable (confined : Confined start context root world.files)
include confined

theorem copyDockerfile_ends (flavour : Option Flavour) :
    (copyDockerfile source context flavour).Ends world
      (fun _ after => Confined start context root after.files ∧
        (∀ name rest, (∀ found, flavour = some found → name ≠ found.name) →
          after.files.get? (root ++ name :: rest) = world.files.get? (root ++ name :: rest)) ∧
        ∀ found, flavour = some found → start.Apart root (source.join found.name.toPath) →
          Supplied (start.tree (source.join found.name.toPath)) (root ++ [found.name]) world.files
            after.files)
      (fun _ after => Confined start context root after.files) := by
  cases flavour with
  | none =>
    refine ⟨confined, fun _ _ _ => rfl, ?_⟩
    rintro found ⟨⟩
  | some found =>
    simp only [copyDockerfile, Action.ends_bind, Action.ends_pure]
    refine (TreeCopy.copy_ends (Path.bytes_join_ne_nil found.name.bytes_toPath_ne_nil)
      ((Path.Descends.refl context).join_name found.name) (by simp) confined).mono ?_
      fun _ _ ends => ends.1.confined
    rintro copied after ⟨worked, laid⟩
    refine ⟨worked.confined, fun name rest others => ?_, ?_⟩
    · exact worked.touched.sibling (others found rfl)
    · rintro _ ⟨⟩ apart
      exact (laid apart).supplied_at

theorem copySourceTree_ends :
    (copySourceTree source context).Ends world
      (fun _ after =>
        Worked start context root [Layout.sourceTreeName] world.files after.files ∧
          (start.Apart root (source.join Layout.sourceTreeName.toPath) →
            Supplied (start.tree (source.join Layout.sourceTreeName.toPath))
              (root ++ [Layout.sourceTreeName]) world.files after.files))
      (fun _ after => Confined start context root after.files) := by
  have nonempty : (source.join Layout.sourceTreeName.toPath).bytes ≠ [] :=
    Path.bytes_join_ne_nil (Name.bytes_toPath_ne_nil _)
  unfold copySourceTree
  rw [Action.ends_bind]
  refine (existsAt_ends _).mono ?_ ?_
  · rintro present world ⟨rfl, found⟩
    cases present with
    | true =>
      simp only [if_true, Action.ends_bind, Action.ends_note]
      refine (TreeCopy.copy_ends nonempty
        ((Path.Descends.refl context).join_name Layout.sourceTreeName) (by simp) confined).mono ?_
        fun _ _ ends => ends.1.confined
      rintro copied after ⟨worked, laid⟩
      exact ⟨worked, fun apart => (laid apart).supplied_at⟩
    | false =>
      refine ⟨confined.worked _, fun apart => .of_nothing fun names => ?_⟩
      rw [confined.agree.exists?_eq apart.here] at found
      exact FileSystem.tree_of_missing nonempty found names
  · rintro _ _ rfl
    exact confined

/-- Populating works in the context only and puts there what the source holds. -/
theorem populate_ends :
    (populate source context).Ends world
      (fun flavour after => Populated start source context root flavour world.files after.files)
      (fun _ after => Confined start context root after.files) := by
  rw [populate_eq, Action.ends_bind]
  refine (flavour?_ends source).mono ?_ ?_
  · rintro flavour world ⟨rfl, chosen⟩
    rw [Action.ends_bind]
    refine (copyDockerfile_ends confined flavour).mono ?_
      fun _ _ confined => confined
    rintro _ middle ⟨confinedThen, othersFirst, dockerfile⟩
    rw [Action.ends_bind]
    refine (copySourceTree_ends confinedThen).mono ?_
      fun _ _ confined => confined
    rintro _ after ⟨worked, sourceTree⟩
    refine ⟨chosen, worked.confined, ?_, ?_, ?_⟩
    · intro found isFound apart
      refine (dockerfile found isFound apart).later fun names => ?_
      rw [List.append_assoc]
      exact worked.touched.sibling found.name_ne_sourceTree
    · intro apart
      refine .earlier (fun names => ?_) (sourceTree apart)
      rw [List.append_assoc]
      exact othersFirst _ _ fun found _ => found.name_ne_sourceTree.symm
    · intro name rest notTree notDockerfile
      rw [worked.touched.sibling notTree]
      exact othersFirst name rest notDockerfile
  · rintro _ _ rfl
    exact confined

end Steps

end Staging

end ImageStaging
