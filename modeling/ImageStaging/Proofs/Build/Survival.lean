import ImageStaging.Proofs.Build.Call
import ImageStaging.Proofs.Config
import ImageStaging.Proofs.Staging.Link

/-!
# The survival of the image source

A configuration spares the image source if no run with it touches what staging reads there. It does
so exactly if its context directory has no slash in it, or cannot be the name of an entry at all.
With a slash, the context directory can be a link to what staging reads, which a reset empties. A
source that cannot be found before the run has no entries to lose, and one that is found by way of
its own context can be lost in any case; both are left out.
-/

namespace ImageStaging.Build

open FileSystem (AgreeOff Emptied Site checkPath)
open Layout (contextName dockerfileName sourceTreeName)
open ImageStaging.Action (Ends)

variable {world : World} {request : Request} {config : Config} {tool : Tool}
  {directory : Location} {files other : FileSystem} {name target : Name}

/-- The entries of a source that staging reads, and what is below them, are as they were. -/
def SourceKept (directory : Location) (files other : FileSystem) : Prop :=
  ∀ text ∈ Layout.reserved, ∀ entry : Name, Path.ofString text = entry.toPath → ∀ rest,
    other.get? (directory ++ entry :: rest) = files.get? (directory ++ entry :: rest)

/-- Every run keeps its source, however it ends, if the source is a directory that is found before
the run, the way to it does not lead through the context, and the build tool does not touch it. -/
def SparesSource (config : Config) : Prop :=
  ∀ (world : World) (request : Request) (tool : Tool) (directory : Location),
    world.files.locate .target request.source = .ok directory →
    world.files.get? directory = some .directory →
    (∀ name : Name, (Path.ofString config.contextDirectory).moves = [.enter name] →
      world.files.Avoids (directory ++ [name]) request.source) →
    (∀ invocation, (tool invocation).Keeps (SourceKept directory world.files)) →
    (run request config tool).Ends world
      (fun _ after => SourceKept directory world.files after.files)
      (fun _ after => SourceKept directory world.files after.files)

/-! ## Sources that are kept -/

/-- What differs only at another entry of the source leaves the source as it was. -/
theorem sourceKept_of_agreeOff (accepted : config.validate = .ok ())
    (named : Path.ofString config.contextDirectory = name.toPath)
    (agree : AgreeOff (directory ++ [name]) files other) : SourceKept directory files other := by
  intro text reserved entry isEntry rest
  refine agree.get? _ fun below => ?_
  have same := (List.cons_prefix_cons.1 ((List.prefix_append_right_inj directory).1 below)).1
  exact Config.name_ne_reserved accepted named ⟨text, reserved, isEntry⟩ same

theorem sparesSource_of_noSlash (accepted : config.validate = .ok ())
    (noSlash : '/' ∉ config.contextDirectory.toList) (nameable : config.Nameable) :
    SparesSource config := by
  intro world request tool directory found isDirectory avoids aside
  obtain ⟨name, named⟩ := Config.name_of_nameable accepted noSlash nameable
  have moves : (Path.ofString config.contextDirectory).moves = [.enter name] := by
    rw [named, Name.moves_toPath]
  have site : Site world.files request.source directory name :=
    ⟨found, isDirectory, avoids name moves⟩
  refine run_ends ?_ aside
  refine (assemble_ends named site).mono ?_ ?_
  · rintro context after ⟨copied, populated, rendered, assembled⟩
    exact sourceKept_of_agreeOff accepted named assembled.confined.agree
  · intro _ after agree
    exact sourceKept_of_agreeOff accepted named agree

theorem sparesSource_of_not_nameable (accepted : config.validate = .ok ())
    (unnameable : ¬ config.Nameable) : SparesSource config := by
  intro world request tool directory found isDirectory _ aside
  obtain ⟨fault, notMissing, failed⟩ :=
    Config.locate_of_not_nameable accepted unnameable found isDirectory
  refine run_ends ?_ aside
  refine (assemble_unusable_ends notMissing failed).mono ?_ ?_
  · intro _ _ impossible
    exact impossible.elim
  · intro _ after same
    rw [same]
    exact fun _ _ _ _ _ => rfl

/-! ## Sources that are lost -/

/-- A root directory with a directory in it, a file in that, and a link to the directory. -/
def linkedFiles (name target : Name) : FileSystem :=
  ((FileSystem.empty.place [target] .directory).place [target, target] (.file [] false)).place
    [name] (.link target.toPath)

theorem get?_linkedFiles (differ : target ≠ name) (place : Location) :
    (linkedFiles name target).get? place =
      if place = [name] then some (.link target.toPath)
      else if place = [target, target] then some (.file [] false)
      else if place = [target] then some .directory
      else FileSystem.empty.get? place := by
  have nothing : ∀ names : Location, names ≠ [] → FileSystem.empty.get? names = none := by
    intro names proper
    rw [FileSystem.get?, FileSystem.find, if_neg proper]
    rfl
  have first : FileSystem.empty.Accepts [target] :=
    ⟨by simp, by simp, by simp [nothing]⟩
  have second : (FileSystem.empty.place [target] .directory).Accepts [target, target] :=
    ⟨by simp, by simp [FileSystem.get?_place, first], by simp [FileSystem.get?_place, nothing]⟩
  have third : ((FileSystem.empty.place [target] .directory).place [target, target]
      (.file [] false)).Accepts [name] :=
    ⟨by simp, by simp, by simp [FileSystem.get?_place, nothing, Ne.symm differ]⟩
  simp only [linkedFiles, FileSystem.get?_place, first, second, third, true_and]

/-- Some name that staging reads is not a given name. -/
theorem exists_reserved_ne (name : Name) :
    ∃ text ∈ Layout.reserved, ∃ target : Name, Path.ofString text = target.toPath ∧
      target ≠ name := by
  by_cases isTree : sourceTreeName = name
  · refine ⟨Layout.dockerfile, by decide, dockerfileName, rfl, ?_⟩
    rw [← isTree]
    decide
  · exact ⟨Layout.sourceTree, by decide, sourceTreeName, rfl, isTree⟩

/-- The path of the root directory. -/
def rootPath : Path :=
  ⟨[Path.slash]⟩

theorem checkPath_rootPath_join (accepted : config.validate = .ok ()) (nameable : config.Nameable) :
    checkPath (rootPath.join (Path.ofString config.contextDirectory)) = .ok () := by
  obtain ⟨name, stays, _, steps⟩ := Config.steps_of_nameable accepted nameable
  have plain := (Config.of_validate accepted).1
  have noNul := Config.zero_notMem plain steps
  obtain ⟨relative, _⟩ := Config.pieces_of_isPlainName plain
  have bytes : (rootPath.join (Path.ofString config.contextDirectory)).bytes =
      Path.slash :: (Path.ofString config.contextDirectory).bytes := by
    rw [Path.join, if_neg (by simp [relative]), if_pos (by decide)]
    rfl
  rw [checkPath, bytes, if_neg, if_neg (by simp), if_neg]
  · rw [List.length_cons]
    exact Nat.not_lt.2 nameable.2
  · rw [List.mem_cons, not_or]
    exact ⟨by decide, noNul⟩

theorem avoids_rootPath (files : FileSystem) (name : Name) : files.Avoids [name] rootPath := by
  intro location member below
  have isRoot : location ∈ [[]] := by
    have trail : files.trailOf rootPath = [[]] := by
      rw [FileSystem.trailOf, show rootPath.steps = [] from rfl, FileSystem.trail_nil]
      rfl
    rwa [trail] at member
  rw [List.mem_singleton.1 isRoot] at below
  exact absurd (List.prefix_nil.1 below) (by simp)

/-- The context directory is a link to an entry of the source, and the reset empties the entry. -/
theorem not_sparesSource (accepted : config.validate = .ok ())
    (slash : '/' ∈ config.contextDirectory.toList) (nameable : config.Nameable) :
    ¬ SparesSource config := by
  intro spares
  obtain ⟨name, stays, still, steps⟩ := Config.steps_of_nameable accepted nameable
  obtain ⟨text, reserved, target, isTarget, differ⟩ := exists_reserved_ne name
  have plain := (Config.of_validate accepted).1
  obtain ⟨relative, _⟩ := Config.pieces_of_isPlainName plain
  let files := linkedFiles name target
  let request : Request := ⟨rootPath, [], [], true⟩
  have isLink : files.get? [name] = some (.link target.toPath) := by
    rw [get?_linkedFiles differ, if_pos rfl]
  have isDirectory : files.get? [target] = some .directory := by
    simp [files, get?_linkedFiles differ, differ]
  have isFile : files.get? [target, target] = some (.file [] false) := by
    simp [files, get?_linkedFiles differ]
  have demands : stays ≠ [] ∨
      (rootPath.join (Path.ofString config.contextDirectory)).endsWithSlash = true := by
    by_cases last : stays = []
    · have nonempty : (Path.ofString config.contextDirectory).bytes ≠ [] := by
        intro empty
        rw [Path.steps_of_empty empty] at steps
        cases steps
      rw [last] at steps
      rw [Path.endsWithSlash_join relative nonempty]
      exact .inr (Config.endsWithSlash_of_slash plain slash steps)
    · exact .inl last
  have joined : (rootPath.join (Path.ofString config.contextDirectory)).steps =
      .enter name :: stays := by
    rw [Path.steps_join relative, steps]
    rfl
  -- The run fails while it resets the context, and by then the entry of the source is empty.
  have emptied : (run request config fun _ => pure ()).Ends { files } (fun _ _ => False)
      (fun _ after => Emptied [target] files after.files) := by
    refine run_of_assemble_fails (assemble_of_reset (Emptied [target] files) ?_ ?_)
    · exact fun rejected => absurd accepted rejected
    · intro announced same
      have same : announced.files = files := same
      rw [← same] at isLink isDirectory ⊢
      exact Staging.reset_through_link_ends isLink isDirectory still
        (checkPath_rootPath_join accepted nameable) (Path.isAbsolute_join relative) joined demands
  have kept := spares { files } request (fun _ => pure ()) [] rfl (FileSystem.get?_root files)
    (fun other _ => avoids_rootPath files other) fun _ => Action.keeps_pure ()
  have both := kept.and emptied
  unfold Ends at both
  split at both
  · exact both.2
  · next fault after _ =>
    have lost := both.2.inside target
    rw [List.singleton_append] at lost
    have stands := both.1 text reserved target isTarget [target]
    rw [List.nil_append, lost] at stands
    exact absurd (stands.trans isFile) (by simp)

/-- Which of the accepted configurations spare the image source. -/
theorem sparesSource_iff (accepted : config.validate = .ok ()) :
    SparesSource config ↔ '/' ∉ config.contextDirectory.toList ∨ ¬ config.Nameable := by
  constructor
  · intro spares
    by_contra neither
    rw [not_or, not_not, not_not] at neither
    exact not_sparesSource accepted neither.1 neither.2 spares
  · intro either
    by_cases nameable : config.Nameable
    · rcases either with noSlash | unnameable
      · exact sparesSource_of_noSlash accepted noSlash nameable
      · exact absurd nameable unnameable
    · exact sparesSource_of_not_nameable accepted nameable

/-- The context directory of the default configuration is harmless, and `src/` is not. -/
theorem sparesSource_default :
    Config.validate {} = .ok () ∧ SparesSource {} ∧
      Config.validate { contextDirectory := "src/" } = .ok () ∧
        ¬ SparesSource { contextDirectory := "src/" } := by
  have default : Config.validate {} = .ok () := by decide
  have withSlash : Config.validate { contextDirectory := "src/" } = .ok () := by decide
  refine ⟨default, (sparesSource_iff default).2 (.inl (by decide)), withSlash, fun spares => ?_⟩
  rcases (sparesSource_iff withSlash).1 spares with noSlash | unnameable
  · exact absurd noSlash (by decide)
  · exact unnameable ⟨⟨sourceTreeName, rfl⟩, by decide⟩

/-! ## Sources found by way of their context -/

def nestedImage : Location :=
  [Layout.nameOf "outer", contextName]

/-- An image in the context of another one. A link in its own context leads to a directory of it,
and from there a path goes up to it again. -/
def nestedFiles : FileSystem :=
  [([Layout.nameOf "outer"], .directory),
    ([Layout.nameOf "outer", dockerfileName], .file [1] false),
    (nestedImage, .directory),
    (nestedImage ++ [dockerfileName], .file [2] false),
    (nestedImage ++ [Layout.nameOf "b"], .directory),
    (nestedImage ++ [Layout.nameOf "b", Layout.nameOf "c"], .directory),
    (nestedImage ++ [Layout.nameOf "b", Layout.nameOf "c", Layout.nameOf "deep"], .directory),
    (nestedImage ++ [contextName], Entry.directory),
    (nestedImage ++ [contextName, Layout.nameOf "link"],
      .link (Path.ofString "/outer/_docker-build/b/c/deep"))].foldl
    (fun files item => files.place item.1 item.2) .empty

def nestedRequest : Request :=
  ⟨Path.ofString "/outer/_docker-build/_docker-build/link/../../..", [], [], true⟩

/-- When the link has gone with the context, the same path leads to the outer image, and the outer
Dockerfile is copied over the inner one. -/
example :
    (nestedFiles.locate .target nestedRequest.source).toOption = some nestedImage ∧
      nestedFiles.get? (nestedImage ++ [dockerfileName]) = some (.file [2] false) ∧
      ((run nestedRequest {} fun _ => pure ()).run.run { files := nestedFiles }).2.files.get?
        (nestedImage ++ [dockerfileName]) = some (.file [1] false) := by
  decide +kernel

end ImageStaging.Build
