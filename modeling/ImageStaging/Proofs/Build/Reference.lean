import ImageStaging.Proofs.Build.Handover

/-!
# Which shared files reach the build

What a file reference brings into the context is still there at the call, except at the three places
that are written or cleared after the files were fetched: the final Dockerfile, the sibling that
it is written to, and the template.
-/

namespace ImageStaging.Build

open Layout (contextName dockerfileName imageName templateName temporaryName)
open Replacement (Replaced)
open Template (Brings Fetched FirstHolder LibrariesApart containedPath? references sharedPath)

variable {world atCall : World} {context : BuildContext} {request : Request} {config : Config}
  {populated : World} {rendered files : FileSystem} {root : Location} {copied : Option Flavour}

/-- A place in the context is taken, and every file of a tree has its content there. -/
def Delivered (start files : FileSystem) (held : Path) (place : Location) : Prop :=
  (files.get? place).isSome ∧ ∀ rest content executable,
    start.tree held rest = some (.file content executable) →
    ∃ executable, files.get? (place ++ rest) = some (.file content executable)

/-- A source with a template that keeps out of the context is built as one. -/
theorem Assembled.isTemplate
    (assembled : Assembled world request config context root copied populated rendered files)
    {template : Text}
    (read : world.files.readText (request.source.join templateName.toPath) = .ok template)
    (templateOut : world.files.Apart root (request.source.join templateName.toPath)) :
    context.flavour = .template := by
  have chosen := assembled.staged.chosen
  cases isFlavour : context.flavour with
  | template => rfl
  | plain =>
    rw [isFlavour] at chosen
    have missing := chosen.1
    rw [Layout.toPath_templateName, assembled.staged.confined.agree.exists?_eq templateOut.here,
      FileSystem.exists?_eq_ok_false_iff] at missing
    rw [FileSystem.readText, FileSystem.read, missing] at read
    cases read

theorem eq_of_append_eq_singleton {names rest : List Name} {name : Name} (proper : names ≠ [])
    (whole : names ++ rest = [name]) : names = [name] ∧ rest = [] :=
  (List.append_eq_singleton_iff.1 whole).resolve_left fun ⟨empty, _⟩ => proper empty

section Fetched

variable (assembled : Assembled world request config context root copied populated rendered files)
  {references : List Text} {content : Bytes} {middle : FileSystem}
  (fetched : Fetched world.files root request.libraries references populated.files middle)
  (replaced : Replaced root content middle rendered)
include assembled fetched replaced

theorem Assembled.brought_at_call {inner : Text} (member : inner ∈ references) {place : List Name}
    {entry : Entry} (brings : Brings world.files request.libraries inner place entry)
    (notDockerfile : place ≠ [dockerfileName]) (notTemporary : place ≠ [temporaryName])
    (notTemplate : place ≠ [templateName]) : files.get? (root ++ place) = some entry := by
  rw [assembled.get?_eq replaced notDockerfile notTemporary notTemplate]
  exact fetched.present inner member place entry brings

section Held

variable {inner : Text} (member : inner ∈ references) {path library : Path} {names : List Name}
  (contained : containedPath? (sharedPath inner) = some path)
  (moves : path.moves = names.map .enter)
  (holder : FirstHolder world.files request.libraries path library)
include member contained moves holder

/-- What stands below the path in the library, the reference brings below its place. -/
theorem Assembled.brought_below (proper : names ≠ []) (notTemplate : names ≠ [templateName])
    (notTemporary : names ≠ [temporaryName]) {rest : List Name} {entry : Entry}
    (stands : world.files.tree (library.join path) rest = some entry)
    (notDockerfile : names ++ rest ≠ [dockerfileName]) :
    files.get? (root ++ (names ++ rest)) = some entry := by
  have brings : Brings world.files request.libraries inner (names ++ rest) entry :=
    ⟨path, library, names, rest, contained, holder, moves, rfl, stands⟩
  exact assembled.brought_at_call fetched replaced member brings notDockerfile
    (fun whole => notTemporary (eq_of_append_eq_singleton proper whole).1)
    fun whole => notTemplate (eq_of_append_eq_singleton proper whole).1

theorem Assembled.delivered_iff :
    Delivered world.files files (library.join path) (root ++ names) ↔
      names ≠ [templateName] ∧ names ≠ [temporaryName] ∧
        (names = [dockerfileName] → ∀ held executable,
          world.files.tree (library.join path) [] = some (.file held executable) → held = content) := by
  obtain ⟨finalBit, atDockerfile⟩ := assembled.dockerfile_at_call replaced
  constructor
  · rintro ⟨stands, faithful⟩
    refine ⟨?_, ?_, ?_⟩
    · rintro rfl
      rw [assembled.finalized.template] at stands
      cases stands
    · rintro rfl
      rw [assembled.no_temporary_at_call replaced] at stands
      cases stands
    · rintro rfl held executable atTop
      obtain ⟨_, found⟩ := faithful [] held executable atTop
      rw [List.append_nil, atDockerfile] at found
      exact (Entry.file.inj (Option.some.inj found)).1.symm
  · rintro ⟨notTemplate, notTemporary, sameContent⟩
    obtain ⟨front, proper, moves'⟩ := Template.names_of_holder contained holder.holds
    obtain rfl : front = names :=
      List.map_injective_iff.2 Path.enter_injective (moves'.symm.trans moves)
    have brought : ∀ rest entry, world.files.tree (library.join path) rest = some entry →
        front ++ rest ≠ [dockerfileName] → files.get? (root ++ (front ++ rest)) = some entry :=
      fun rest entry => assembled.brought_below fetched replaced member contained moves holder
        proper notTemplate notTemporary
    obtain ⟨top, atTop⟩ := FileSystem.exists?_eq_ok_true_iff.1 holder.holds
    have atTop : world.files.tree (library.join path) [] = some top :=
      FileSystem.tree_eq_some_iff.2 atTop
    constructor
    · by_cases isDockerfile : front = [dockerfileName]
      · rw [isDockerfile, atDockerfile]
        rfl
      · have stands := brought [] top atTop (by simpa using isDockerfile)
        rw [List.append_nil] at stands
        rw [stands]
        rfl
    · intro rest held executable stands
      rw [List.append_assoc]
      by_cases isDockerfile : front ++ rest = [dockerfileName]
      · obtain ⟨isFront, rfl⟩ := eq_of_append_eq_singleton proper isDockerfile
        rw [isDockerfile, sameContent isFront held executable stands]
        exact ⟨finalBit, atDockerfile⟩
      · exact ⟨executable, brought rest _ stands isDockerfile⟩

end Held

end Fetched

/-- At the call every reference of a template has what it brings in its place, unless the place is
one that is written or cleared later. -/
theorem reference_delivered_iff (accepted : config.validate = .ok ())
    (noSlash : '/' ∉ config.contextDirectory.toList) (nonempty : request.source.bytes ≠ [])
    (calls : Calls request config world context atCall) {template : Text}
    (read : world.files.readText (request.source.join templateName.toPath) = .ok template)
    (templateOut : KeepsOut world.files request config (request.source.join templateName.toPath))
    (librariesOut : ∀ library ∈ request.libraries, KeepsOut world.files request config library)
    {inner : Text} (member : inner ∈ references .file template) :
    ∃ root, ContextAt world.files request config root ∧
      ∃ path names library content, containedPath? (sharedPath inner) = some path ∧
        path.moves = names.map .enter ∧
        FirstHolder world.files request.libraries path library ∧
        Yields world request config context content (references .file template) ∧
        (Delivered world.files atCall.files (library.join path) (root ++ names) ↔
          names ≠ [templateName] ∧ names ≠ [temporaryName] ∧
          (names = [dockerfileName] → ∀ held executable,
            world.files.tree (library.join path) [] = some (.file held executable) →
            held = content)) := by
  obtain ⟨entry, stands⟩ : ∃ entry,
      world.files.examine (request.source.join templateName.toPath) = .ok entry := by
    cases found : world.files.examine (request.source.join templateName.toPath) with
    | ok entry => exact ⟨entry, rfl⟩
    | error fault =>
      rw [FileSystem.readText, FileSystem.read, found] at read
      cases read
  obtain ⟨root, contextAt, copied, populated, rendered, assembled⟩ :=
    calls.assembled accepted noSlash nonempty stands templateOut
  have isTemplate := assembled.isTemplate read (templateOut root contextAt)
  have librariesApart : LibrariesApart world.files root request.libraries :=
    fun library member => librariesOut library member root contextAt
  have fileOut : world.files.Apart root (request.source.join context.flavour.name.toPath) := by
    rw [isTemplate]
    exact templateOut root contextAt
  obtain ⟨template', middle, text, read', yields, fetched, replaced⟩ :=
    assembled.replaced_of_template isTemplate fileOut librariesApart
  obtain rfl : template = template' := Except.ok.inj (read.symm.trans read')
  obtain ⟨_, _, path, library, names, _, contained, holder, moves, _, _⟩ :=
    fetched.resolves inner member
  exact ⟨root, contextAt, path, names, library, _, contained, moves, holder, yields,
    assembled.delivered_iff fetched replaced member contained moves holder⟩

/-- Of two files that a template refers to, one is there at the call and one is not. -/
theorem reference_delivered_iff_sample :
    ∃ atCall, Calls sampleRequest {} { files := sampleFiles } sampleContext atCall ∧
      (∃ path library, containedPath? (sharedPath "tool".toList) = some path ∧
        FirstHolder sampleFiles sampleRequest.libraries path library ∧
        Delivered sampleFiles atCall.files (library.join path)
          [imageName, contextName, Layout.nameOf "tool"]) ∧
      ∃ path library, containedPath? (sharedPath ".Dockerfile.tmp".toList) = some path ∧
        FirstHolder sampleFiles sampleRequest.libraries path library ∧
        ¬ Delivered sampleFiles atCall.files (library.join path)
          [imageName, contextName, temporaryName] := by
  obtain ⟨atCall, calls⟩ := sample_calls
  have read : sampleFiles.readText (sampleRequest.source.join templateName.toPath) =
      .ok sampleTemplate.toList := by decide +kernel
  have holds (inner : Text) (member : inner ∈ references .file sampleTemplate.toList) :=
    reference_delivered_iff (by decide) (by decide) (by decide) calls read sample_templateOut
      sample_librariesOut member
  refine ⟨atCall, calls, ?_, ?_⟩
  · obtain ⟨root, contextAt, path, names, library, content, contained, moves, holder, _, iff⟩ :=
      holds "tool".toList (by decide +kernel)
    have isPath : containedPath? (sharedPath "tool".toList) = some (Path.ofString "tool") := by
      decide
    obtain rfl := Option.some.inj (isPath.symm.trans contained)
    obtain rfl : [Layout.nameOf "tool"] = names :=
      List.map_injective_iff.2 Path.enter_injective moves
    rw [sample_contextAt contextAt] at iff
    have notDockerfile : [Layout.nameOf "tool"] ≠ [dockerfileName] := by decide
    exact ⟨_, library, contained, holder,
      iff.2 ⟨by decide, by decide, fun same => absurd same notDockerfile⟩⟩
  · obtain ⟨root, contextAt, path, names, library, content, contained, moves, holder, _, iff⟩ :=
      holds ".Dockerfile.tmp".toList (by decide +kernel)
    have isPath : containedPath? (sharedPath ".Dockerfile.tmp".toList) =
        some (Path.ofString ".Dockerfile.tmp") := by decide
    obtain rfl := Option.some.inj (isPath.symm.trans contained)
    obtain rfl : [temporaryName] = names := List.map_injective_iff.2 Path.enter_injective moves
    rw [sample_contextAt contextAt] at iff
    exact ⟨_, library, contained, holder, fun delivered => (iff.1 delivered).2.1 rfl⟩

end ImageStaging.Build
