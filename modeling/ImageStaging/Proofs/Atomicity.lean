import ImageStaging.Proofs.Directories
import ImageStaging.Proofs.FileSystem.Reach
import ImageStaging.Proofs.Layout
import ImageStaging.Proofs.Text.Utf8
import ImageStaging.Replacement

/-!
# Replacing is all or nothing

The journal tells every state that the files go through while a file is replaced. In each of them
the entry of the path is the one from before or the new file, and whatever else is different is the
sibling or a directory that was missing on the way. So wherever the run stops, nothing is lost.
-/

namespace ImageStaging

open FileSystem (Altered AsksEntry Between EntryAt Laid Straight checkPath linkLimit)

/-! ## The states between two worlds -/

/-- The journal grew from one world to the other, and the files had a property before and after each
of its steps. -/
def World.Through (property : FileSystem → Prop) (before after : World) : Prop :=
  ∃ steps, after.journal = before.journal ++ steps ∧ after.files = before.files.applyAll steps ∧
    ∀ front, front <+: steps → property (before.files.applyAll front)

namespace World.Through

variable {property wider : FileSystem → Prop} {before middle after : World}

/-- Only the files and the journal matter. -/
theorem unchanged (sameFiles : after.files = before.files)
    (sameJournal : after.journal = before.journal) (holds : property after.files) :
    Through property before after := by
  refine ⟨[], by rw [sameJournal, List.append_nil], sameFiles, fun front within => ?_⟩
  rw [List.prefix_nil.1 within]
  exact sameFiles ▸ holds

theorem refl (holds : property after.files) : Through property after after :=
  unchanged rfl rfl holds

theorem changed (step : Change) (reached : after.files = before.files.apply step)
    (grown : after.journal = before.journal ++ [step]) (holds : property before.files)
    (holdsThen : property (before.files.apply step)) : Through property before after := by
  refine ⟨[step], grown, reached, fun front within => ?_⟩
  rcases List.prefix_cons_iff.1 within with rfl | ⟨rest, rfl, shorter⟩
  · exact holds
  · rw [List.prefix_nil.1 shorter]
    exact holdsThen

theorem change (step : Change) (holds : property before.files)
    (holdsThen : property (before.files.apply step)) :
    Through property before { before with
      files := before.files.apply step, journal := before.journal ++ [step] } :=
  changed step rfl rfl holds holdsThen

theorem trans (first : Through property before middle) (second : Through property middle after) :
    Through property before after := by
  obtain ⟨steps, grown, reached, holds⟩ := first
  obtain ⟨more, grown', reached', holds'⟩ := second
  refine ⟨steps ++ more, by rw [grown', grown, List.append_assoc], ?_, fun front within => ?_⟩
  · rw [reached', reached, FileSystem.applyAll_append]
  · rcases List.prefix_or_prefix_of_prefix within (List.prefix_append steps more) with
      early | ⟨late, rfl⟩
    · exact holds front early
    · rw [FileSystem.applyAll_append, ← reached]
      exact holds' late ((List.prefix_append_right_inj steps).1 within)

theorem last (through : Through property before after) : property after.files := by
  obtain ⟨steps, -, reached, holds⟩ := through
  rw [reached]
  exact holds steps List.prefix_rfl

theorem mono (through : Through property before after)
    (widen : ∀ files, property files → wider files) : Through wider before after := by
  obtain ⟨steps, grown, reached, holds⟩ := through
  exact ⟨steps, grown, reached, fun front within => widen _ (holds front within)⟩

end World.Through

namespace Files

variable {world : World} {path : Path}

/-- Until its last directory is made, a path has some of those that it has in the end. -/
theorem makeDirectories_through (path : Path) :
    (makeDirectories path).Ends world
      (fun _ after => world.Through (Between world.files after.files) after)
      (fun _ after => world.Through (Between world.files after.files) after) := by
  refine @makeDirectories_keeps world path
    (fun now => world.Through (Between world.files now.files) now) ?_ (.refl (.refl _))
  intro now above here name through _ out
  exact (through.mono fun _ between => between.further _).trans
    (.change _ (through.last.further _) (through.last.made out.nothing))

end Files

namespace Replacement

variable {world : World} {files middle now : FileSystem} {path above sibling : Path}
  {directory place : Location} {name : Name} {content : Bytes} {entry : Option Entry}

/-! ## The sibling -/

/-- The sibling is called by another name in the directory of the path. -/
theorem temporary_join {bytes : Bytes} {temporary : Path} (named : path.fileName? = some bytes)
    (found : path.parent? = some above) (isTemporary : temporary? path = some temporary) :
    ∃ sibling, temporary = above.join sibling ∧ AsksEntry sibling ∧ sibling.bytes ≠ bytes := by
  obtain ⟨-, -, -, -, noSlash, -⟩ := Path.moves_of_fileName? named
  rw [temporary?, named, found] at isTemporary
  cases decodes : Utf8.decode? bytes with
  | none =>
    simp only [Option.bind_eq_bind, Option.bind_some, decodes] at isTemporary
    cases isTemporary
  | some text =>
    simp only [Option.bind_eq_bind, Option.bind_some, decodes, Option.getD_some,
      Option.some.injEq] at isTemporary
    subst isTemporary
    have starts : (Path.ofText ('.' :: text ++ ['.', 't', 'm', 'p'])).bytes =
        Path.dot :: (Utf8.encode text ++ Utf8.encode ['.', 't', 'm', 'p']) := by
      simp only [Path.ofText, Utf8.encode, List.cons_append, List.flatMap_cons, List.flatMap_append]
      rfl
    have notSlash : Path.slash ∉ (Path.ofText ('.' :: text ++ ['.', 't', 'm', 'p'])).bytes := by
      intro member
      have inText : '/' ∈ '.' :: text ++ ['.', 't', 'm', 'p'] :=
        Utf8.mem_of_mem_encode (by decide) member
      have inName : '/' ∈ text := by simpa using inText
      exact noSlash (Utf8.mem_of_mem_decode decodes (by decide) (by decide) inName)
    have long : 2 < (Path.ofText ('.' :: text ++ ['.', 't', 'm', 'p'])).bytes.length := by
      have ending : (Utf8.encode ['.', 't', 'm', 'p']).length = 4 := by decide
      rw [starts, List.length_cons, List.length_append, ending]
      omega
    have relative : (Path.ofText ('.' :: text ++ ['.', 't', 'm', 'p'])).isAbsolute = false := by
      rw [Path.isAbsolute, starts]
      rfl
    have differs : ∀ short : Bytes, short.length ≤ 2 →
        (Path.ofText ('.' :: text ++ ['.', 't', 'm', 'p'])).bytes ≠ short := by
      rintro _ few rfl
      exact absurd long (Nat.not_lt.2 few)
    refine ⟨_, rfl, ⟨relative, Path.name_or_impossible notSlash ?_ ?_ ?_⟩, ?_⟩
    · exact differs [] (by decide)
    · exact differs [Path.dot] (by decide)
    · exact differs [Path.dot, Path.dot] (by decide)
    · intro same
      have again : Utf8.parts bytes = ('.' :: text ++ ['.', 't', 'm', 'p']).map some := by
        rw [← same]
        exact Utf8.parts_encode _
      rw [Utf8.parts_of_decode? decodes] at again
      have := congrArg List.length again
      simp at this
      omega

/-! ## Making the parent -/

/-- Making the parent of a path makes some of its missing directories, and if it succeeds the parent
leads where it reaches. -/
theorem makeParent_through (found : path.parent? = some above)
    (straight : Straight world.files above) :
    (makeParent path).Ends world
      (fun _ after => world.Through (Laid world.files above) after ∧
        ∀ directory, after.files.Comes above directory → world.files.Reaches above directory)
      (fun _ after => world.Through (Laid world.files above) after) := by
  unfold makeParent
  rw [found]
  simp only [Action.ends_bind, Action.ends_get]
  have unchanged : world.Through (Laid world.files above) world := .refl (.refl _ _)
  split
  · exact ⟨unchanged, fun directory comes => .there comes⟩
  · rw [Action.ends_blaming]
    refine ((Files.makeDirectories_through above).and
      (Files.makeDirectories_reaches straight)).mono ?_ ?_
    · rintro _ after ⟨through, laid, place, reaches, comes, -⟩
      exact ⟨through.mono fun _ between => laid.between between, fun directory comes' =>
        comes.unique comes' ▸ reaches⟩
    · rintro _ after ⟨through, laid⟩
      exact through.mono fun _ between => laid.between between

/-! ## What differs on the way -/

/-- The place of the sibling. -/
def SiblingAt (files : FileSystem) (path : Path) (place : Location) : Prop :=
  ∃ temporary, temporary? path = some temporary ∧ files.EntryAt temporary place

/-- A place is as it was, or a directory has been made there that was missing on the way. -/
def Spared (files : FileSystem) (path : Path) (now : FileSystem) (place : Location) : Prop :=
  now.get? place = files.get? place ∨
    (files.get? place = none ∧ now.get? place = some .directory ∧
      ∃ above, path.parent? = some above ∧ files.Spells above place)

/-- A state that the files go through: the entry is the one from before or a file with the whole
content, and nothing but the sibling is different beside it. -/
structure Underway (files : FileSystem) (path : Path) (content : Bytes) (now : FileSystem) :
    Prop where
  workingDirectory : now.workingDirectory = files.workingDirectory
  entry : ∀ place, files.EntryAt path place → now.get? place = files.get? place ∨
    ∃ executable, now.get? place = some (.file content executable)
  others : ∀ place, ¬ files.EntryAt path place → ¬ SiblingAt files path place →
    Spared files path now place

/-- Where the sibling of a path can be written: its name is free or a file has it. -/
structure Workplace (files middle : FileSystem) (path above : Path) (directory : Location)
    (name : Name) : Prop where
  parent : path.parent? = some above
  temporary : temporary? path = some (above.join name.toPath)
  differs : path.moves ≠ above.moves ++ [.enter name]
  laid : Laid files above middle
  reaches : files.Reaches above directory
  comes : middle.Comes above directory
  isDirectory : middle.get? directory = some .directory
  checked : checkPath (above.join name.toPath) = .ok ()
  notDirectory : middle.get? (directory ++ [name]) ≠ some .directory
  notLink : ∀ target, middle.get? (directory ++ [name]) ≠ some (.link target)

theorem Spared.of_laid (laid : Laid files above now) (found : path.parent? = some above)
    (place : Location) : Spared files path now place :=
  (laid.grown place).imp_right fun ⟨nothing, made, spells⟩ =>
    ⟨nothing, made, above, found, spells⟩

/-- Missing directories are made above the entry. -/
theorem get?_entry_of_laid (laid : Laid files above now) (found : path.parent? = some above)
    (entryAt : files.EntryAt path place) : now.get? place = files.get? place := by
  obtain ⟨above', name, directory, found', -, reaches, rfl⟩ := entryAt
  obtain rfl := Option.some.inj (found.symm.trans found')
  exact laid.get?_child reaches name

theorem Underway.of_laid (laid : Laid files above now) (found : path.parent? = some above)
    (content : Bytes) : Underway files path content now :=
  ⟨laid.workingDirectory, fun _ entryAt => .inl (get?_entry_of_laid laid found entryAt),
    fun place _ _ => .of_laid laid found place⟩

namespace Workplace

variable (workplace : Workplace files middle path above directory name)
include workplace

theorem siblingAt : SiblingAt files path (directory ++ [name]) := by
  have relative := name.isAbsolute_toPath
  refine ⟨_, workplace.temporary, EntryAt.of_reaches (Path.isAbsolute_join relative).symm ?_
    workplace.reaches⟩
  rw [Path.moves_join relative, name.moves_toPath]

theorem eq_of_siblingAt (siblingAt : SiblingAt files path place) : place = directory ++ [name] := by
  obtain ⟨temporary, isTemporary, entryAt⟩ := siblingAt
  obtain rfl := Option.some.inj (workplace.temporary.symm.trans isTemporary)
  have relative := name.isAbsolute_toPath
  refine EntryAt.eq (Path.isAbsolute_join relative).symm ?_ workplace.reaches entryAt
  rw [Path.moves_join relative, name.moves_toPath]

theorem not_entryAt : ¬ files.EntryAt path (directory ++ [name]) := by
  rintro ⟨above', name', directory', found, moves, reaches, same⟩
  obtain rfl := Option.some.inj (workplace.parent.symm.trans found)
  obtain ⟨-, isLast⟩ := List.append_inj' same rfl
  obtain rfl := (List.cons.inj isLast).1
  exact workplace.differs moves

/-- Whatever stands at the sibling, the run is underway. -/
theorem underway (altered : Altered (directory ++ [name]) entry middle now) (content : Bytes) :
    Underway files path content now := by
  have before := Underway.of_laid workplace.laid workplace.parent content
  refine ⟨altered.workingDirectory.trans before.workingDirectory, fun place entryAt => ?_,
    fun place notEntry notSibling => ?_⟩
  · rw [altered.elsewhere]
    · exact before.entry place entryAt
    · rintro rfl
      exact workplace.not_entryAt entryAt
  · rw [Spared, altered.elsewhere]
    · exact before.others place notEntry notSibling
    · rintro rfl
      exact notSibling workplace.siblingAt

theorem isDirectory_now (altered : Altered (directory ++ [name]) entry middle now) :
    now.get? directory = some .directory := by
  rw [altered.elsewhere (by simp), workplace.isDirectory]

theorem comes_now (altered : Altered (directory ++ [name]) entry middle now) :
    now.Comes above directory :=
  altered.comes workplace.notDirectory workplace.notLink workplace.comes

/-- The sibling can be taken away. -/
theorem discard_ends {old : Entry} (content : Bytes)
    (altered : Altered (directory ++ [name]) (some old) middle world.files)
    (notDirectory : old ≠ .directory) :
    (discard (above.join name.toPath)).Ends world
      (fun _ after => world.Through (Underway files path content) after ∧
        Altered (directory ++ [name]) none middle after.files)
      (fun _ _ => False) := by
  have standsNow := altered.at_location
  have removes := FileSystem.removeFile_join (workplace.comes_now altered).leads
    (workplace.isDirectory_now altered) workplace.checked standsNow notDirectory
  have pruned : Altered (directory ++ [name]) none world.files
      (world.files.prune (directory ++ [name])) :=
    .of_prune (by simpa [standsNow] using notDirectory)
  unfold discard
  simp only [Action.ends_bind, Action.ends_attempt, Action.ends_edit, Action.ends_pure, removes]
  refine ⟨?_, fun _ impossible => by cases impossible⟩
  rintro _ ⟨⟩
  refine ⟨.change _ (workplace.underway altered content) ?_, altered.trans pruned⟩
  exact workplace.underway (altered.trans pruned) content

end Workplace

/-- No link stands at the sibling if its path does not lead to one. -/
theorem not_link_of_examineLink
    (noLink : ∀ target, files.examineLink (above.join name.toPath) ≠ .ok (.link target))
    (reaches : files.Reaches above directory)
    (checked : checkPath (above.join name.toPath) = .ok ()) (target : Path) :
    files.get? (directory ++ [name]) ≠ some (.link target) := by
  intro stands
  cases reaches with
  | there comes =>
    refine noLink target ?_
    rw [FileSystem.examineLink,
      FileSystem.locate_entry_join comes.leads (FileSystem.get?_of_child stands), checked]
    simp only [bind, Except.bind, pure, Except.pure, stands, Option.isSome_some, if_true,
      Option.getD_some]
  | @made here first names out =>
    have nothing : files.get? (here ++ first :: names ++ [name]) = none :=
      FileSystem.get?_below_of_nothing out.nothing ⟨names ++ [name], by simp⟩
    cases nothing.symm.trans stands

/-- A file is open for writing at a location: a regular one with so much of its content, or a device
that stood there. -/
def Opened (middle : FileSystem) (location : Location) (content : Bytes) (now : FileSystem) : Prop :=
  ∃ entry, Altered location (some entry) middle now ∧
    ((∃ executable, entry = .file content executable) ∨
      (entry = .fullDevice ∧ middle.get? location = some .fullDevice))

theorem create_through (content : Bytes) (laid : Laid files above world.files)
    (found : path.parent? = some above)
    (isTemporary : temporary? path = some (above.join sibling)) (asks : AsksEntry sibling)
    (differs : ∀ name : Name, sibling = name.toPath → path.moves ≠ above.moves ++ [.enter name])
    (noLink : ∀ target, files.examineLink (above.join sibling) ≠ .ok (.link target))
    (reaches : ∀ directory, world.files.Comes above directory → files.Reaches above directory) :
    (Files.create (above.join sibling)).Ends world
      (fun location after => ∃ directory name, sibling = name.toPath ∧
        Workplace files world.files path above directory name ∧ location = directory ++ [name] ∧
        world.Through (Underway files path content) after ∧
        Opened world.files (directory ++ [name]) [] after.files)
      (fun _ after => after = world) := by
  unfold Files.create
  simp only [Action.ends_bind, Action.ends_look]
  refine ⟨?_, fun _ _ => trivial⟩
  rintro ⟨location, entry⟩ writable
  obtain ⟨name, directory, rfl, comes, isDirectory, checked, place⟩ :=
    FileSystem.writable_join asks writable
  have reached := reaches directory comes
  have notLink : ∀ target, world.files.get? (directory ++ [name]) ≠ some (.link target) := by
    rw [laid.get?_child reached]
    exact not_link_of_examineLink noLink reached checked
  obtain ⟨rfl, rfl, notDirectory⟩ := place.resolve_left (not_exists.2 notLink)
  have workplace : Workplace files world.files path above directory name :=
    ⟨found, isTemporary, differs name rfl, laid, reached, comes, isDirectory, checked,
      notDirectory, notLink⟩
  have standing : Altered (directory ++ [name]) (world.files.get? (directory ++ [name]))
      world.files world.files := .refl rfl
  have begun := workplace.underway standing content
  have accepts : world.files.Accepts (directory ++ [name]) := by
    refine ⟨by simp, ?_, notDirectory⟩
    rw [List.dropLast_concat, isDirectory]
  have opens : ∀ executable, ∃ directory' name', name.toPath = name'.toPath ∧
      Workplace files world.files path above directory' name' ∧
      directory ++ [name] = directory' ++ [name'] ∧
      world.Through (Underway files path content) { world with
        files := world.files.place (directory ++ [name]) (.file [] executable)
        journal := world.journal ++ [.place (directory ++ [name]) (.file [] executable)] } ∧
      Opened world.files (directory' ++ [name']) []
        (world.files.place (directory ++ [name]) (.file [] executable)) := by
    intro executable
    have placed := Altered.of_place accepts (.file [] executable)
    exact ⟨directory, name, rfl, workplace, rfl,
      .change _ begun (workplace.underway placed content), _, placed, .inl ⟨executable, rfl⟩⟩
  cases stands : world.files.get? (directory ++ [name]) with
  | none => exact opens false
  | some entry =>
    cases entry with
    | directory => exact absurd stands notDirectory
    | link target => exact absurd stands (notLink target)
    | file old executable => exact opens executable
    | fullDevice =>
      rw [stands] at standing
      exact ⟨directory, name, rfl, workplace, rfl, .refl begun, _, standing, .inr ⟨rfl, stands⟩⟩

/-- The run has come to another state, in which the sibling can still be taken away. -/
structure Pending (files middle : FileSystem) (path : Path) (content : Bytes) (sibling : Location)
    (before after : World) : Prop where
  through : before.Through (Underway files path content) after
  standing : ∃ old, Altered sibling (some old) middle after.files ∧ old ≠ .directory

theorem Opened.standing {location : Location} (opened : Opened middle location content now) :
    ∃ old, Altered location (some old) middle now ∧ old ≠ .directory := by
  obtain ⟨entry, altered, ⟨executable, rfl⟩ | ⟨rfl, -⟩⟩ := opened
  · exact ⟨_, altered, by simp⟩
  · exact ⟨_, altered, by simp⟩

section Writing

variable (workplace : Workplace files middle path above directory name)
include workplace

/-- A sibling that is open and was not changed further. -/
theorem Workplace.pending {held : Bytes} (opened : Opened middle (directory ++ [name]) held now)
    {before after : World} (sameFiles : after.files = before.files)
    (sameJournal : after.journal = before.journal) (isNow : before.files = now) :
    Pending files middle path content (directory ++ [name]) before after := by
  obtain ⟨old, altered, notDirectory⟩ := opened.standing
  rw [← isNow, ← sameFiles] at altered
  exact ⟨.unchanged sameFiles sameJournal (workplace.underway altered content), old, altered,
    notDirectory⟩

/-- A write puts all of the content into the sibling, or fails with a part of it there. -/
theorem write_through (opened : Opened middle (directory ++ [name]) [] world.files) :
    (Files.write (directory ++ [name]) content).Ends world
      (fun _ after => world.Through (Underway files path content) after ∧
        Opened middle (directory ++ [name]) content after.files)
      (fun _ after => Pending files middle path content (directory ++ [name]) world after) := by
  obtain ⟨entry, altered, kind⟩ := id opened
  have begun := workplace.underway altered content
  unfold Files.write
  split
  · next empty => exact ⟨.refl begun, empty ▸ opened⟩
  · simp only [Action.ends_bind, Action.ends_get, altered.at_location]
    rcases kind with ⟨executable, rfl⟩ | ⟨rfl, -⟩
    · have accepts : world.files.Accepts (directory ++ [name]) := by
        refine ⟨by simp, ?_, by simp [altered.at_location]⟩
        rw [List.dropLast_concat]
        exact workplace.isDirectory_now altered
      have placed : ∀ held : Bytes, Altered (directory ++ [name]) (some (.file held executable))
          middle (world.files.place (directory ++ [name]) (.file held executable)) :=
        fun held => altered.trans (.of_place accepts _)
      simp only [Action.ends_bind, Action.ends_askStorage]
      split
      · exact ⟨.changed _ rfl rfl begun (workplace.underway (placed content) content), _,
          placed content, .inl ⟨executable, rfl⟩⟩
      · next failed _ =>
        refine ⟨.changed _ rfl rfl begun (workplace.underway (placed _) content), _, placed _, ?_⟩
        simp
    · exact workplace.pending opened rfl rfl rfl

/-- A sync stores a file as it is, or fails and leaves it as it is. -/
theorem sync_through (opened : Opened middle (directory ++ [name]) content world.files) :
    (Files.sync (directory ++ [name])).Ends world
      (fun _ after => world.Through (Underway files path content) after ∧ ∃ executable,
        Altered (directory ++ [name]) (some (.file content executable)) middle after.files)
      (fun _ after => Pending files middle path content (directory ++ [name]) world after) := by
  obtain ⟨entry, altered, ⟨executable, rfl⟩ | ⟨rfl, -⟩⟩ := id opened
  · simp only [Files.sync, Action.ends_bind, Action.ends_get, altered.at_location,
      Action.ends_askStorage]
    split
    · exact ⟨.unchanged rfl rfl (workplace.underway altered content), executable, altered⟩
    · exact workplace.pending opened rfl rfl rfl
  · simp only [Files.sync, Action.ends_bind, Action.ends_get, altered.at_location]
    exact workplace.pending opened rfl rfl rfl

end Writing

/-! ## How a run ends -/

/-- The entry is the new file, the sibling is gone, and only missing directories were made beside. A
path that does not lead through its own entry comes to the file. -/
structure Completed (files : FileSystem) (path : Path) (content : Bytes) (now : FileSystem) :
    Prop where
  entry : ∃ place executable, files.EntryAt path place ∧
    now.get? place = some (.file content executable)
  found : (∀ above place, path.parent? = some above → files.EntryAt path place →
    files.Avoids place above) → ∃ executable, now.examineLink path = .ok (.file content executable)
  sibling : ∀ place, SiblingAt files path place → now.get? place = none
  others : ∀ place, ¬ files.EntryAt path place → ¬ SiblingAt files path place →
    Spared files path now place

/-- The entry is what it was, the sibling is gone unless it is what it was, and only missing
directories were made beside. -/
structure Undone (files : FileSystem) (path : Path) (now : FileSystem) : Prop where
  entry : ∀ place, files.EntryAt path place → now.get? place = files.get? place
  sibling : ∀ place, SiblingAt files path place → now.get? place = files.get? place ∨
    (now.get? place = none ∧ ∃ old, files.get? place = some old ∧
      (old.isFile = true ∨ old = .fullDevice))
  others : ∀ place, ¬ files.EntryAt path place → ¬ SiblingAt files path place →
    Spared files path now place

theorem Undone.of_laid {bytes : Bytes} (laid : Laid files above now)
    (named : path.fileName? = some bytes) (found : path.parent? = some above) :
    Undone files path now := by
  refine ⟨fun _ entryAt => get?_entry_of_laid laid found entryAt, ?_,
    fun place _ _ => .of_laid laid found place⟩
  rintro place ⟨temporary, isTemporary, above', name, directory, found', moves, reaches, rfl⟩
  obtain ⟨sibling, rfl, asks, -⟩ := temporary_join named found isTemporary
  obtain ⟨last, -, moves', -⟩ := asks.exists_last above
  obtain ⟨same, -⟩ := List.append_inj' (moves'.symm.trans moves) rfl
  obtain ⟨isAbsolute, -⟩ := Path.moves_parent? found'
  rw [Path.isAbsolute_join asks.1] at isAbsolute
  exact .inl (laid.get?_child (reaches.of_moves isAbsolute.symm same) name)

namespace Workplace

variable (workplace : Workplace files middle path above directory name)
include workplace

theorem undone (altered : Altered (directory ++ [name]) none middle now) :
    Undone files path now := by
  have spared := (workplace.underway altered []).others
  refine ⟨fun place entryAt => ?_, fun place siblingAt => ?_, spared⟩
  · rw [altered.elsewhere]
    · exact get?_entry_of_laid workplace.laid workplace.parent entryAt
    · rintro rfl
      exact workplace.not_entryAt entryAt
  · obtain rfl := workplace.eq_of_siblingAt siblingAt
    have same := workplace.laid.get?_child workplace.reaches name
    rw [altered.at_location, ← same]
    cases stands : middle.get? (directory ++ [name]) with
    | none => exact .inl rfl
    | some old =>
      refine .inr ⟨rfl, old, rfl, ?_⟩
      cases old with
      | directory => exact absurd stands workplace.notDirectory
      | link target => exact absurd stands (workplace.notLink target)
      | file => exact .inl rfl
      | fullDevice => exact .inr rfl

/-- A step that fails with the sibling in place is undone by taking the sibling away. -/
theorem orDiscard_through {step : Action FileFault Unit} {tell : FileFault → StagingFault}
    {done : Unit → World → Prop} (ends : step.Ends world done fun _ after =>
      Pending files middle path content (directory ++ [name]) world after) :
    (orDiscard (above.join name.toPath) tell step).Ends world done
      (fun _ after => world.Through (Underway files path content) after ∧
        Undone files path after.files) := by
  unfold orDiscard
  simp only [Action.ends_bind, Action.ends_attempt]
  refine ends.mono (fun _ _ held => held) ?_
  rintro fault failed ⟨through, old, altered, notDirectory⟩
  simp only [Action.ends_throw]
  refine (workplace.discard_ends content altered notDirectory).mono ?_ fun _ _ failed =>
    failed.elim
  rintro _ after ⟨further, gone⟩
  exact ⟨through.trans further, workplace.undone gone⟩

end Workplace

/-! ## The last step -/

section Renaming

variable {executable : Bool} {step : Change}
  (workplace : Workplace files middle path above directory name)
  (altered : Altered (directory ++ [name]) (some (.file content executable)) middle world.files)
  (renamed : FileSystem.rename (above.join name.toPath) path world.files = .ok step)
include workplace altered renamed

/-- If the sibling can be moved, the last step of the path is a name beside it. -/
theorem last_of_rename : ∃ last, path.moves = above.moves ++ [.enter last] ∧ last ≠ name ∧
    world.files.lastStep path = .ok (.named directory last) ∧
    step = .move (directory ++ [name]) (directory ++ [last]) ∧ path.endsWithSlash = false ∧
    world.files.get? (directory ++ [last]) ≠ some .directory := by
  have comes := workplace.comes_now altered
  have source : world.files.lastStep (above.join name.toPath) = .ok (.named directory name) := by
    rw [FileSystem.lastStep_join comes.leads (workplace.isDirectory_now altered), workplace.checked]
    rfl
  obtain ⟨directory₁, name₁, directory', last, source', target, -, noSlash, notDirectory, rfl⟩ :=
    FileSystem.lastStep_of_rename renamed
  obtain ⟨rfl, rfl⟩ := FileSystem.LastStep.named.inj (Except.ok.inj (source'.symm.trans source))
  obtain ⟨-, used, few, before, moves, walk⟩ := FileSystem.lastStep_named target
  obtain ⟨isAbsolute, ⟨noMoves, -⟩ | ⟨move, split⟩⟩ := Path.moves_parent? workplace.parent
  · rw [moves] at noMoves
    simp at noMoves
  · obtain ⟨rfl, isLast⟩ := List.append_inj' (moves.symm.trans split) rfl
    have startOf : world.files.startOf path = world.files.startOf above := by
      rw [FileSystem.startOf, FileSystem.startOf, isAbsolute]
    rw [startOf] at walk
    obtain rfl := comes.unique ⟨used, few, walk⟩
    refine ⟨last, moves, ?_, target, rfl, noSlash, notDirectory⟩
    rintro rfl
    exact workplace.differs moves

omit renamed in
/-- What stands in the directory is part of the way only if it was from the beginning. -/
theorem mem_trailOf_of_standing {last : Name} {standing : Entry}
    (stands : files.get? (directory ++ [last]) = some standing)
    (member : directory ++ [last] ∈
      world.files.trail linkLimit (world.files.startOf above) above.moves) :
    directory ++ [last] ∈ files.trailOf above := by
  have startOf : world.files.startOf above = files.startOf above :=
    FileSystem.startOf_congr (altered.workingDirectory.trans workplace.laid.workingDirectory) above
  have passed : ∀ seen standing, files.get? seen = some standing →
      middle.get? seen ≠ middle.get? (directory ++ [name]) →
      world.files.get? seen = files.get? seen := by
    intro seen standing stands differ
    rw [altered.elsewhere fun same => differ (by rw [same]), workplace.laid.still_stands stands,
      stands]
  cases workplace.reaches with
  | @made here first names out =>
    have nothing : files.get? (here ++ first :: names ++ [last]) = none :=
      FileSystem.get?_below_of_nothing out.nothing ⟨names ++ [last], by simp⟩
    cases nothing.symm.trans stands
  | there comes =>
    obtain ⟨used, few, walk⟩ := comes
    rw [startOf, FileSystem.trail_congr] at member
    · rw [FileSystem.trailOf_eq]
      exact List.mem_cons_of_mem _ member
    · intro seen inTrail
      rcases walk.passes few seen inTrail with isDirectory | ⟨target, isLink⟩
      · refine passed seen _ isDirectory ?_
        rw [workplace.laid.still_stands isDirectory]
        exact workplace.notDirectory.symm
      · refine passed seen _ isLink ?_
        rw [workplace.laid.still_stands isLink]
        exact (workplace.notLink target).symm

omit renamed in
/-- On the way to the directory of the path nothing is different after the sibling was moved, unless
a link at the entry is part of the way. -/
theorem get?_on_way {last : Name}
    (moved : ∀ place, now.get? place = if place = directory ++ [last] then
      some (.file content executable) else if place = directory ++ [name] then none
      else world.files.get? place)
    (notDirectory : world.files.get? (directory ++ [last]) ≠ some .directory)
    (avoids : files.Avoids (directory ++ [last]) above) :
    ∀ seen ∈ world.files.trail linkLimit (world.files.startOf above) above.moves,
      now.get? seen = world.files.get? seen := by
  obtain ⟨used, few, walk⟩ := workplace.comes_now altered
  intro seen member
  have passes := walk.passes few seen member
  have notSibling : seen ≠ directory ++ [name] := by
    rintro rfl
    rw [altered.at_location] at passes
    rcases passes with impossible | ⟨target, impossible⟩ <;> cases impossible
  have notEntry : seen ≠ directory ++ [last] := by
    rintro rfl
    rcases passes with isDirectory | ⟨target, isLink⟩
    · exact notDirectory isDirectory
    · rw [altered.elsewhere notSibling, workplace.laid.get?_child workplace.reaches] at isLink
      exact avoids _ (mem_trailOf_of_standing workplace altered isLink member) List.prefix_rfl
  rw [moved, if_neg notEntry, if_neg notSibling]

/-- Once the sibling has been moved, the run is complete. -/
theorem completed : Underway files path content (world.files.apply step) ∧
    Completed files path content (world.files.apply step) := by
  obtain ⟨last, moves, differ, comes, rfl, noSlash, notDirectory⟩ :=
    last_of_rename workplace altered renamed
  obtain ⟨isAbsolute, -⟩ := Path.moves_parent? workplace.parent
  have accepts : world.files.Accepts (directory ++ [last]) := by
    refine ⟨by simp, ?_, notDirectory⟩
    rw [List.dropLast_concat]
    exact workplace.isDirectory_now altered
  have moved := FileSystem.get?_move altered.at_location (by simp) accepts (by simp)
  have sameDirectory : (world.files.apply (.move (directory ++ [name]) (directory ++ [last]))
      ).workingDirectory = world.files.workingDirectory := FileSystem.workingDirectory_move _ _ _
  generalize world.files.apply (.move (directory ++ [name]) (directory ++ [last])) = now at *
  have entryAt : files.EntryAt path (directory ++ [last]) :=
    .of_reaches isAbsolute moves workplace.reaches
  have atEntry : now.get? (directory ++ [last]) = some (.file content executable) :=
    (moved _).trans (if_pos rfl)
  have underway := workplace.underway altered content
  have others : ∀ place, ¬ files.EntryAt path place → ¬ SiblingAt files path place →
      Spared files path now place := by
    intro place notEntry notSibling
    have same : now.get? place = world.files.get? place := by
      rw [moved, if_neg, if_neg]
      · rintro rfl
        exact notSibling workplace.siblingAt
      · rintro rfl
        exact notEntry entryAt
    rw [Spared, same]
    exact underway.others place notEntry notSibling
  constructor
  · refine ⟨sameDirectory.trans underway.workingDirectory, fun place entryAt => ?_, others⟩
    rw [entryAt.eq isAbsolute moves workplace.reaches]
    exact .inr ⟨executable, atEntry⟩
  · refine ⟨⟨_, executable, entryAt, atEntry⟩, fun avoids => ?_, fun place siblingAt => ?_, others⟩
    · have onWay := get?_on_way workplace altered moved notDirectory
        (avoids above _ workplace.parent entryAt)
      have startOf : world.files.startOf path = world.files.startOf above := by
        rw [FileSystem.startOf, FileSystem.startOf, isAbsolute]
      rw [← startOf] at onWay
      refine ⟨executable, ?_⟩
      rw [FileSystem.examineLink, FileSystem.locate_entry_of_lastStep comes noSlash moves
        sameDirectory onWay (by rw [atEntry]; rfl)]
      simp only [bind, Except.bind, pure, Except.pure, atEntry, Option.getD_some]
    · rw [workplace.eq_of_siblingAt siblingAt, moved, if_neg (by simpa using differ.symm),
        if_pos rfl]

end Renaming

/-! ## The whole run -/

theorem rename_through {executable : Bool}
    (workplace : Workplace files middle path above directory name)
    (altered : Altered (directory ++ [name]) (some (.file content executable)) middle world.files) :
    (Action.edit (FileSystem.rename (above.join name.toPath) path)).Ends world
      (fun _ after => world.Through (Underway files path content) after ∧
        Completed files path content after.files)
      (fun _ after => Pending files middle path content (directory ++ [name]) world after) := by
  have begun := workplace.underway altered content
  refine Action.ends_edit.2 ⟨fun step renamed => ?_, fun _ _ => ?_⟩
  · obtain ⟨underway, completed⟩ := completed workplace altered renamed
    exact ⟨.change _ begun underway, completed⟩
  · exact ⟨.refl begun, _, altered, nofun⟩

/-- The new content is written, stored and moved in the place of the entry, or all is undone. -/
theorem write_and_move (workplace : Workplace files middle path above directory name)
    (opened : Opened middle (directory ++ [name]) [] world.files) {tell tell' tell''} :
    (do orDiscard (above.join name.toPath) tell (Files.write (directory ++ [name]) content)
        orDiscard (above.join name.toPath) tell' (Files.sync (directory ++ [name]))
        orDiscard (above.join name.toPath) tell''
          (Action.edit (FileSystem.rename (above.join name.toPath) path))).Ends world
      (fun _ after => world.Through (Underway files path content) after ∧
        Completed files path content after.files)
      (fun _ after => world.Through (Underway files path content) after ∧
        Undone files path after.files) := by
  rw [Action.ends_bind]
  refine (workplace.orDiscard_through (write_through workplace opened)).mono ?_
    fun _ _ undone => undone
  rintro _ written ⟨through, opened⟩
  rw [Action.ends_bind]
  refine (workplace.orDiscard_through (sync_through workplace opened)).mono ?_
    fun _ _ ⟨further, undone⟩ => ⟨through.trans further, undone⟩
  rintro _ synced ⟨stored, executable, altered⟩
  refine (workplace.orDiscard_through (rename_through workplace altered)).mono ?_ ?_
  · rintro _ after ⟨further, completed⟩
    exact ⟨through.trans (stored.trans further), completed⟩
  · rintro _ after ⟨further, undone⟩
    exact ⟨through.trans (stored.trans further), undone⟩

/-- Replacing a file is all or nothing in every state that the files go through. For that the path
does not turn back once it has run out, and its sibling is not a link. -/
theorem replace_all_or_nothing (named : path.fileName?.isSome) (content : Bytes)
    (straight : Straight world.files path)
    (noLink : ∀ temporary, temporary? path = some temporary →
      ∀ target, world.files.examineLink temporary ≠ .ok (.link target)) :
    (replace path content).Ends world
      (fun _ after => world.Through (Underway world.files path content) after ∧
        Completed world.files path content after.files)
      (fun _ after => world.Through (Underway world.files path content) after ∧
        Undone world.files path after.files) := by
  obtain ⟨bytes, isNamed⟩ := Option.isSome_iff_exists.1 named
  obtain ⟨above, found, isAbsolute, moves, -⟩ := Path.moves_of_fileName? isNamed
  have straightAbove := straight.front isAbsolute moves
  unfold replace
  rw [Action.ends_bind]
  have early : ∀ after : World, world.Through (Laid world.files above) after →
      world.Through (Underway world.files path content) after ∧
        Undone world.files path after.files := fun after through =>
    ⟨through.mono fun _ laid => .of_laid laid found content,
      .of_laid through.last isNamed found⟩
  refine (makeParent_through found straightAbove).mono ?_ fun _ after => early after
  rintro _ made ⟨through, reaches⟩
  have laid := through.last
  obtain ⟨begun, undone⟩ := early made through
  cases isTemporary : temporary? path with
  | none => exact ⟨begun, undone⟩
  | some temporary =>
    obtain ⟨sibling, rfl, asks, differs⟩ := temporary_join isNamed found isTemporary
    have notSame : ∀ name : Name, sibling = name.toPath →
        path.moves ≠ above.moves ++ [.enter name] := by
      rintro name rfl same
      obtain ⟨-, isLast⟩ := List.append_inj' (moves.symm.trans same) rfl
      exact differs (PathStep.bytes_of_ofPiece_enter (List.cons.inj isLast).1)
    rw [Action.ends_bind, Action.ends_blaming]
    refine (create_through content laid found isTemporary asks notSame
      (noLink _ isTemporary) reaches).mono ?_ ?_
    · rintro _ opened ⟨directory, name, rfl, workplace, rfl, further, isOpened⟩
      refine (write_and_move workplace isOpened).mono ?_ ?_
      · rintro _ after ⟨rest, completed⟩
        exact ⟨begun.trans (further.trans rest), completed⟩
      · rintro _ after ⟨rest, undone⟩
        exact ⟨begun.trans (further.trans rest), undone⟩
    · rintro _ _ rfl
      exact ⟨begun, undone⟩

/-- A link beside the directory that it points to. -/
def linkedFiles : FileSystem where
  entries := [
    ([Layout.nameOf "d"], .directory),
    ([Layout.nameOf "d", Layout.nameOf "e"], .directory),
    ([Layout.nameOf "d", Layout.sharedName], .link (Path.ofString "e"))]
  distinct := by decide
  rooted := by
    simp only [FileSystem.Rooted, FileSystem.find]
    decide

/-- A link can be replaced, whether or not it points to a directory. -/
theorem replace_all_or_nothing_link : ∃ executable after,
    (replace (Path.ofString "/d/a") [1]).run.run { files := linkedFiles } = (.ok (), after) ∧
      World.Through (Underway linkedFiles (Path.ofString "/d/a") [1]) { files := linkedFiles } after ∧
      after.files.examineLink (Path.ofString "/d/a") = .ok (.file [1] executable) := by
  have succeeds : ((replace (Path.ofString "/d/a") [1]).run.run
      { files := linkedFiles }).1.toOption = some () := by decide +kernel
  have straight : Straight linkedFiles (Path.ofString "/d/a") :=
    @FileSystem.straight_of_locate _ _ [Layout.nameOf "d", Layout.nameOf "e"] (by decide)
  have free : linkedFiles.examineLink (Path.ofString "/d/.a.tmp") = .error .notFound := by
    decide +kernel
  have way : linkedFiles.trailOf (Path.ofString "/d") = [[], [Layout.nameOf "d"]] := by decide
  have isTemporary : temporary? (Path.ofString "/d/a") = some (Path.ofString "/d/.a.tmp") := by
    decide +kernel
  have isParent : (Path.ofString "/d/a").parent? = some (Path.ofString "/d") := by decide
  have moves : (Path.ofString "/d/a").moves =
      (Path.ofString "/d").moves ++ [.enter (Layout.nameOf "a")] := by rfl
  -- What else stands there does not matter from here on.
  generalize linkedFiles = files at succeeds straight free way ⊢
  have run := Action.run_eq_of_toOption succeeds
  have ends := @replace_all_or_nothing { files } (Path.ofString "/d/a") (by decide) [1]
    straight fun temporary found target isLink => by
      obtain rfl := Option.some.inj (isTemporary.symm.trans found)
      cases free.symm.trans isLink
  obtain ⟨through, completed⟩ := ends.of_ok run
  obtain ⟨executable, examined⟩ := completed.found (by
    rintro above place found ⟨above', name, directory, found', split, -, rfl⟩ seen member within
    obtain rfl := Option.some.inj (isParent.symm.trans found)
    obtain rfl := Option.some.inj (isParent.symm.trans found')
    obtain ⟨-, isLast⟩ := List.append_inj' (moves.symm.trans split) rfl
    obtain rfl := PathStep.enter.inj (List.cons.inj isLast).1
    rw [way] at member
    have inside : Layout.nameOf "a" ∈ seen := within.subset (by simp)
    rcases List.mem_pair.1 member with rfl | rfl
    · cases inside
    · exact absurd (List.mem_singleton.1 inside) (by decide))
  exact ⟨executable, _, run, through, examined⟩

/-- A write that runs out of room leaves neither the entry nor its sibling behind. -/
example :
    let after := ((replace (Path.ofString "/d/n") [1, 2]).run.run
      { files := linkedFiles, storage := [some ⟨.noSpace, 1⟩] }).2
    after.files.examineLink (Path.ofString "/d/n") = .error .notFound ∧
      after.files.examineLink (Path.ofString "/d/.n.tmp") = .error .notFound := by
  decide +kernel

/-- A path that turns back past a missing directory has a directory in its place once its parents
are made, and one that leads through its own entry comes to nothing after the entry is replaced. -/
theorem replace_turning_back :
    (∃ fault after, (replace (Path.ofString "/d/n/../n") [1]).run.run { files := linkedFiles } =
        (.error fault, after) ∧
      linkedFiles.examineLink (Path.ofString "/d/n/../n") = .error .notFound ∧
      after.files.examineLink (Path.ofString "/d/n/../n") = .ok .directory) ∧
    ∃ after, (replace (Path.ofString "/d/a/../a") [1]).run.run { files := linkedFiles } =
        (.ok (), after) ∧
      after.files.examineLink (Path.ofString "/d/a/../a") = .error .notADirectory := by
  constructor
  · refine ⟨.replace (Path.ofString "/d/n/../n") .isADirectory, _, Prod.ext ?_ rfl, ?_, ?_⟩
    all_goals decide +kernel
  · refine ⟨_, Prod.ext ?_ rfl, ?_⟩
    all_goals decide +kernel

end Replacement

end ImageStaging
