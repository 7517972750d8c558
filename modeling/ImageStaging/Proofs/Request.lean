import ImageStaging.Proofs.FileSystem.Trail
import ImageStaging.Request

/-!
# Requests that have been resolved

Resolving a request makes its source absolute by its spelling. An absolute path is not empty and is
looked up from the root directory, which is always there. A request that cannot be resolved is a
mistake of the caller.
-/

namespace ImageStaging

namespace Path

variable {base path absolute : Path} {workingDirectory : Option Path}

theorem bytes_ne_nil_of_isAbsolute (isAbsolute : path.isAbsolute = true) : path.bytes ≠ [] := by
  intro empty
  rw [Path.isAbsolute, empty] at isAbsolute
  cases isAbsolute

theorem isAbsolute_join_of_base (isAbsolute : base.isAbsolute = true) :
    (base.join path).isAbsolute = true := by
  cases relative : path.isAbsolute with
  | false => rw [isAbsolute_join relative, isAbsolute]
  | true => rw [join, if_pos relative, relative]

theorem isAbsolute_foldl_join (parts : List Component) (isAbsolute : base.isAbsolute = true) :
    (parts.foldl (fun base part => base.join part.toPath) base).isAbsolute = true := by
  induction parts generalizing base with
  | nil => exact isAbsolute
  | cons part rest ih => exact ih (isAbsolute_join_of_base isAbsolute)

/-- The spelling of an absolute path starts from the root, as long as that of the working directory
does. -/
theorem isAbsolute_of_absoluteStart? {start : Path} {parts : List Component}
    (here : ∀ directory, workingDirectory = some directory → directory.isAbsolute = true)
    (starts : path.absoluteStart? workingDirectory = some (start, parts)) :
    (parts.foldl (fun base part => base.join part.toPath) start).isAbsolute = true := by
  rw [absoluteStart?] at starts
  split at starts
  · obtain ⟨directory, isHere, same⟩ := Option.map_eq_some_iff.1 starts
    obtain ⟨rfl, rfl⟩ := Prod.mk.inj same
    exact isAbsolute_foldl_join _ (here _ isHere)
  · next notRelative =>
    have isAbsolute : path.isAbsolute = true := by simpa using notRelative
    split at starts
    · obtain ⟨rfl, rfl⟩ := Prod.mk.inj (Option.some.inj starts)
      exact isAbsolute_foldl_join _ rfl
    · obtain ⟨rfl, rfl⟩ := Prod.mk.inj (Option.some.inj starts)
      rw [components, if_pos isAbsolute, List.foldl_cons]
      exact isAbsolute_foldl_join _ rfl

/-- A path that has been made absolute by its spelling is so. -/
theorem isAbsolute_of_absolute?
    (here : ∀ directory, workingDirectory = some directory → directory.isAbsolute = true)
    (spelled : path.absolute? workingDirectory = some absolute) : absolute.isAbsolute = true := by
  rw [absolute?] at spelled
  split at spelled
  · cases spelled
  · obtain ⟨start, starts, rfl⟩ := Option.map_eq_some_iff.1 spelled
    have isAbsolute := isAbsolute_of_absoluteStart? here starts
    dsimp only
    split
    · exact isAbsolute_join_of_base isAbsolute
    · exact isAbsolute

theorem absoluteStart?_eq_none_iff : path.absoluteStart? workingDirectory = none ↔
    path.isAbsolute = false ∧ workingDirectory = none := by
  rw [absoluteStart?]
  cases path.isAbsolute with
  | false => simp
  | true =>
    simp only [Bool.not_true, Bool.false_eq_true, if_false, reduceCtorEq, false_and, iff_false]
    split <;> exact Option.some_ne_none _

/-- A path cannot be made absolute if it is empty, or if it is relative and there is no working
directory. -/
theorem absolute?_eq_none_iff : path.absolute? workingDirectory = none ↔
    path.bytes = [] ∨ (path.isAbsolute = false ∧ workingDirectory = none) := by
  rw [absolute?]
  split
  · next empty => simp [empty]
  · next nonempty => rw [Option.map_eq_none_iff, absoluteStart?_eq_none_iff, or_iff_right nonempty]

end Path

theorem FileSystem.isAbsolute_workingDirectoryPath? {files : FileSystem} {directory : Path}
    (isHere : files.workingDirectoryPath? = some directory) : directory.isAbsolute = true := by
  rw [workingDirectoryPath?] at isHere
  split at isHere
  · obtain rfl := Option.some.inj isHere
    rfl
  · cases isHere

theorem exists_of_mapM_error {ε α β : Type} {f : α → Except ε β} {items : List α} {fault : ε}
    (fails : items.mapM f = .error fault) : ∃ item ∈ items, f item = .error fault := by
  induction items with
  | nil => cases fails
  | cons item rest ih =>
    rw [List.mapM_cons] at fails
    cases first : f item with
    | error other =>
      rw [first] at fails
      cases fails
      exact ⟨item, List.mem_cons_self, first⟩
    | ok value =>
      rw [first] at fails
      cases others : rest.mapM f with
      | error other =>
        rw [others] at fails
        cases fails
        obtain ⟨later, member, stops⟩ := ih others
        exact ⟨later, List.mem_cons_of_mem _ member, stops⟩
      | ok values =>
        rw [others] at fails
        cases fails

namespace Request

variable {workingDirectory : Option Path} {source path : Path} {libraries : List Path}
  {options : List String} {dryRun : Bool} {request : Request} {failure : Failure}
  {files : FileSystem}

/-- Resolving changes the paths of a request and nothing else. -/
theorem resolve_eq_ok_iff :
    resolve workingDirectory source libraries options dryRun = .ok request ↔
      ∃ absolute absolutes, source.absolute? workingDirectory = some absolute ∧
        libraries.mapM (absolutePath workingDirectory) = .ok absolutes ∧
        request = ⟨absolute, absolutes, options, dryRun⟩ := by
  rw [resolve, absolutePath]
  cases source.absolute? workingDirectory with
  | none => simp [bind, Except.bind]
  | some absolute =>
    cases libraries.mapM (absolutePath workingDirectory) with
    | error failure => simp [bind, Except.bind]
    | ok absolutes => simp [bind, Except.bind, pure, Except.pure, eq_comm]

/-- The source of a resolved request is an absolute path, and so not the empty one. -/
theorem source_of_resolve
    (resolved : resolve files.workingDirectoryPath? source libraries options dryRun = .ok request) :
    request.source.isAbsolute = true ∧ request.source.bytes ≠ [] := by
  obtain ⟨absolute, _, spelled, _, rfl⟩ := resolve_eq_ok_iff.1 resolved
  have isAbsolute : absolute.isAbsolute = true :=
    Path.isAbsolute_of_absolute? (fun _ => FileSystem.isAbsolute_workingDirectoryPath?) spelled
  exact ⟨isAbsolute, Path.bytes_ne_nil_of_isAbsolute isAbsolute⟩

theorem absolutePath_eq_error_iff : absolutePath workingDirectory path = .error failure ↔
    (path.bytes = [] ∧ failure = .absolutePath path .empty) ∨
      (path.bytes ≠ [] ∧ path.isAbsolute = false ∧ workingDirectory = none ∧
        failure = .absolutePath path .noWorkingDirectory) := by
  rw [absolutePath]
  by_cases empty : path.bytes = []
  · have spelled : path.absolute? workingDirectory = none :=
      Path.absolute?_eq_none_iff.2 (.inl empty)
    rw [spelled]
    simp only [empty, if_true, Except.error.injEq, true_and, ne_eq, not_true_eq_false, false_and,
      or_false]
    exact eq_comm
  · by_cases nowhere : path.isAbsolute = false ∧ workingDirectory = none
    · have spelled := Path.absolute?_eq_none_iff.2 (.inr nowhere)
      rw [spelled]
      simp only [empty, nowhere, if_false, Except.error.injEq, false_and, ne_eq, not_false_eq_true,
        true_and, false_or]
      exact eq_comm
    · obtain ⟨absolute, spelled⟩ := Option.ne_none_iff_exists'.1
        (mt Path.absolute?_eq_none_iff.1 (not_or.2 ⟨empty, nowhere⟩))
      simp only [spelled, empty, false_and, false_or, reduceCtorEq, false_iff]
      exact fun ⟨_, relative, gone, _⟩ => nowhere ⟨relative, gone⟩

theorem exitCode_of_absolutePath (fails : absolutePath workingDirectory path = .error failure) :
    failure.exitCode = 1 := by
  rcases absolutePath_eq_error_iff.1 fails with ⟨-, rfl⟩ | ⟨-, -, -, rfl⟩
  · rfl
  · rfl

/-- A request that cannot be resolved has a path that cannot be made absolute. -/
theorem exitCode_of_resolve
    (fails : resolve workingDirectory source libraries options dryRun = .error failure) :
    failure.exitCode = 1 := by
  rw [resolve] at fails
  cases first : absolutePath workingDirectory source with
  | error other =>
    rw [first] at fails
    cases fails
    exact exitCode_of_absolutePath first
  | ok absolute =>
    rw [first] at fails
    cases others : libraries.mapM (absolutePath workingDirectory) with
    | error other =>
      rw [others] at fails
      cases fails
      obtain ⟨library, _, stops⟩ := exists_of_mapM_error others
      exact exitCode_of_absolutePath stops
    | ok absolutes =>
      rw [others] at fails
      cases fails

end Request

end ImageStaging
