import ImageStaging.Proofs.TreeCopy

/-!
# The bound on the depth of a copy

A walk goes one directory deeper only below a path that could be listed, and the path of what it
finds there is longer. So it meets the bound on paths before the bound on its depth, and no run is
cut short by the latter: a copy that may go as deep as it likes does the same.
-/

namespace ImageStaging.TreeCopy

open FileSystem (pathLimit)
open ImageStaging.Action (look)

/-- A path that can be listed is not too long. -/
theorem length_of_list {files : FileSystem} {path : Path} {listing : List Name}
    (listed : files.list path = .ok listing) : path.bytes.length ≤ pathLimit := by
  by_contra long
  obtain ⟨location, found, -⟩ := FileSystem.list_ok listed
  obtain ⟨fault, -, failed⟩ :=
    @FileSystem.locate_of_long files path .target (Nat.lt_of_not_le long)
  cases failed.symm.trans found

/-- A walk that may still go deeper than its path can grow does not notice how deep it may go. -/
theorem visit_enough (source target : Path) {depth depth' : Nat} (ancestors : List Ancestor)
    {path : Path} (relative : Path) (entry : Entry) (nonempty : path.bytes ≠ [])
    (proper : depth ≠ 0) (proper' : depth' ≠ 0)
    (enough : pathLimit + 1 < depth + path.bytes.length)
    (enough' : pathLimit + 1 < depth' + path.bytes.length) :
    visit source target depth ancestors path relative entry =
      visit source target depth' ancestors path relative entry := by
  induction depth generalizing depth' ancestors path relative entry with
  | zero => exact absurd rfl proper
  | succ depth ih =>
    obtain ⟨depth', rfl⟩ := Nat.exists_eq_succ_of_ne_zero proper'
    unfold visit
    refine bind_congr fun found => ?_
    cases found with
    | file => rfl
    | link => rfl
    | fullDevice => rfl
    | directory =>
      refine Action.bind_congr_of_ends fun world => ?_
      rw [Action.ends_attempt, Action.ends_look]
      refine ⟨fun opened isOpened => ?_, fun _ _ => rfl⟩
      have short := length_of_list (openDirectory_eq_ok_iff.1 isOpened).2
      have same : ∀ location (name : Name), visit source target depth (⟨path, location⟩ :: ancestors)
          (path.join name.toPath) (relative.join name.toPath) =
            visit source target depth' (⟨path, location⟩ :: ancestors)
              (path.join name.toPath) (relative.join name.toPath) := by
        intro location name
        have longer := @Path.length_base_lt_length_join path name.toPath name.bytes_toPath_ne_nil
          name.isAbsolute_toPath
        refine funext fun entry => ih _ _ entry (Path.bytes_join_ne_nil name.bytes_toPath_ne_nil)
          ?_ ?_ ?_ ?_
        all_goals omega
      simp only [same]

/-- A copy whose walk may go so deep. -/
def copyWithin (depth : Nat) (source target : Path) : Action StagingFault Nat := do
  let entry ← (look (·.examine source)).blaming (.inspect source)
  if entry.isFile then
    copyFile source target
    pure 1
  else
    let entry ← (look (·.examineLink source)).blaming fun fault =>
      .walk source (.unreadable source fault)
    visit source target depth [] source ⟨[]⟩ entry

theorem copy_eq_copyWithin (source target : Path) :
    copy source target = copyWithin (pathLimit + 1) source target := rfl

/-- No copy is cut short by the bound on its depth. -/
theorem copyWithin_eq_copy (source target : Path) {depth : Nat} (enough : pathLimit < depth) :
    copyWithin depth source target = copy source target := by
  rw [copy_eq_copyWithin]
  unfold copyWithin
  refine Action.bind_congr_of_ends fun world => ?_
  rw [Action.ends_blaming, Action.ends_look]
  refine ⟨fun entry found => ?_, fun _ _ => trivial⟩
  obtain ⟨location, located, -⟩ := FileSystem.leads_of_examine found
  have nonempty := FileSystem.nonempty_of_locate located
  have := List.length_pos_iff.2 nonempty
  split
  · rfl
  · refine bind_congr fun entry => visit_enough source target [] ⟨[]⟩ entry nonempty ?_ ?_ ?_ ?_
    all_goals omega

end ImageStaging.TreeCopy
