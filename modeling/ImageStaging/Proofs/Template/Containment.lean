import ImageStaging.Proofs.Path.Components
import ImageStaging.Proofs.Template.Overlap

/-!
# References that cannot escape

A reference is looked for in the libraries and copied into the context at its path as it is
spelled, and only the components of that path are checked. The check lets a path through exactly if
it is a way down, and then the path lies strictly below whatever absolute path it is joined to: no
reference text makes the search or the copy leave a library or the context.
-/

namespace ImageStaging.Template

open ImageStaging.Action (Ends)

variable {text : Text} {path context : Path} {libraries : List Path}

theorem containedPath?_eq_some_iff :
    containedPath? text = some path ↔ path = Path.ofText text ∧ path.Contained := by
  rw [containedPath?]
  generalize Path.ofText text = whole
  have leaves_iff : (whole.components.any fun part => part = .root || part = .parent) = true ↔
      whole.isAbsolute = true ∨ .parent ∈ whole.components := by
    rw [← Path.root_mem_components_iff]
    simp [and_or_left, exists_or]
  have asks_iff : (whole.components.any fun part => part ≠ .current) = true ↔
      ∃ part ∈ whole.components, part ≠ .current := by
    simp
  constructor
  · intro accepted
    split at accepted
    · cases accepted
    · next stays =>
      split at accepted
      · next asks =>
        obtain rfl := Option.some.inj accepted
        rw [leaves_iff, not_or] at stays
        exact ⟨rfl, Bool.eq_false_iff.2 stays.1, stays.2, asks_iff.1 asks⟩
      · cases accepted
  · rintro ⟨rfl, relative, neverUp, proper⟩
    have stays := not_or.2 ⟨Bool.eq_false_iff.1 relative, neverUp⟩
    exact (if_neg (leaves_iff.not.2 stays)).trans (if_pos (asks_iff.2 proper))

/-- Between two worlds a tree was copied, as far as that went, from a path strictly below a library
to one strictly below the context. -/
def CopiesBelow (libraries : List Path) (context : Path) (before after : World) : Prop :=
  ∃ library ∈ libraries, ∃ source destination result copied, library.LiesBelow source ∧
    context.LiesBelow destination ∧
    (TreeCopy.copy source destination).run.run before = (result, copied) ∧
    after.files = copied.files

theorem fetch_copies_below (inner : Text) (world : World)
    (absolute : ∀ library ∈ libraries, library.isAbsolute = true)
    (absoluteContext : context.isAbsolute = true) :
    (fetch libraries context inner).Ends world
      (fun _ after => CopiesBelow libraries context world after)
      (fun _ after => after = world ∨ CopiesBelow libraries context world after) := by
  have below : ∀ path library result copied after, containedPath? (sharedPath inner) = some path →
      FirstHolder world.files libraries path library →
      (TreeCopy.copy (library.join path) (context.join path)).run.run world = (result, copied) →
      after.files = copied.files → CopiesBelow libraries context world after := by
    rintro path library result copied after accepted ⟨before, behind, rfl, -⟩ copies same
    have contained := (containedPath?_eq_some_iff.1 accepted).2
    have member : library ∈ before ++ library :: behind := by simp
    have read := contained.liesBelow_join (absolute library member)
    have written := contained.liesBelow_join absoluteContext
    exact ⟨library, member, _, _, result, copied, read, written, copies, same⟩
  refine (fetch_copies_or_refuses inner world).mono ?_ ?_
  · rintro _ _ ⟨path, library, count, copied, event, accepted, -, holder, copies, rfl⟩
    exact below path library _ copied _ accepted holder copies rfl
  · intro fault after refuses
    cases refuses with
    | rejected => exact .inl rfl
    | unheld => exact .inl rfl
    | uninspected => exact .inl rfl
    | uncopied accepted holder fails =>
      exact .inr (below _ _ _ after after accepted holder fails rfl)

/-- References cannot escape. A path is accepted exactly if it is not absolute, has no `..` and has
a component other than a `.`, which can be seen from what stands between the slashes of its text.
Joined to an absolute path, an accepted path adds its names in their order, of which there is at
least one, and so a reference is taken from strictly below a library to strictly below the context,
or nothing is done. -/
theorem references_stay_below :
    (∀ text path, containedPath? text = some path ↔ path = Path.ofText text ∧ path.Contained) ∧
    (∀ text, (Path.ofText text).Contained ↔ text.head? ≠ some '/' ∧ ['.', '.'] ∉ text.splitOn '/' ∧
      ∃ piece ∈ text.splitOn '/', piece ≠ [] ∧ piece ≠ ['.']) ∧
    (∀ text path, containedPath? text = some path → path.nameParts ≠ [] ∧
      ∀ root : Path, root.isAbsolute = true →
        (root.join path).components = root.components ++ path.nameParts ∧
          root.LiesBelow (root.join path)) ∧
    ∀ libraries context inner world, (∀ library ∈ libraries, library.isAbsolute = true) →
      context.isAbsolute = true → (fetch libraries context inner).Ends world
        (fun _ after => CopiesBelow libraries context world after)
        (fun _ after => after = world ∨ CopiesBelow libraries context world after) := by
  refine ⟨fun _ _ => containedPath?_eq_some_iff, Path.contained_ofText_iff, ?_, ?_⟩
  · intro text path accepted
    have contained := (containedPath?_eq_some_iff.1 accepted).2
    refine ⟨contained.nameParts_ne_nil, fun root absolute => ?_⟩
    exact ⟨contained.components_join absolute, contained.liesBelow_join absolute⟩
  · exact fun libraries context inner world => fetch_copies_below inner world

/-- A path with dots and slashes to spare, joined to a library that is spelled with a slash at its
end, and a reference that is copied. -/
theorem references_stay_below_spelled :
    containedPath? "./a//b.c/./..d/".toList = some (Path.ofString "./a//b.c/./..d/") ∧
      ((Path.ofString "/common//").join (Path.ofString "./a//b.c/./..d/")).components =
        [.root, .name (Path.ofString "common").bytes, .name (Path.ofString "a").bytes,
          .name (Path.ofString "b.c").bytes, .name (Path.ofString "..d").bytes] ∧
      CopiesBelow nestedLibraries nestedContext (afterFetching [])
        (afterFetching ["./twig/leaf"]) := by
  obtain ⟨-, -, joins, fetches⟩ := references_stay_below
  have accepted : containedPath? "./a//b.c/./..d/".toList =
      some (Path.ofString "./a//b.c/./..d/") := by decide
  obtain ⟨-, adds⟩ := joins _ _ accepted
  have parts := (adds (Path.ofString "/common//") (by decide)).1
  have run : (fetchNested "./twig/leaf").run.run (afterFetching []) =
      (.ok ⟨⟩, afterFetching ["./twig/leaf"]) :=
    Action.run_eq_of_toOption (by decide +kernel)
  refine ⟨accepted, parts.trans (by decide), ?_⟩
  exact (fetches nestedLibraries nestedContext _ _ (by decide) (by decide)).of_ok run

end ImageStaging.Template
