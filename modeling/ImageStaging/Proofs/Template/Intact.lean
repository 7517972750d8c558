import ImageStaging.Proofs.Action
import ImageStaging.Proofs.Layout
import ImageStaging.Proofs.Template.Seams

/-!
# What the first pass does to the references

For a template without harmful seams the first pass takes away the file references and nothing else.
For any other template that it resolves, the text it leaves is read differently from the template.
-/

namespace ImageStaging.Template

open ImageStaging.Action (Ends)

variable {text template : Text} {kind : Kind}

/-! ## References and segments -/

theorem references_eq_nil_iff :
    references kind text = [] ↔ ∀ inner, .placeholder inner ∉ segments kind text := by
  rw [List.eq_nil_iff_forall_not_mem]
  simp only [mem_references]

/-- A placeholder that begins anywhere in a text is seen or overlaps one that is seen. -/
theorem placeholderAt?_of_references_eq_nil (noReferences : references kind text = [])
    {front back : Text} (whole : text = front ++ back) : placeholderAt? kind back = none := by
  rw [references_eq_nil_iff] at noReferences
  induction front generalizing text with
  | nil =>
    obtain rfl : text = back := whole
    by_contra present
    obtain ⟨⟨inner, rest⟩, found⟩ := Option.ne_none_iff_exists'.1 present
    refine noReferences inner ?_
    rw [segments_of_placeholder found]
    exact List.mem_cons_self
  | cons c front ih =>
    subst whole
    cases found : placeholderAt? kind (c :: (front ++ back)) with
    | some reference =>
      obtain ⟨inner, rest⟩ := reference
      refine absurd ?_ (noReferences inner)
      rw [List.cons_append, segments_of_placeholder found]
      exact List.mem_cons_self
    | none =>
      refine ih (fun inner member => noReferences inner ?_) rfl
      rw [List.cons_append, segments_of_literal found]
      exact List.mem_cons_of_mem _ member

/-- Among texts whose variables are no file references, those without file references are the ones
in which no closing marks are shared. -/
theorem references_file_eq_nil_iff
    (free : ∀ inner, .placeholder inner ∈ segments .variable text → fileInner? inner = none) :
    references .file text = [] ↔ Everywhere Unshared (segments .variable text) := by
  constructor
  · intro noReferences before segment after whole inner isPlaceholder _ begins
    have text_eq : text = textOf before ++ (placeholderText .variable inner ++ textOf after) := by
      rw [← textOf_segments text, whole, textOf_append, isPlaceholder]
      rfl
    rcases begins with begins | begins
    · have nothing := placeholderAt?_of_references_eq_nil noReferences
        (text_eq.trans (by simp [placeholderText]) :
          text = (textOf before ++ Kind.variable.opening ++ inner) ++ (closing ++ textOf after))
      rw [nothing] at begins
      cases begins
    · have nothing := placeholderAt?_of_references_eq_nil noReferences
        (text_eq.trans (by simp [placeholderText, closing]) :
          text = (textOf before ++ Kind.variable.opening ++ inner ++ [percent]) ++
            (percent :: textOf after))
      rw [nothing] at begins
      cases begins
  · intro unshared
    rw [references_eq_nil_iff, segments_file unshared]
    intro shared member
    obtain ⟨segment, inSegments, made⟩ := List.mem_flatMap.1 member
    cases segment with
    | literal c => cases List.mem_singleton.1 made
    | placeholder inner =>
      rw [Segment.asFile, free inner inSegments] at made
      obtain ⟨c, _, impossible⟩ := List.mem_map.1 made
      cases impossible

theorem eraseDups_filter (keep : Text → Bool) (texts : List Text) :
    (texts.filter keep).eraseDups = texts.eraseDups.filter keep := by
  induction length : texts.length using Nat.strongRecOn generalizing texts with
  | _ size ih =>
    cases texts with
    | nil => rfl
    | cons first texts =>
      have shorter : (texts.filter fun other => !(other == first)).length < size := by
        have := List.length_filter_le (fun other => !(other == first)) texts
        rw [List.length_cons] at length
        omega
      have rest := ih _ shorter _ rfl
      by_cases kept : keep first
      · rw [List.filter_cons_of_pos kept, List.eraseDups_cons, List.eraseDups_cons,
          List.filter_cons_of_pos kept, ← rest, List.filter_filter, List.filter_filter]
        simp only [Bool.and_comm]
      · have notFirst : (texts.filter fun other => !(other == first)).filter keep =
            texts.filter keep := by
          rw [List.filter_filter]
          refine List.filter_congr fun other _ => ?_
          by_cases same : other = first
          · simp [same, kept]
          · simp [same]
        rw [List.filter_cons_of_neg kept, List.eraseDups_cons, List.filter_cons_of_neg kept, ← rest,
          notFirst]

/-! ## The first pass -/

/-- The new text is read as the template with paths for its file references. -/
def Intact (template text : Text) : Prop :=
  segments .variable text = spelled (segments .variable template) ∧ references .file text = []

instance (template text : Text) : Decidable (Intact template text) :=
  inferInstanceAs (Decidable (_ ∧ _))

/-- The inside of a variable reference that is no file reference as well. -/
def namesVariable (inner : Text) : Bool :=
  (fileInner? inner).isNone

theorem namesVariable_iff {inner : Text} :
    namesVariable inner = true ↔ fileInner? inner = none :=
  Option.isNone_iff_eq_none

theorem filterMap_inner?_spelled (segments : List Segment) :
    (spelled segments).filterMap Segment.inner? =
      (segments.filterMap Segment.inner?).filter namesVariable := by
  induction segments with
  | nil => rfl
  | cons segment segments ih =>
    cases segment with
    | literal c => exact ih
    | placeholder inner =>
      cases isFile : fileInner? inner with
      | none =>
        have kept := namesVariable_iff.2 isFile
        have here : (Segment.placeholder inner).inner? = some inner := rfl
        rw [spelled_variable isFile, List.filterMap_cons_some here, List.filterMap_cons_some here,
          List.filter_cons_of_pos kept, ih]
      | some shared =>
        have dropped : ¬ namesVariable inner = true := by simp [namesVariable, isFile]
        have here : (Segment.placeholder inner).inner? = some inner := rfl
        rw [spelled_file isFile, List.filterMap_append, ih, List.filterMap_cons_some here,
          List.filter_cons_of_neg dropped]
        simp [Segment.inner?]

theorem fileInner?_of_mem_spelled {inner : Text} {segments : List Segment}
    (member : .placeholder inner ∈ spelled segments) : fileInner? inner = none := by
  have inner? : inner ∈ (spelled segments).filterMap Segment.inner? :=
    List.mem_filterMap.2 ⟨_, member, rfl⟩
  rw [filterMap_inner?_spelled, List.mem_filter] at inner?
  exact namesVariable_iff.1 inner?.2

/-- Without shared closing marks the file references are those among the variable references. -/
theorem mem_references_file (unshared : Everywhere Unshared (segments .variable template))
    {shared : Text} : shared ∈ references .file template ↔
      ∃ inner ∈ references .variable template, fileInner? inner = some shared := by
  simp only [mem_references]
  rw [segments_file unshared, List.mem_flatMap]
  constructor
  · rintro ⟨segment, member, made⟩
    cases segment with
    | literal c => cases List.mem_singleton.1 made
    | placeholder inner =>
      rw [Segment.asFile] at made
      cases isFile : fileInner? inner with
      | none =>
        rw [isFile] at made
        obtain ⟨c, _, impossible⟩ := List.mem_map.1 made
        cases impossible
      | some found =>
        rw [isFile] at made
        cases List.mem_singleton.1 made
        exact ⟨inner, member, isFile⟩
  · rintro ⟨inner, member, isFile⟩
    refine ⟨_, member, ?_⟩
    rw [Segment.asFile, isFile]
    exact List.mem_cons_self

section Resolved

variable (paths : ∀ shared ∈ references .file template, sharedPath shared ≠ [])
include paths

theorem pathsProper (unshared : Everywhere Unshared (segments .variable template)) :
    PathsProper (segments .variable template) := fun inner shared member isFile =>
  paths shared ((mem_references_file unshared).2 ⟨inner, mem_references.2 member, isFile⟩)

theorem intact_iff_seamless : Intact template (withPaths template) ↔ Seamless template := by
  constructor
  · rintro ⟨reads, noFiles⟩
    have same : withPaths template = textOf (spelled (segments .variable template)) := by
      rw [← reads, textOf_segments]
    have unshared := unshared_of_withPaths_eq
      (fun shared member => paths shared (mem_references.2 member)) same
    refine ⟨unshared, ?_, ?_⟩
    · rw [same] at reads
      exact (segments_spelled_iff (pathsProper paths unshared)).1 reads
    · rw [references_file_eq_nil_iff (by rw [reads]; exact fun _ => fileInner?_of_mem_spelled),
        reads] at noFiles
      exact noFiles
  · rintro ⟨unshared, unenclosed, stillUnshared⟩
    have same := withPaths_eq_spelled unshared
    have reads := (segments_spelled_iff (pathsProper paths unshared)).2 unenclosed
    rw [← same] at reads
    refine ⟨reads, ?_⟩
    rw [references_file_eq_nil_iff (by rw [reads]; exact fun _ => fileInner?_of_mem_spelled), reads]
    exact stillUnshared

theorem references_of_intact (intact : Intact template (withPaths template)) :
    references .variable (withPaths template) =
      (references .variable template).filter fun inner =>
        ∀ shared ∈ references .file template,
          placeholderText .variable inner ≠ placeholderText .file shared := by
  have unshared := ((intact_iff_seamless paths).1 intact).unshared
  rw [references, intact.1, filterMap_inner?_spelled, eraseDups_filter]
  refine List.filter_congr fun inner member => ?_
  have member : inner ∈ references .variable template := member
  rw [Bool.eq_iff_iff, decide_eq_true_iff, namesVariable_iff]
  constructor
  · intro isVariable shared inFiles same
    obtain rfl : inner = fileMark ++ shared := by
      rw [placeholderText_file, placeholderText, placeholderText] at same
      exact List.append_cancel_left (List.append_cancel_right same)
    obtain ⟨_, _, isFile⟩ := (mem_references_file unshared).1 inFiles
    have proper := (fileInner?_eq_some_iff.1 isFile).2
    cases isVariable.symm.trans (fileInner?_eq_some_iff.2 ⟨rfl, proper⟩)
  · intro others
    cases isFile : fileInner? inner with
    | none => rfl
    | some shared =>
      have inFiles := (mem_references_file unshared).2 ⟨inner, member, isFile⟩
      refine absurd ?_ (others shared inFiles)
      rw [(fileInner?_eq_some_iff.1 isFile).1]
      rfl

end Resolved

/-! ## Templates that are resolved -/

variable {libraries : List Path} {context : Path} {world after : World}

theorem fetch_contained_ends (inner : Text) :
    (fetch libraries context inner).Ends world
      (fun _ _ => (containedPath? (sharedPath inner)).isSome) (fun _ _ => True) := by
  unfold fetch
  cases containedPath? (sharedPath inner) with
  | none => trivial
  | some path => exact .of_forall (fun _ _ => rfl) fun _ _ => trivial

/-- Every path of a template that is resolved stays inside the libraries, and so it is proper. -/
theorem resolveFiles_proper
    (resolves : (resolveFiles template libraries context).run.run world = (.ok text, after)) :
    text = withPaths template ∧ ∀ shared ∈ references .file template, sharedPath shared ≠ [] := by
  have ends : (resolveFiles template libraries context).Ends world
      (fun text _ => text = withPaths template ∧
        ∀ shared ∈ references .file template, (containedPath? (sharedPath shared)).isSome)
      (fun _ _ => True) := by
    rw [resolveFiles_eq]
    simp only [Action.ends_bind, Action.ends_pure, true_and]
    refine Ends.forM (fun fetched _ => ∀ shared ∈ fetched,
      (containedPath? (sharedPath shared)).isSome) (by simp) ?_
    intro before inner _ after earlier
    refine (fetch_contained_ends inner).mono (fun _ _ contained => ?_) fun _ _ _ => trivial
    simpa [or_imp, forall_and] using ⟨earlier, contained⟩
  obtain ⟨isText, contained⟩ := ends.of_ok resolves
  refine ⟨isText, fun shared member empty => ?_⟩
  have contained := contained shared member
  rw [empty] at contained
  cases contained

/-- The first pass leaves every variable reference in its place and makes no new reference exactly
if the template has no harmful seams. -/
theorem resolveFiles_intact_iff
    (resolves : (resolveFiles template libraries context).run.run world = (.ok text, after)) :
    (Intact template text ↔ Seamless template) ∧
      (Seamless template → references .file text = [] ∧
        references .variable text = (references .variable template).filter fun inner =>
          ∀ shared ∈ references .file template,
            placeholderText .variable inner ≠ placeholderText .file shared) := by
  obtain ⟨rfl, paths⟩ := resolveFiles_proper resolves
  refine ⟨intact_iff_seamless paths, fun seamless => ?_⟩
  have intact := (intact_iff_seamless paths).2 seamless
  exact ⟨intact.2, references_of_intact paths intact⟩

/-- A library with one file in it, and beside it a directory for a context. -/
def libraryFiles : FileSystem where
  entries := [
    ([Layout.nameOf "shared"], .directory),
    ([Layout.nameOf "shared", Layout.sharedName], .file [] false),
    ([Layout.contextName], .directory)]
  distinct := by decide
  rooted := by
    simp only [FileSystem.Rooted, FileSystem.find]
    decide

/-- A file reference that begins in the closing marks of a variable makes another variable. -/
theorem resolveFiles_intact_iff_sample :
    Seamless "%%_COMMON/a%% %%X%%".toList ∧ ¬ Seamless "%%X%%_COMMON/a%%%%".toList := by
  obtain ⟨_, first⟩ : ∃ after, (resolveFiles "%%_COMMON/a%% %%X%%".toList
      [Path.ofString "/shared"] (Path.ofString "/_docker-build")).run.run { files := libraryFiles } =
        (.ok "a %%X%%".toList, after) := Action.exists_run_of_toOption (by decide +kernel)
  obtain ⟨_, second⟩ : ∃ after, (resolveFiles "%%X%%_COMMON/a%%%%".toList
      [Path.ofString "/shared"] (Path.ofString "/_docker-build")).run.run { files := libraryFiles } =
        (.ok "%%Xa%%".toList, after) := Action.exists_run_of_toOption (by decide +kernel)
  refine ⟨(resolveFiles_intact_iff first).1.1 (by decide +kernel), fun seamless => ?_⟩
  have intact := (resolveFiles_intact_iff second).1.2 seamless
  exact absurd intact (by decide +kernel)

end ImageStaging.Template
