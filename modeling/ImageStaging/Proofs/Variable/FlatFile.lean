import ImageStaging.Proofs.Variable.Table

/-!
# Writing flat files

The same variables can be written in many ways: with spaces around a name and its value, with either
kind of line end, and with lines between them that name no variable. Reading gives the variables
back however they were written, and reading a text behind another one puts what it defines over what
the other one defines.
-/

namespace ImageStaging

/-- A line as it may be written: a variable with spaces around its name and its value, or a remark
that names none. -/
inductive FlatLine
  | entry (name value : Text) (indent gap lead trail : Nat)
  | remark (text : Text)
  deriving DecidableEq

namespace FlatLine

def spaces (count : Nat) : Text :=
  List.replicate count ' '

def text : FlatLine → Text
  | .entry name value indent gap lead trail =>
    spaces indent ++ name ++ spaces gap ++ ':' :: (spaces lead ++ value ++ spaces trail)
  | .remark text => text

/-- What the line defines. -/
def pair? : FlatLine → Option (Text × Text)
  | .entry name value _ _ _ _ => some (name, value)
  | .remark _ => none

/-- Names and values are trimmed and within their line, and a name is not empty and ends before the
colon. A remark has no colon, or nothing but spaces and carriage returns before its first one. -/
def Proper : FlatLine → Prop
  | .entry name value _ _ _ _ =>
    (name ≠ [] ∧ Text.trim name = name ∧ ':' ∉ name ∧ '\n' ∉ name) ∧
      Text.trim value = value ∧ '\n' ∉ value
  | .remark text =>
    '\n' ∉ text ∧ (':' ∉ text ∨ ∀ c ∈ text.takeWhile (· ≠ ':'), c = ' ' ∨ c = '\r')

instance (line : FlatLine) : Decidable line.Proper :=
  match line with
  | .entry _ _ _ _ _ _ => inferInstanceAs (Decidable (_ ∧ _))
  | .remark text =>
    -- the characters of the text are looked through, not all that there are
    letI := List.decidableBAll (fun c => c = ' ' ∨ c = '\r') (text.takeWhile (· ≠ ':'))
    inferInstanceAs (Decidable (_ ∧ _))

end FlatLine

/-- What ends a line. -/
inductive LineEnd
  | lineFeed
  | returnAndLineFeed
  deriving DecidableEq

def LineEnd.text : LineEnd → Text
  | .lineFeed => ['\n']
  | .returnAndLineFeed => ['\r', '\n']

/-- A flat file as it may be written. The text behind the end of the last line, which is empty in
most files, may be a line too. -/
structure FlatFile where
  lines : List (FlatLine × LineEnd)
  last : FlatLine := .remark []

namespace FlatFile

def allLines (file : FlatFile) : List FlatLine :=
  file.lines.map Prod.fst ++ [file.last]

def text (file : FlatFile) : Text :=
  (file.lines.flatMap fun (line, lineEnd) => line.text ++ lineEnd.text) ++ file.last.text

/-- The variables that were written, in their order. -/
def pairs (file : FlatFile) : List (Text × Text) :=
  file.allLines.filterMap FlatLine.pair?

def Proper (file : FlatFile) : Prop :=
  ∀ line ∈ file.allLines, line.Proper

instance (file : FlatFile) : Decidable file.Proper :=
  inferInstanceAs (Decidable (∀ line ∈ file.allLines, line.Proper))

end FlatFile

/-! ## Reading what was written -/

namespace FlatLine

theorem isBlank_of_mem_spaces {count : Nat} {c : Char} (member : c ∈ spaces count) :
    Text.isBlank c = true := by
  rw [List.eq_of_mem_replicate member]
  rfl

theorem notMem_spaces {count : Nat} {c : Char} (visible : Text.isBlank c = false) :
    c ∉ spaces count := fun member => by
  rw [isBlank_of_mem_spaces member] at visible
  cases visible

theorem trim_between_spaces (before after : Nat) (text : Text) :
    Text.trim (spaces before ++ text ++ spaces after) = Text.trim text := by
  rw [Text.trim_append_of_blank_back fun _ => isBlank_of_mem_spaces,
    Text.trim_append_of_blank_front fun _ => isBlank_of_mem_spaces]

theorem newline_notMem_text {line : FlatLine} (proper : line.Proper) : '\n' ∉ line.text := by
  have inSpaces : ∀ count, '\n' ∉ spaces count := fun count member => by
    cases List.eq_of_mem_replicate member
  cases line with
  | entry name value indent gap lead trail =>
    obtain ⟨⟨-, -, -, inName⟩, -, inValue⟩ := proper
    simp [text, inSpaces, inName, inValue]
  | remark text => exact proper.1

/-- Of a line that was written, what it defines can be read. -/
theorem named_lineDefinition? {line : FlatLine} (proper : line.Proper) :
    (lineDefinition? line.text).filter (fun definition => definition.1 ≠ []) = line.pair? := by
  cases line with
  | entry name value indent gap lead trail =>
    obtain ⟨⟨named, nameTrimmed, noColon, -⟩, valueTrimmed, -⟩ := proper
    have defined : lineDefinition? (entry name value indent gap lead trail).text =
        some (name, value) := by
      refine lineDefinition?_eq_some.2 ⟨_, _, rfl, ?_, ?_, ?_⟩
      · have inSpaces : ∀ count, ':' ∉ spaces count := fun count => notMem_spaces rfl
        simp [inSpaces, noColon]
      · rw [trim_between_spaces, nameTrimmed]
      · rw [trim_between_spaces, valueTrimmed]
    simp [defined, Option.filter_some, named, pair?]
  | remark text =>
    rw [pair?, Option.filter_eq_none_iff]
    rintro ⟨name, value⟩ defined
    obtain ⟨front, back, rfl, noColon, rfl, -⟩ := lineDefinition?_eq_some.1 defined
    obtain ⟨-, hasNoColon | blank⟩ := proper
    · exact absurd (by simp) hasNoColon
    · -- all of the front stands before the first colon, and is blank
      have visible : ∀ c ∈ front, decide (c ≠ ':') = true := fun c member =>
        decide_eq_true fun same => noColon (same ▸ member)
      have wholeFront : (front ++ ':' :: back).takeWhile (· ≠ ':') = front := by
        rw [List.takeWhile_append_of_pos visible, List.takeWhile_cons_of_neg (by simp),
          List.append_nil]
      rw [wholeFront] at blank
      have blankFront : Text.trim front = [] := by
        refine Text.trim_of_blank fun c member => ?_
        rcases blank c member with rfl | rfl <;> rfl
      simp [blankFront]

end FlatLine

namespace FlatFile

/-- A carriage return that belongs to a line end is blank, so it does not change what the line
defines. -/
theorem lineDefinitions_line (line : Text) (lineEnd : LineEnd) (rest : Text) :
    lineDefinitions (line ++ lineEnd.text ++ rest) =
      lineDefinitions line ++ lineDefinitions rest := by
  cases lineEnd with
  | lineFeed =>
    rw [List.append_assoc]
    exact lineDefinitions_append line rest
  | returnAndLineFeed =>
    have regroup : line ++ LineEnd.text .returnAndLineFeed ++ rest =
        line ++ ['\r'] ++ '\n' :: rest := by
      simp [LineEnd.text]
    rw [regroup, lineDefinitions_append, lineDefinitions_concat rfl]

theorem named_lineDefinitions_line {line : FlatLine} (proper : line.Proper) :
    (lineDefinitions line.text).filter (fun definition => definition.1 ≠ []) =
      line.pair?.toList := by
  rw [lineDefinitions_of_line (FlatLine.newline_notMem_text proper),
    ← FlatLine.named_lineDefinition? proper, Option.toList_filter]

theorem text_cons (line : FlatLine) (lineEnd : LineEnd) (lines : List (FlatLine × LineEnd))
    (last : FlatLine) : text ⟨(line, lineEnd) :: lines, last⟩ =
      line.text ++ lineEnd.text ++ text ⟨lines, last⟩ := by
  simp [text]

theorem pairs_nil (last : FlatLine) : pairs ⟨[], last⟩ = last.pair?.toList := by
  cases made : last.pair? <;> simp [pairs, allLines, made]

theorem pairs_cons (line : FlatLine) (lineEnd : LineEnd) (lines : List (FlatLine × LineEnd))
    (last : FlatLine) : pairs ⟨(line, lineEnd) :: lines, last⟩ =
      line.pair?.toList ++ pairs ⟨lines, last⟩ := by
  cases made : line.pair? <;> simp [pairs, allLines, made]

/-- The lines of a file that was written define its variables and none else that has a name. -/
theorem named_lineDefinitions {file : FlatFile} (proper : file.Proper) :
    (lineDefinitions file.text).filter (fun definition => definition.1 ≠ []) = file.pairs := by
  obtain ⟨lines, last⟩ := file
  induction lines with
  | nil =>
    have properLast : last.Proper := proper last (List.mem_singleton_self last)
    rw [pairs_nil]
    exact named_lineDefinitions_line properLast
  | cons item lines ih =>
    obtain ⟨line, lineEnd⟩ := item
    have properLine : line.Proper := proper line List.mem_cons_self
    have properRest : Proper ⟨lines, last⟩ := fun other member =>
      proper other (List.mem_cons_of_mem line member)
    rw [text_cons, pairs_cons, lineDefinitions_line, List.filter_append,
      named_lineDefinitions_line properLine, ih properRest]

/-- Names and values that are written are trimmed. -/
theorem trimmed_of_mem_pairs {file : FlatFile} (proper : file.Proper) {name value : Text}
    (member : (name, value) ∈ file.pairs) : Text.trim name = name ∧ Text.trim value = value := by
  rw [← named_lineDefinitions proper] at member
  exact VariableTable.trim_of_mem_lineDefinitions (List.mem_of_mem_filter member)

end FlatFile

namespace VariableTable

/-- The last of some trimmed pairs with a name gives its value. -/
theorem get?_ofList_of_trimmed {pairs : List (Text × Text)}
    (trimmed : ∀ pair ∈ pairs, Text.trim pair.1 = pair.1 ∧ Text.trim pair.2 = pair.2)
    (name : Text) : (ofList pairs).get? name = pairs.reverse.lookup name := by
  induction pairs using List.reverseRecOn with
  | nil => rfl
  | append_singleton pairs pair ih =>
    obtain ⟨key, value⟩ := pair
    obtain ⟨keyTrimmed, valueTrimmed⟩ := trimmed (key, value) (by simp)
    have front := ih fun other member => trimmed other (List.mem_append_left _ member)
    rw [ofList_concat, get?_insert, keyTrimmed, valueTrimmed, front, List.reverse_append,
      List.reverse_singleton, List.singleton_append, List.lookup_cons]
    by_cases same : name = key
    · simp [same]
    · have differ : (name == key) = false := beq_false_of_ne same
      simp [same, differ]

/-- A flat file, however it was written, is read back as the table of its variables, in which a
later one overrides an earlier one of its name; and a text behind another one and a line feed is
read over it. -/
theorem parseFlat_reads_back {file : FlatFile} (proper : file.Proper) :
    parseFlat file.text = ofList file.pairs ∧
      (∀ name, (parseFlat file.text).get? name = file.pairs.reverse.lookup name) ∧
      ∀ front back : Text,
        parseFlat (front ++ '\n' :: back) = (parseFlat front).merge (parseFlat back) := by
  have table : parseFlat file.text = ofList file.pairs := by
    rw [parseFlat_eq, FlatFile.named_lineDefinitions proper]
  refine ⟨table, fun name => ?_, parseFlat_append⟩
  rw [table]
  exact get?_ofList_of_trimmed (fun _ => FlatFile.trimmed_of_mem_pairs proper) name

/-- A remark without a colon, a value with one, a colon with no name before it, and a last line that
has no end and takes the value away again. -/
def sampleFile : FlatFile where
  lines :=
    [(.remark "# colours".toList, .lineFeed),
      (.entry ['A'] "x:y".toList 1 2 0 3, .returnAndLineFeed),
      (.remark " \r: none".toList, .lineFeed),
      (.entry ['B'] ['1'] 0 0 1 0, .lineFeed)]
  last := .entry ['A'] [] 0 0 1 0

theorem parseFlat_reads_back_sample :
    sampleFile.text = "# colours\n A  :x:y   \r\n \r: none\nB: 1\nA: ".toList ∧
      sampleFile.Proper ∧ parseFlat sampleFile.text = ⟨[(['A'], []), (['B'], ['1'])]⟩ ∧
      (parseFlat sampleFile.text).get? ['A'] = some [] := by
  have proper : sampleFile.Proper := by decide
  obtain ⟨table, answers, -⟩ := parseFlat_reads_back proper
  exact ⟨by decide, proper, table, answers ['A']⟩

end VariableTable

end ImageStaging
