import ImageStaging.Host.Condition
import ImageStaging.Host.Shell.Expansion
import ImageStaging.Host.Shell.Signal
import ImageStaging.Host.Utility.Printing

/-!
# The commands that a shell has itself

Each takes its arguments and ends with a status. A fault in one of the special ones ends the script.
-/

namespace ImageStaging.Host

/-- A command of the shell, given its arguments. -/
abbrev Builtin := List Text → Run Nat

namespace Builtin

/-- A complaint of a command that fails and lets the script go on. -/
def refuse (message : String) : Run Nat := do
  Run.complain message
  pure 2

def number? (word : Text) : Option Nat :=
  if word ≠ [] && word.all Char.isDigit then (String.ofList word).toNat? else none

def illegalNumber {α : Type} (word : Text) : Run α :=
  Run.fail s!"Illegal number: {String.ofList word}"

/-- A number that a command is given, or another one if it is given none. -/
def numberOr (usual : Nat) (arguments : List Text) : Run Nat := do
  match arguments with
  | [] => pure usual
  | word :: _ =>
    match number? word with
    | some value => pure value
    | none => illegalNumber word

/-- The letters of the leading options, which have to be some of these, and the words after them. -/
def readLetters (known : List Char) : List Text → Run (Text × List Text)
  | [] => pure ([], [])
  | ['-', '-'] :: rest => pure ([], rest)
  | ('-' :: letter :: letters) :: rest => do
    let given := letter :: letters
    match given.find? fun c => !known.contains c with
    | some c => Run.fail s!"Illegal option -{String.ofList [c]}"
    | none =>
      let (more, words) ← readLetters known rest
      pure (given ++ more, words)
  | words => pure ([], words)

/-! ## Printing -/

def echo : Builtin := fun arguments => do
  let reading : Escape.Style := { hexadecimal := false }
  let bytes :=
    match arguments with
    | ['-', 'n'] :: words => Utility.EchoStyle.print ⟨false, true⟩ reading words
    | words => Utility.EchoStyle.print ⟨true, true⟩ reading words
  Run.printBytes bytes
  pure 0

def printfComplaint : Printf.Fault → String
  | .missingLetter _ => "missing format character"
  | .invalidDirective directive => s!"{String.ofList directive}: invalid directive"
  | .notNumeric argument => s!"{String.ofList argument}: expected numeric value"
  | .notConverted argument => s!"{String.ofList argument}: not completely converted"
  | .outOfRange argument => s!"{String.ofList argument}: Numerical result out of range"

def printf : Builtin := fun arguments => do
  match (← readLetters [] arguments).2 with
  | [] => refuse "usage: printf format [arg ...]"
  | format :: rest =>
    let outcome :=
      Printf.run ⟨false, false, false⟩ { hexadecimal := false } format rest
    Run.printBytes outcome.printed
    for fault in outcome.faults do
      Run.complain (printfComplaint fault)
    let invalid := outcome.faults.any fun fault =>
      match fault with
      | .missingLetter _ | .invalidDirective _ => true
      | _ => false
    pure (if invalid then 2 else if outcome.faults.isEmpty then 0 else 1)

def test (bracketed : Bool) : Builtin := fun arguments => do
  match Condition.answer (← Run.files) bracketed arguments with
  | .ok answer => pure (if answer then 0 else 1)
  | .error fault => refuse fault.message

/-! ## The working directory -/

/-- A path without steps that stay or go up, as far as its own names tell. -/
def tidy (path : Text) : Text :=
  let steps := (Text.fields '/' path).foldl (fun steps step =>
    if step = [] || step = ['.'] then steps
    else if step = ['.', '.'] then steps.dropLast
    else steps ++ [step]) []
  '/' :: ['/'].intercalate steps

def changePlace : Builtin := fun arguments => do
  let (_, words) ← readLetters ['L', 'P'] arguments
  let home := (← Run.value? "HOME".toList).getD []
  let target ←
    match words with
    | [] => pure home
    | ['-'] :: _ => do pure ((← Run.value? "OLDPWD".toList).getD [])
    | word :: _ => pure word
  let place := (← Run.shell).place
  let wanted := tidy (if target.head? = some '/' then target else place ++ '/' :: target)
  let files ← Run.files
  match files.locate .target (Path.ofText wanted) with
  | .ok location =>
    if files.get? location = some .directory then
      Run.task (Task.moveTo location)
      for (name, value) in [("OLDPWD".toList, place), ("PWD".toList, wanted)] do
        Run.assign name value
        Run.putVariable name ((← Run.held? name).map fun held => { held with exported := true })
      Run.modifyShell fun shell => { shell with place := wanted }
      if words.head? = some ['-'] then Run.print (wanted ++ ['\n'])
      pure 0
    else refuse s!"can't cd to {String.ofList target}"
  | .error _ => refuse s!"can't cd to {String.ofList target}"

def place : Builtin := fun arguments => do
  let (letters, _) ← readLetters ['L', 'P'] arguments
  let shown ←
    if letters.getLast? = some 'P' then do pure (Utility.placeText (← Run.files))
    else do pure (← Run.shell).place
  Run.print (shown ++ ['\n'])
  pure 0

/-! ## Variables -/

def isBlank (c : Char) : Bool :=
  c = ' ' || c = '\t' || c = '\n'

/-- One line of the standard input with marks for what was quoted, and whether it was complete. -/
def readLine (raw : Bool) : Nat → List Mark → Run (List Mark × Bool)
  | 0, marks => pure (marks, false)
  | fuel + 1, marks => do
    let index := ((← Run.shell).handles.lookup standardInput)
    let bytes ←
      match index with
      | some index => Run.task (Task.takeFrom index (· = 0x0A))
      | none => pure []
    let complete := bytes.getLast? = some 0x0A
    let text := Utf8.decodeLossy (if complete then bytes.dropLast else bytes)
    if raw then pure (marks ++ text.map fun c => (c, false), complete)
    else
      let (read, goesOn) := unescape text
      if goesOn && complete then readLine raw fuel (marks ++ read)
      else pure (marks ++ read, complete)
where
  /-- The characters after a backslash are quoted; a backslash at the end joins two lines. -/
  unescape : Text → List Mark × Bool
    | [] => ([], false)
    | ['\\'] => ([], true)
    | '\\' :: c :: rest =>
      let (marks, goesOn) := unescape rest
      ((c, true) :: marks, goesOn)
    | c :: rest =>
      let (marks, goesOn) := unescape rest
      ((c, false) :: marks, goesOn)

/-- The values of names by a line. The last name gets all that is left. -/
def splitLine (separators : Text) : List Text → List Mark → List (Text × Text)
  | [], _ => []
  | [name], marks =>
    let isGap (mark : Mark) : Bool := !mark.2 && isBlank mark.1 && separators.contains mark.1
    let kept := ((marks.dropWhile isGap).reverse.dropWhile isGap).reverse
    [(name, kept.map Prod.fst)]
  | name :: names, marks =>
    let isSeparator (mark : Mark) : Bool := !mark.2 && separators.contains mark.1
    let isGap (mark : Mark) : Bool := isSeparator mark && isBlank mark.1
    let marks := marks.dropWhile isGap
    let field := marks.takeWhile (!isSeparator ·)
    let rest := (marks.drop field.length).dropWhile isGap
    let rest :=
      match (marks.drop field.length).find? (!isGap ·) with
      | some mark => if isSeparator mark then rest.drop 1 else rest
      | none => rest
    (name, field.map Prod.fst) :: splitLine separators names rest

def badName {α : Type} (name : Text) : Run α :=
  Run.fail s!"{String.ofList name}: bad variable name"

/-- Nobody is there to see a prompt. -/
def withoutPrompt : List Text → List Text
  | ['-', 'r'] :: rest => ['-', 'r'] :: withoutPrompt rest
  | ['-', 'p'] :: _ :: rest => withoutPrompt rest
  | words => words

def read : Builtin := fun arguments => do
  let (letters, names) ← readLetters ['r'] (withoutPrompt arguments)
  if names.isEmpty then Run.fail "arg count"
  let (marks, complete) ← readLine (letters.contains 'r') 10000 []
  for (name, value) in splitLine (← Run.separators) names marks do
    unless Script.isName name do badName name
    Run.assign name value
  pure (if complete then 0 else 1)

/-- A value as a script would have to write it. -/
def written (value : Text) : Text :=
  '\x27' :: value.flatMap (fun c =>
    if c = '\x27' then ['\x27', '\x22', '\x27', '\x22', '\x27'] else [c]) ++ ['\x27']

def sortedNames {α : Type} (names : List (Text × α)) : List (Text × α) :=
  names.mergeSort fun first second => decide (Utf8.encode first.1 ≤ Utf8.encode second.1)

/-- Marks variables, some of which get a value, or prints those that are marked. -/
def mark (command : String) (isMarked : Variable → Bool) (change : Variable → Variable) :
    Builtin := fun arguments => do
  let (_, words) ← readLetters ['p'] arguments
  if words.isEmpty then
    for (name, held) in sortedNames ((← Run.shell).values.filter fun item => isMarked item.2) do
      let value :=
        match held.value with
        | some value => '=' :: written value
        | none => []
      Run.print (command.toList ++ ' ' :: name ++ value ++ ['\n'])
  for word in words do
    let (name, value) :=
      match Text.splitFirst '=' word with
      | some (name, value) => (name, some value)
      | none => (word, none)
    unless Script.isName name do badName name
    if let some value := value then Run.assign name value
    Run.putVariable name (some (change ((← Run.held? name).getD {})))
  pure 0

def unset : Builtin := fun arguments => do
  let (letters, names) ← readLetters ['f', 'v'] arguments
  for name in names do
    if letters.getLast? = some 'f' then
      Run.modifyShell fun shell =>
        { shell with functions := shell.functions.filter fun item => item.1 ≠ name }
    else
      unless Script.isName name do badName name
      if ((← Run.held? name).map Variable.readOnly) = some true then
        Run.fail s!"{String.ofList name}: is read only"
      Run.putVariable name none
  pure 0

/-- Makes variables local to the function that is being called. -/
def localize : Builtin := fun arguments => do
  match (← Run.shell).scopes with
  | [] => Run.fail "not in a function"
  | _ =>
    for word in arguments do
      let (name, value) :=
        match Text.splitFirst '=' word with
        | some (name, value) => (name, some value)
        | none => (word, none)
      let held ← Run.held? name
      Run.modifyShell fun shell =>
        match shell.scopes with
        | scope :: others =>
          if (scope.lookup name).isSome then shell
          else { shell with scopes := ((name, held) :: scope) :: others }
        | [] => shell
      if let some value := value then Run.assign name value
    pure 0

def shift : Builtin := fun arguments => do
  let count ← numberOr 1 arguments
  if (← Run.shell).arguments.length < count then Run.fail "can't shift that many"
  Run.modifyShell fun shell => { shell with arguments := shell.arguments.drop count }
  pure 0

/-! ## Options -/

/-- What the words of `set`, or of a shell that starts, ask for. -/
structure Setting where
  /-- The names of the options that are on. -/
  options : List String
  /-- A script is among the words. -/
  ofText : Bool := false
  /-- The options are to be shown, in one of two ways. -/
  shown : Option Bool := none
  arguments : Option (List Text) := none

namespace Setting

def put (setting : Setting) (value : Bool) (option : ShellOption) : Setting :=
  let others := setting.options.filter (· ≠ option.name)
  { setting with options := if value then option.name :: others else others }

/-- What one letter asks for, and whether it takes the next word as the name of an option. -/
def putLetter (atStart value : Bool) (setting : Setting) (letter : Char) :
    Except String (Setting × Bool) :=
  if letter = 'o' then .ok (setting, true)
  else if atStart && letter = 'c' then .ok ({ setting with ofText := true }, false)
  else if atStart && letter = 'l' then .ok (setting, false)
  else
    match ShellOption.all.find? fun option => option.letter = some letter with
    | some option => .ok (setting.put value option, false)
    | none => .error s!"Illegal option -{String.ofList [letter]}"

/-- What the letters of a word ask for, and how many of them take a word of their own. -/
def putLetters (atStart value : Bool) : Setting → Text → Except String (Setting × Nat)
  | setting, [] => .ok (setting, 0)
  | setting, letter :: rest => do
    let (setting, takesWord) ← putLetter atStart value setting letter
    let (setting, count) ← putLetters atStart value setting rest
    pure (setting, if takesWord then count + 1 else count)

/-- Reads words. The first `waiting` of them are names of options that get the value. -/
def readFrom (atStart value : Bool) : Setting → Nat → List Text → Except String Setting
  | setting, 0, [] => .ok setting
  | setting, _ + 1, [] => .ok { setting with shown := some value }
  | setting, waiting + 1, name :: rest =>
    match ShellOption.all.find? fun option => option.name = String.ofList name with
    | some option => readFrom atStart value (setting.put value option) waiting rest
    | none => .error s!"Illegal option -o {String.ofList name}"
  | setting, 0, word :: rest =>
    match word with
    | ['-', '-'] => .ok { setting with arguments := some rest }
    | ['-'] =>
      let others := setting.options.filter fun name => name ≠ "xtrace" && name ≠ "verbose"
      .ok { setting with
        options := if atStart then setting.options else others
        arguments := if rest.isEmpty then none else some rest }
    | '-' :: letters => do
      let (setting, waiting) ← putLetters atStart true setting letters
      readFrom atStart true setting waiting rest
    | '+' :: letters => do
      let (setting, waiting) ← putLetters atStart false setting letters
      readFrom atStart false setting waiting rest
    | _ => .ok { setting with arguments := some (word :: rest) }

def read (atStart : Bool) (options : List String) (words : List Text) : Except String Setting :=
  readFrom atStart true { options } 0 words

end Setting

/-- Shows the options as a table or, if not, as the commands that set them. -/
def showOptions (asTable : Bool) : Run Unit := do
  if asTable then Run.print "Current option settings\n".toList
  for option in ShellOption.all do
    let isOn ← Run.isOn option.name
    let gap := String.ofList (List.replicate (16 - option.name.length) ' ')
    let line :=
      if asTable then option.name ++ gap ++ (if isOn then "on" else "off")
      else (if isOn then "set -o " else "set +o ") ++ option.name
    Run.print (line ++ "\n").toList

def set : Builtin := fun arguments => do
  if arguments.isEmpty then
    for (name, held) in sortedNames (← Run.shell).values do
      if let some value := held.value then
        Run.print (name ++ '=' :: written value ++ ['\n'])
  match Setting.read false (← Run.shell).options arguments with
  | .error message => Run.fail message
  | .ok setting =>
    Run.modifyShell fun shell =>
      { shell with
        options := setting.options
        arguments := setting.arguments.getD shell.arguments }
    if let some asTable := setting.shown then showOptions asTable
    pure 0

/-- Reads the next option of some words into a variable. -/
def nextOption : Builtin := fun arguments => do
  match arguments with
  | letters :: name :: words =>
    let shell ← Run.shell
    let words := if words.isEmpty then shell.arguments else words
    let indexOf (text : Text) : Nat := (number? text).getD 1
    let index := indexOf ((← Run.value? "OPTIND".toList).getD ['1'])
    let word := words.getD (index - 1) []
    let silent := letters.head? = some ':'
    let finish (value : Text) (argument : Option Text) (index used status : Nat) : Run Nat := do
      Run.assign name value
      match argument with
      | some text => Run.assign "OPTARG".toList text
      | none => Run.putVariable "OPTARG".toList none
      Run.assign "OPTIND".toList (toString index).toList
      Run.modifyShell fun shell => { shell with optionLetters := used }
      pure status
    match word with
    | ['-', '-'] => finish ['?'] none (index + 1) 0 1
    | '-' :: first :: more =>
      let cluster := first :: more
      let letter := cluster.getD shell.optionLetters first
      let rest := cluster.drop (shell.optionLetters + 1)
      let (behind, used) := if rest = [] then (index + 1, 0) else (index, shell.optionLetters + 1)
      if letter = ':' || !letters.contains letter then
        if silent then finish ['?'] (some [letter]) behind used 0
        else
          Run.complain s!"Illegal option -{String.ofList [letter]}"
          finish ['?'] none behind used 0
      else if (letters.drop (letters.idxOf letter + 1)).head? = some ':' then
        match rest, words[index]? with
        | [], some value => finish [letter] (some value) (index + 2) 0 0
        | [], none =>
          if silent then finish [':'] (some [letter]) (index + 1) 0 0
          else
            Run.complain s!"No arg for -{String.ofList [letter]} option"
            finish ['?'] none (index + 1) 0 0
        | value, _ => finish [letter] (some value) (index + 1) 0 0
      else finish [letter] none behind used 0
    | _ => finish ['?'] none index 0 1
  | _ => refuse "Usage: getopts optstring var [arg...]"

/-! ## The order of commands -/

/-- Leaves loops, or goes on with their next round. -/
def leaveLoops (interrupt : Nat → Interrupt) : Builtin := fun arguments => do
  let count ← numberOr 1 arguments
  if count = 0 then illegalNumber ['0']
  let loops := (← Run.shell).loops
  if loops = 0 then pure 0
  else
    Run.setStatus 0
    throw (interrupt (min count loops))

def goBack : Builtin := fun arguments => do
  let status ← numberOr (← Run.shell).status arguments
  Run.setStatus status
  throw .back

def exit : Builtin := fun arguments => do
  let status ← numberOr (← Run.shell).status arguments
  Run.exitWith (status % 256)

/-! ## Signals -/

def killUsage : String :=
  "Usage: kill [-s sigspec | -signum | -sigspec] [pid | job]... or\nkill -l [exitstatus]"

/-- Sends a signal, or none if it is only to be seen whether a process is there. What ran in the
background has ended and takes any signal. -/
def send (signal : Option Signal) (processes : List Text) : Run Nat := do
  let shell ← Run.shell
  let mut status := 0
  for process in processes do
    if process.head? = some '%' then Run.fail s!"No such job: {String.ofList process}"
    match number? process with
    | none => illegalNumber process
    | some number =>
      if number = shell.process then
        if let some signal := signal then
          if (shell.traps.lookup signal.name).isSome && signal.name ≠ "KILL" then
            Run.modifyShell fun shell => { shell with pending := shell.pending ++ [signal.name] }
          else throw (.exit signal.status)
      else if (shell.background.lookup number).isNone then
        Run.complain "No such process\n"
        status := 1
  pure status

/-- Lists the names of all signals, or the name of the one that a status tells of. -/
def listSignals (words : List Text) : Run Nat := do
  match words with
  | [] =>
    for name in Signal.listing do
      Run.print (name.toList ++ ['\n'])
  | word :: _ =>
    let some number := number? word | illegalNumber word
    let number := if 128 < number then number - 128 else number
    match if number = 0 then none else Signal.listing[number]? with
    | some name => Run.print (name.toList ++ ['\n'])
    | none => Run.fail s!"invalid signal number or exit status: {String.ofList word}"
  pure 0

def kill : Builtin := fun arguments => do
  let sendNamed (word : Text) (complaint : String) (processes : List Text) : Run Nat := do
    match if word = ['0'] then some none else (Signal.ofWord? word).map some with
    | some signal => if processes.isEmpty then refuse killUsage else send signal processes
    | none => refuse complaint
  match arguments with
  | [] => refuse killUsage
  | ['-', 's'] :: word :: processes =>
    sendNamed word s!"invalid signal number or name: {String.ofList word}" processes
  | ['-', 'l'] :: words => listSignals words
  | ['-', '-'] :: processes => sendNamed "TERM".toList "" processes
  | ('-' :: word) :: processes =>
    sendNamed word s!"Illegal option -{String.ofList (word.take 1)}" processes
  | processes => sendNamed "TERM".toList "" processes

def trap : Builtin := fun arguments => do
  let put (conditions : List Text) (action : Option Text) : Run Nat := do
    for word in conditions do
      match Signal.condition? word with
      | none =>
        let line := s!"trap: {String.ofList word}: bad trap\n"
        let _ ← Run.writeTo standardError (Utf8.encode line.toList)
        return 1
      | some name =>
        Run.modifyShell fun shell =>
          let others := shell.traps.filter fun item => item.1 ≠ name
          { shell with
            traps :=
              match action with
              | some action => others ++ [(name, action)]
              | none => others }
    pure 0
  match arguments with
  | [] =>
    for (name, action) in (← Run.shell).traps do
      Run.print (s!"trap -- {String.ofList (written action)} {name}\n".toList)
    pure 0
  | ['-', '-'] :: action :: conditions => put conditions (some action)
  | ['-'] :: conditions => put conditions none
  | [only] => put [only] none
  | action :: conditions =>
    if (number? action).isSome then put (action :: conditions) none
    else put conditions (some action)

/-- The status of what ran in the background. All of it has ended before the next command. -/
def wait : Builtin := fun arguments => do
  let mut status := 0
  for word in arguments do
    if word.head? = some '%' then Run.fail s!"No such job: {String.ofList word}"
    match number? word with
    | none => illegalNumber word
    | some number => status := ((← Run.shell).background.lookup number).getD 127
  pure status

/-! ## Permissions of new files -/

def octal? (word : Text) : Option Nat :=
  if word.all fun c => c.isDigit && c < '8' then
    some (word.foldl (fun value c => value * 8 + (c.toNat - '0'.toNat)) 0)
  else none

def octalDigits (value : Nat) : Text :=
  let digits := Nat.toDigits 8 value
  List.replicate (4 - digits.length) '0' ++ digits

/-- The permissions that a mask leaves, by the letters of those who have them. -/
def permissionText (mask : Nat) : Text :=
  let granted (who : Char) (shift : Nat) : Text :=
    let withheld := (mask >>> shift) % 8
    who :: '=' :: [(4, 'r'), (2, 'w'), (1, 'x')].filterMap fun (bit, letter) =>
      if withheld &&& bit = 0 then some letter else none
  [','].intercalate [granted 'u' 6, granted 'g' 3, granted 'o' 0]

def withhold : Builtin := fun arguments => do
  let (letters, words) ← readLetters ['S'] arguments
  match words with
  | [] =>
    let mask := (← Run.shell).mask
    let shown := if letters.isEmpty then octalDigits mask else permissionText mask
    Run.print (shown ++ ['\n'])
  | word :: _ =>
    match octal? word with
    | some mask => Run.modifyShell fun shell => { shell with mask }
    | none =>
      if word.head?.any Char.isDigit then illegalNumber word
      else Run.fail s!"Illegal mode: {String.ofList word}"
  pure 0

/-! ## Names -/

def special : List (String × Builtin) :=
  [(":", fun _ => pure 0), ("break", leaveLoops .leave), ("continue", leaveLoops .resume),
    ("return", goBack), ("exit", exit), ("set", set), ("shift", shift), ("unset", unset),
    ("trap", trap), ("local", localize), ("times", fun _ => do Run.print timesText; pure 0),
    ("export", mark "export" Variable.exported fun held => { held with exported := true }),
    ("readonly", mark "readonly" Variable.readOnly fun held => { held with readOnly := true })]
where
  /-- Running a script takes no time to speak of. -/
  timesText : Text :=
    let line := "0m0.000000s 0m0.000000s\n".toList
    line ++ line

def ordinary : List (String × Builtin) :=
  [("true", fun _ => pure 0), ("false", fun _ => pure 1), ("echo", echo), ("printf", printf),
    ("test", test false), ("[", test true), ("cd", changePlace), ("pwd", place), ("read", read),
    ("kill", kill), ("getopts", nextOption), ("umask", withhold), ("wait", wait),
    ("jobs", fun _ => pure 0), ("hash", fun _ => pure 0), ("alias", fun _ => pure 0),
    ("unalias", fun _ => pure 0), ("ulimit", fun _ => pure 0)]

/-- The commands that run other commands. -/
def running : List String :=
  ["eval", ".", "exec", "command", "type"]

def isSpecial (name : String) : Bool :=
  (special.lookup name).isSome || ["eval", ".", "exec"].contains name

def isKnown (name : String) : Bool :=
  isSpecial name || (ordinary.lookup name).isSome || running.contains name

end Builtin

end ImageStaging.Host
