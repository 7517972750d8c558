import ImageStaging.Host.Shell.Builtin

/-!
# Running scripts

A command is run for its status and for what it does to the shell and the machine. `tested` says
that something around a command looks at its status, and then a failure does not end the shell.
Commands and substitutions are in each other, so the functions below run both; `fuel` bounds how
deep they go and how often loops go round.
-/

namespace ImageStaging.Host

open Script (Part Word Redirection Command)

namespace Run

/-- The streams of a process as the arguments of a launch see them. -/
def processOf (words : List Text) (more : List (Text × Text)) : Run Process := do
  let held ← environment
  let kept := held.filter fun item => !(more.any fun other => other.1 = item.1)
  pure ⟨words, (← shell).handles, kept ++ more⟩

/-- Runs a part of a script that has to leave the shell as it is, and returns its status. A signal
to the process ends the shell too. -/
def inSubshell (part : Run Unit) (atEnd : Run Unit) : Run Unit := do
  let outside ← shell
  let location := (← files).workingDirectory
  modifyShell fun shell => { shell with traps := [], loops := 0 }
  let run : Run Unit := do
    try part
    catch interrupt =>
      match interrupt with
      | .exit (.signal _ _) => throw interrupt
      | .exit (.code code) => setStatus code
      | _ => pure ()
    atEnd
  try run
  catch interrupt =>
    match interrupt with
    | .exit (.signal _ _) => throw interrupt
    | .exit (.code code) => setStatus code
    | _ => pure ()
  let status := (← shell).status
  let pending := (← shell).pending
  modifyShell fun _ => { outside with status, pending }
  task (Task.moveTo location)

/-- Runs with other handles. -/
def withHandles {α : Type} (handles : Handles) (part : Run α) : Run α := do
  let outside := (← shell).handles
  modifyShell fun shell => { shell with handles }
  let restore : Run Unit := modifyShell fun shell => { shell with handles := outside }
  try
    let result ← part
    restore
    pure result
  catch interrupt =>
    restore
    throw interrupt

/-- One round of a loop, and whether another may follow. -/
def inLoop (round : Run Bool) : Run Bool := do
  modifyShell fun shell => { shell with loops := shell.loops + 1 }
  let leave : Run Unit := modifyShell fun shell => { shell with loops := shell.loops - 1 }
  try
    let goesOn ← round
    leave
    pure goesOn
  catch interrupt =>
    leave
    match interrupt with
    | .leave (count + 2) => throw (.leave (count + 1))
    | .leave _ => pure false
    | .resume (count + 2) => throw (.resume (count + 1))
    | .resume _ => pure true
    | _ => throw interrupt

/-- Runs the body of a function with its own arguments and local variables. -/
def inFunction (arguments : List Text) (body : Run Unit) : Run Unit := do
  let outside ← shell
  modifyShell fun shell =>
    { shell with arguments, loops := 0, scopes := [] :: shell.scopes }
  let restore : Run Unit := do
    let scope := (← shell).scopes.headD []
    for (name, held) in scope do putVariable name held
    modifyShell fun shell =>
      { shell with
        arguments := outside.arguments
        loops := outside.loops
        scopes := outside.scopes }
  try
    body
    restore
  catch interrupt =>
    restore
    match interrupt with
    | .back => pure ()
    | _ => throw interrupt

/-- Ends the shell if a command failed and nothing looks at its status. -/
def checkFailure (tested : Bool) : Run Unit := do
  let status := (← shell).status
  if !tested && status ≠ 0 && (← isOn "errexit") then throw (.exit (.code status))

/-- Runs a command of the shell. What is wrong with one that is not special only fails. -/
def runBuiltin (name : String) (special : Bool) (part : Run Nat) : Run Unit := do
  modifyShell fun shell => { shell with lostOutput := false }
  let status ←
    try calledBy (some name) part
    catch interrupt =>
      match interrupt with
      | .fault => if special then throw .fault else pure 2
      | _ => throw interrupt
  if (← shell).lostOutput then
    calledBy (some name) (complain s!"{name}: I/O error")
    setStatus (status ||| 1)
  else setStatus status

/-- What a file that cannot be opened is called to be. -/
def openFault (reading : Bool) (fault : FileFault) : String :=
  match fault with
  | .notFound | .notADirectory => if reading then "No such file" else "Directory nonexistent"
  | _ => faultName fault

/-- The handles after a redirection, whose target is known. -/
def redirectTo (handles : Handles) (handle : Nat) (direction : Script.Direction) (target : Text) :
    Run (Option Handles) := do
  let put (index : Nat) : Handles := (handle, index) :: handles.filter fun item => item.1 ≠ handle
  let openAs (opening : Task.Opening) : Run (Option Handles) := do
    match ← task (Task.openPath handles target opening) with
    | .ok index => pure (some (put index))
    | .error fault =>
      let reading := opening = .reading
      let verb := if reading then "open" else "create"
      complain s!"cannot {verb} {String.ofList target}: {openFault reading fault}"
      pure none
  match direction with
  | .read => openAs .reading
  | .write false => do
    match (← isOn "noclobber"), (← files).examine (Path.ofText target) with
    | true, .ok (.file _ _) =>
      complain s!"cannot create {String.ofList target}: File exists"
      pure none
    | _, _ => openAs (.writing false)
  | .write true => openAs (.writing true)
  | .overwrite => openAs (.writing false)
  | .both => openAs .both
  | .here => do pure (some (put (← task (Task.newStream (.buffer (Utf8.encode target))))))
  | .duplicate =>
    if target = ['-'] then pure (some (handles.filter fun item => item.1 ≠ handle))
    else
      match Builtin.number? target with
      | none => fail "Syntax error: Bad fd number"
      | some source =>
        match handles.lookup source with
        | some index => pure (some (put index))
        | none =>
          complain s!"{source}: Bad file descriptor"
          pure none

/-- The status of a program that has ended. A signal that ended it is told. -/
def statusOf (status : ExitStatus) : Run Nat := do
  match status with
  | .code code => pure code
  | .signal number _ =>
    let description := Signal.describe number
    if description ≠ "" then
      let _ ← writeTo standardError (Utf8.encode (description ++ "\n").toList)
    pure (128 + number)

/-- Runs a program that is no command of the shell. -/
def external (launcher : Launcher) (command : Text) (arguments : List Text)
    (more : List (Text × Text)) : Run Nat := do
  let path := ((more.lookup "PATH".toList).or (← value? "PATH".toList)).getD []
  let name := String.ofList command
  let start (launch : Launch) : Run Nat := do
    let process ← processOf launch.words more
    statusOf (← task (Task.inPlace (launcher launch.program process)))
  match Launch.ofCommand (← files) path command arguments with
  | .ok launch => start launch
  | .error .notExecutableFormat => start ⟨.shell, ['s', 'h'] :: command :: arguments⟩
  | .error .notFound | .error .notADirectory =>
    complain s!"{name}: not found"
    pure 127
  | .error fault =>
    complain s!"{name}: {faultName fault}"
    pure 126

/-- What a name means to the shell, as `type` and `command` tell it. -/
def meaning? (name : Text) (long : Bool) : Run (Option String) := do
  let text := String.ofList name
  let told (kind : String) : String := if long then s!"{text} is {kind}" else text
  if (Script.openers ++ Script.closers ++ ["in"]).contains text then
    return some (told "a shell keyword")
  if ((← shell).functions.lookup name).isSome then
    return some (told "a shell function")
  if Builtin.isSpecial text then return some (told "a special shell builtin")
  if Builtin.isKnown text then return some (told "a shell builtin")
  let files ← files
  if name.contains '/' then
    match Launch.ofPath files name [] with
    | .ok _ => return some (if long then s!"{text} is {text}" else text)
    | .error _ => return none
  let found := (Text.fields ':' ((← value? "PATH".toList).getD [])).find? fun directory =>
    match Launch.ofPath files (directory ++ '/' :: name) [] with
    | .ok _ => true
    | .error _ => false
  pure <| found.map fun directory =>
    let path := s!"{String.ofList directory}/{text}"
    if long then s!"{text} is {path}" else path

def tellMeanings (long : Bool) (names : List Text) : Run Nat := do
  let mut status := 0
  for name in names do
    match ← meaning? name long with
    | some meaning => print (meaning ++ "\n").toList
    | none =>
      if long then print s!"{String.ofList name}: not found\n".toList
      status := 127
  pure status

/-- Shows a command that is about to run. -/
def trace (assignments : List (Text × Text)) (words : List Text) : Run Unit := do
  if ← isOn "xtrace" then
    let shown := assignments.map (fun (name, value) => name ++ '=' :: value) ++ words
    let line := '+' :: ' ' :: [' '].intercalate shown ++ ['\n']
    let _ ← writeTo standardError (Utf8.encode line)

mutual

def execute (launcher : Launcher) : Nat → Bool → Command → Run Unit
  | 0, _, _ => fail "nesting is too deep"
  | fuel + 1, tested, command => do
    if ← isOn "noexec" then return
    match command with
    | .simple line assignments words redirections =>
      modifyShell fun shell => { shell with line }
      simple launcher fuel tested assignments words redirections
      runTraps launcher fuel
      checkFailure tested
    | .pipeline negated stages =>
      match stages with
      | [stage] => execute launcher fuel (tested || negated) stage
      | _ =>
        pipeline launcher fuel none stages
        checkFailure (tested || negated)
      if negated then
        modifyShell fun shell => { shell with status := if shell.status = 0 then 1 else 0 }
    | .chain first onSuccess second =>
      execute launcher fuel true first
      if ((← shell).status = 0) = onSuccess then execute launcher fuel tested second
    | .background inner =>
      let index ← task (Task.newStream .nowhere)
      let handles := (← shell).handles
      withHandles ((standardInput, index) :: handles.filter fun item => item.1 ≠ standardInput)
        (inSubshell (execute launcher fuel true inner) (runExitTrap launcher fuel))
      modifyShell fun shell =>
        let number := 100 * shell.process + shell.background.length + 1
        { shell with status := 0, background := (number, shell.status) :: shell.background }
    | .group commands => executeAll launcher fuel tested commands
    | .subshell commands =>
      inSubshell (executeAll launcher fuel tested commands) (runExitTrap launcher fuel)
      checkFailure tested
    | .conditional condition body otherwise =>
      executeAll launcher fuel true condition
      if (← shell).status = 0 then executeAll launcher fuel tested body
      else
        setStatus 0
        executeAll launcher fuel tested otherwise
    | .loop negated condition body =>
      let last ← loop launcher fuel tested negated condition body 0
      setStatus last
    | .iteration line name words body =>
      modifyShell fun shell => { shell with line }
      let items ←
        match words with
        | some words => Expansion.fields (capture launcher fuel) fuel words
        | none => do pure (← shell).arguments
      setStatus 0
      iteration launcher fuel tested name body items
    | .selection line word branches =>
      modifyShell fun shell => { shell with line }
      let text ← Expansion.text (capture launcher fuel) fuel word
      setStatus 0
      selection launcher fuel tested text branches
    | .definition name body =>
      modifyShell fun shell =>
        { shell with functions := (name, body) :: shell.functions.filter (·.1 ≠ name) }
      setStatus 0
    | .redirected line inner redirections =>
      modifyShell fun shell => { shell with line }
      match ← redirect launcher fuel (← shell).handles redirections with
      | some handles => withHandles handles (execute launcher fuel tested inner)
      | none =>
        setStatus 2
        checkFailure tested

def executeAll (launcher : Launcher) : Nat → Bool → List Command → Run Unit
  | 0, _, _ => fail "nesting is too deep"
  | _, _, [] => pure ()
  | fuel + 1, tested, first :: rest => do
    execute launcher fuel tested first
    executeAll launcher fuel tested rest

/-- Goes round while the condition holds, and returns the status of the last round. -/
def loop (launcher : Launcher) :
    Nat → Bool → Bool → List Command → List Command → Nat → Run Nat
  | 0, _, _, _, _, _ => fail "nesting is too deep"
  | fuel + 1, tested, negated, condition, body, last => do
    let goesOn ← inLoop do
      executeAll launcher fuel true condition
      if ((← shell).status = 0) != negated then
        executeAll launcher fuel tested body
        pure true
      else
        setStatus last
        pure false
    let status := (← shell).status
    if goesOn then loop launcher fuel tested negated condition body status else pure status

def iteration (launcher : Launcher) : Nat → Bool → Text → List Command → List Text → Run Unit
  | 0, _, _, _, _ => fail "nesting is too deep"
  | _, _, _, _, [] => pure ()
  | fuel + 1, tested, name, body, item :: rest => do
    assign name item
    let goesOn ← inLoop do
      executeAll launcher fuel tested body
      pure true
    if goesOn then iteration launcher fuel tested name body rest

def selection (launcher : Launcher) :
    Nat → Bool → Text → List (List Word × List Command) → Run Unit
  | 0, _, _, _ => fail "nesting is too deep"
  | _, _, _, [] => pure ()
  | fuel + 1, tested, text, (patterns, body) :: rest => do
    if ← anyAccepts launcher fuel text patterns then executeAll launcher fuel tested body
    else selection launcher fuel tested text rest

def anyAccepts (launcher : Launcher) : Nat → Text → List Word → Run Bool
  | 0, _, _ => pure false
  | _, _, [] => pure false
  | fuel + 1, text, word :: rest => do
    let pattern ← Expansion.pattern (capture launcher fuel) fuel word
    if pattern.accepts text then pure true else anyAccepts launcher fuel text rest

/-- Runs the stages of a pipeline one after the other, each on what the one before it printed. -/
def pipeline (launcher : Launcher) : Nat → Option Nat → List Command → Run Unit
  | 0, _, _ => fail "nesting is too deep"
  | _, _, [] => pure ()
  | fuel + 1, input, stage :: rest => do
    let outside := (← shell).handles
    let handles :=
      match input with
      | some index => (standardInput, index) :: outside.filter fun item => item.1 ≠ standardInput
      | none => outside
    let run (handles : Handles) : Run Unit :=
      withHandles handles
        (inSubshell (execute launcher fuel false stage) (runExitTrap launcher fuel))
    match rest with
    | [] => run handles
    | _ =>
      let index ← task (Task.newStream (.buffer []))
      run ((standardOutput, index) :: handles.filter fun item => item.1 ≠ standardOutput)
      pipeline launcher fuel (some index) rest

/-- What the commands of a substitution print, without the line feeds at its end. -/
def capture (launcher : Launcher) : Nat → List Command → Run Text
  | 0, _ => fail "nesting is too deep"
  | fuel + 1, commands => do
    let index ← task (Task.newStream (.buffer []))
    let before := (← shell).status
    let handles := (← shell).handles
    if commands.isEmpty then setStatus 0
    withHandles ((standardOutput, index) :: handles.filter fun item => item.1 ≠ standardOutput)
      (inSubshell (executeAll launcher fuel false commands) (runExitTrap launcher fuel))
    modifyShell fun shell => { shell with status := before, substituted := some shell.status }
    let bytes ← task (Task.takeFrom index fun _ => false)
    pure (Text.dropEnd (· = '\n') (Utf8.decodeLossy bytes))

/-- The handles after some redirections, unless one of them fails. -/
def redirect (launcher : Launcher) : Nat → Handles → List Redirection → Run (Option Handles)
  | 0, _, _ => fail "nesting is too deep"
  | _, handles, [] => pure (some handles)
  | fuel + 1, handles, .redirect handle direction target :: rest => do
    let text ← Expansion.text (capture launcher fuel) fuel target
    match ← redirectTo handles handle direction text with
    | some next => redirect launcher fuel next rest
    | none => pure none

/-- Makes assignments, each with the ones before it made. -/
def makeAssignments (launcher : Launcher) :
    Nat → List (Text × Word) → Run (List (Text × Text))
  | 0, _ => fail "nesting is too deep"
  | _, [] => pure []
  | fuel + 1, (name, word) :: rest => do
    let value ← Expansion.text (capture launcher fuel) fuel word
    assign name value
    pure ((name, value) :: (← makeAssignments launcher fuel rest))

def simple (launcher : Launcher) :
    Nat → Bool → List (Text × Word) → List Word → List Redirection → Run Unit
  | 0, _, _, _, _ => fail "nesting is too deep"
  | fuel + 1, tested, assignments, words, redirections => do
    modifyShell fun shell => { shell with substituted := none }
    let fields ← Expansion.fields (capture launcher fuel) fuel words
    match fields with
    | [] =>
      match ← redirect launcher fuel (← shell).handles redirections with
      | none => setStatus 2
      | some _ =>
        let values ← makeAssignments launcher fuel assignments
        trace values []
        setStatus ((← shell).substituted.getD 0)
    | command :: arguments =>
      let special := Builtin.isSpecial (String.ofList command)
      match ← redirect launcher fuel (← shell).handles redirections with
      | none =>
        setStatus 2
        if special then throw .fault
      | some handles =>
        let outside ← assignments.mapM fun (name, _) => do pure (name, ← held? name)
        let values ← makeAssignments launcher fuel assignments
        trace values fields
        if String.ofList command = "exec" then
          replaceShell launcher fuel handles values arguments
        else
          withHandles handles (perform launcher fuel tested values command arguments)
          unless special do
            for (name, held) in outside.reverse do putVariable name held

/-- Keeps redirections for the rest of the shell, or ends it with a program in its place. -/
def replaceShell (launcher : Launcher) :
    Nat → Handles → List (Text × Text) → List Text → Run Unit
  | 0, _, _, _ => fail "nesting is too deep"
  | _ + 1, handles, values, arguments => do
    modifyShell fun shell => { shell with handles }
    match arguments with
    | [] => setStatus 0
    | command :: rest =>
      let status ← calledBy (some "exec") (external launcher command rest values)
      throw (.exit (.code status))

/-- Runs a command by its name: one of the shell, a function or a program. -/
def perform (launcher : Launcher) :
    Nat → Bool → List (Text × Text) → Text → List Text → Run Unit
  | 0, _, _, _, _ => fail "nesting is too deep"
  | fuel + 1, tested, values, command, arguments => do
    let name := String.ofList command
    match Builtin.special.lookup name, (← shell).functions.lookup command with
    | some builtin, _ => runBuiltin name true (builtin arguments)
    | none, some body => inFunction arguments (execute launcher fuel tested body)
    | none, none =>
      match Builtin.ordinary.lookup name with
      | some builtin => runBuiltin name false (builtin arguments)
      | none =>
        if Builtin.running.contains name then running launcher fuel tested name arguments
        else setStatus (← external launcher command arguments values)

/-- The commands of the shell that run other commands. -/
def running (launcher : Launcher) : Nat → Bool → String → List Text → Run Unit
  | 0, _, _, _ => fail "nesting is too deep"
  | fuel + 1, tested, name, arguments => do
    match name, arguments with
    | "eval", words =>
      setStatus 0
      calledBy (some "eval")
        (runLines launcher fuel tested false { rest := [' '].intercalate words })
    | ".", [] => setStatus 0
    | ".", path :: _ =>
      let shown := String.ofList path
      match (← files).read (Path.ofText path) with
      | .ok content =>
        if path.contains '/' then
          setStatus 0
          try
            calledBy (some shown)
              (runLines launcher fuel false true { rest := Utf8.decodeLossy content })
          catch interrupt =>
            match interrupt with
            | .back => pure ()
            | _ => throw interrupt
        else calledBy (some ".") (fail s!"{shown}: not found")
      | .error fault =>
        if !path.contains '/' then calledBy (some ".") (fail s!"{shown}: not found")
        else if fault = .isADirectory then setStatus 0
        else calledBy (some ".") (fail s!"cannot open {shown}: No such file")
    | "command", ['-', 'v'] :: names => setStatus (← tellMeanings false (names.take 1))
    | "command", ['-', 'V'] :: names => setStatus (← tellMeanings true (names.take 1))
    | "command", ['-', 'p'] :: command :: rest => plainly launcher fuel tested command rest
    | "command", ['-', '-'] :: command :: rest => plainly launcher fuel tested command rest
    | "command", command :: rest => plainly launcher fuel tested command rest
    | "type", names => runBuiltin "type" false (tellMeanings true names)
    | _, _ => setStatus 0

/-- Runs a command that is no function. -/
def plainly (launcher : Launcher) : Nat → Bool → Text → List Text → Run Unit
  | 0, _, _, _ => fail "nesting is too deep"
  | fuel + 1, tested, command, arguments => do
    let name := String.ofList command
    match (Builtin.special.lookup name).or (Builtin.ordinary.lookup name) with
    | some builtin => runBuiltin name false (builtin arguments)
    | none =>
      if Builtin.running.contains name then running launcher fuel tested name arguments
      else setStatus (← external launcher command arguments [])

/-- Runs the lines of a script, which are shown first if the script is a file. -/
def runLines (launcher : Launcher) : Nat → Bool → Bool → Script.Source → Run Unit
  | 0, _, _, _ => fail "nesting is too deep"
  | fuel + 1, tested, isFile, source => do
    match Script.nextLine source with
    | .error fault =>
      modifyShell fun shell => { shell with line := fault.line }
      fail fault.message
    | .ok none => pure ()
    | .ok (some (commands, rest)) =>
      if isFile && (← isOn "verbose") then
        let shown := source.rest.take (source.rest.length - rest.rest.length)
        let _ ← writeTo standardError (Utf8.encode shown)
      executeAll launcher fuel tested commands
      runLines launcher fuel tested isFile rest

/-- Does what was asked for the signals that came. -/
def runTraps (launcher : Launcher) : Nat → Run Unit
  | 0 => pure ()
  | fuel + 1 => do
    match (← shell).pending with
    | [] => pure ()
    | name :: rest =>
      modifyShell fun shell => { shell with pending := rest }
      let status := (← shell).status
      if let some action := (← shell).traps.lookup name then
        runLines launcher fuel true false { rest := action }
      setStatus status
      runTraps launcher fuel

/-- Does what was asked for the end of the shell. -/
def runExitTrap (launcher : Launcher) : Nat → Run Unit
  | 0 => pure ()
  | fuel + 1 => do
    if let some action := (← shell).traps.lookup "EXIT" then
      modifyShell fun shell =>
        { shell with traps := shell.traps.filter fun item => item.1 ≠ "EXIT" }
      let status := (← shell).status
      runLines launcher fuel true false { rest := action }
      setStatus status

end

end Run

end ImageStaging.Host
