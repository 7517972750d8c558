import ImageStaging.Host.Utility.Basic

/-!
# Programs that change files and directories
-/

namespace ImageStaging.Host.Utility

open FileSystem (makeDirectory removeDirectory removeFile rename)

/-- Does an edit; a fault is told. -/
def attempt (process : Process) (message : String) (action : Action FileFault Unit) : Task Nat := do
  match ← Task.act action with
  | .ok () => pure 0
  | .error fault => process.failWith message fault

/-- Tells what was done, if that is asked for, and passes the status on. -/
def thenTell (process : Process) (asked : Bool) (line : String) (done : Task Nat) : Task Nat := do
  let status ← done
  if asked && status = 0 then process.printText (line ++ "\n").toList
  pure status

/-! ## Making and removing -/

/-- The directories that have to be made so that a path is one, the outermost first. -/
def missingDirectories (files : FileSystem) (path : Path) : List Path :=
  let ends := (List.range path.bytes.length).filter fun place =>
    path.bytes[place]? ≠ some Path.slash &&
      (path.bytes[place + 1]? = some Path.slash || place + 1 = path.bytes.length)
  (ends.map fun place => (⟨path.bytes.take (place + 1)⟩ : Path)).filter fun front =>
    !files.isDirectory front

def makeDirectoryOptions : OptionTable where
  letters := ['p', 'v', 'Z']
  valued := ['m']
  long := [("parents", 'p'), ("verbose", 'v')]

def makeDirectories : Utility :=
  .withOptions makeDirectoryOptions 1 fun process options => do
    if options.operands.isEmpty then return (← process.missingOperand)
    let name := String.ofList process.name
    let makeOne (path : Path) : Task Nat :=
      let shown := quoted path.display.toList
      thenTell process (options.has 'v') s!"{name}: created directory {shown}"
        (attempt process s!"cannot create directory {shown}" (Action.edit (makeDirectory path)))
    let makeAll : List Path → Task Nat
      | [] => pure 0
      | front :: rest => do
        let shown := quoted front.display.toList
        match (← Task.files).examine front, rest with
        | .ok _, _ :: _ => process.failWith s!"cannot create directory {shown}" .notADirectory
        | _, _ =>
          (front :: rest).foldlM (fun status path =>
            if status = 0 then makeOne path else pure status) 0
    Process.overEach (fun operand => do
      let path := Path.ofText operand
      if options.has 'p' then makeAll (missingDirectories (← Task.files) path)
      else makeOne path) options.operands

def removeDirectories : Utility :=
  .withOptions ⟨['p', 'v'], [], [("verbose", 'v')]⟩ 1 fun process options => do
    if options.operands.isEmpty then return (← process.missingOperand)
    let name := String.ofList process.name
    Process.overEach (fun operand => do
      if options.has 'v' then
        process.printText s!"{name}: removing directory, {quoted operand}\n".toList
      attempt process s!"failed to remove {quoted operand}"
        (Action.edit (removeDirectory (Path.ofText operand)))) options.operands

/-- A path that ends in a step that stays or goes up. -/
def endsInStep (path : Path) : Bool :=
  match (path.pieces.filter (· ≠ [])).getLast? with
  | some name => name = [Path.dot] || name = [Path.dot, Path.dot]
  | none => false

def removeOptions : OptionTable where
  letters := ['d', 'f', 'i', 'r', 'v', 'I', 'R']
  long := [("dir", 'd'), ("force", 'f'), ("recursive", 'r'), ("verbose", 'v')]

def remove : Utility :=
  .withOptions removeOptions 1 fun process options => do
    let force := options.has 'f'
    let deep := options.has 'r' || options.has 'R'
    let name := String.ofList process.name
    if options.operands.isEmpty && !force then return (← process.missingOperand)
    Process.overEach (fun operand => do
      let path := Path.ofText operand
      let message := s!"cannot remove {quoted operand}"
      match (← Task.files).examineLink path with
      | .ok .directory =>
        let tell := thenTell process (options.has 'v') s!"removed directory {quoted operand}"
        if deep && endsInStep path then
          process.complain <| s!"{name}: refusing to remove '.' or '..' directory: " ++
            s!"skipping {quoted operand}"
          pure 1
        else if deep && operand.all (· = '/') then
          process.complain <| s!"{name}: it is dangerous to operate recursively on '/'\n" ++
            s!"{name}: use --no-preserve-root to override this failsafe"
          pure 1
        else if deep then tell (attempt process message (Files.removeTree path))
        else if options.has 'd' then
          tell (attempt process message (Action.edit (removeDirectory path)))
        else process.failWith message .isADirectory
      | .error .notFound => if force then pure 0 else process.failWith message .notFound
      | .error .notADirectory => if force then pure 0 else process.failWith message .notADirectory
      | _ =>
        thenTell process (options.has 'v') s!"removed {quoted operand}"
          (attempt process message (Action.edit (removeFile path)))) options.operands

def touchOptions : OptionTable where
  letters := ['a', 'c', 'f', 'h', 'm']
  valued := ['d', 'r', 't']
  long := [("no-create", 'c')]

def touch : Utility :=
  .withOptions touchOptions 1 fun process options => do
    match options.value? 't' with
    | some text =>
      unless text.all fun c => c.isDigit || c = '.' do
        process.complain s!"{String.ofList process.name}: invalid date format {quoted text}"
        return 1
    | none => pure ()
    if options.operands.isEmpty then return (← process.refuse "missing file operand")
    Process.overEach (fun operand =>
      let path := Path.ofText operand
      attempt process s!"cannot touch {quoted operand}" do
        match (← get).files.examine path with
        | .ok _ => pure ()
        | .error .notFound =>
          unless options.has 'c' do
            let (location, entry) ← Action.look (·.writable path)
            if entry.isNone then Action.change (.place location (.file [] false))
        | .error fault => throw fault) options.operands

/-! ## Copying and moving -/

/-- The path that an operand gets in a target that may be a directory. -/
def destination (files : FileSystem) (target : Text) (operand : Text) : Path :=
  let path := Path.ofText target
  if files.isDirectory path then
    match ((Path.ofText operand).pieces.filter (· ≠ [])).getLast? with
    | some name => path.join ⟨name⟩
    | none => path
  else path

/-- The target of a program that brings operands to a place, and the operands. -/
def targetOf (process : Process) (options : Options) : Task (Option (Text × List Text)) := do
  let name := String.ofList process.name
  match options.value? 't', options.operands.reverse with
  | some target, operand :: operands => pure (some (target, (operand :: operands).reverse))
  | _, [] =>
    let _ ← process.refuse "missing file operand"
    pure none
  | none, [only] =>
    let _ ← process.refuse s!"missing destination file operand after {quoted only}"
    pure none
  | none, target :: operands =>
    match (← Task.files).examine (Path.ofText target), operands with
    | .ok .directory, _ | _, [_] => pure (some (target, operands.reverse))
    | .error fault, _ =>
      process.complain s!"{name}: target {quoted target}: {faultName fault}"
      pure none
    | .ok _, _ =>
      process.complain s!"{name}: target {quoted target}: {faultName .notADirectory}"
      pure none

/-- The places that two paths lead to, if both lead to one. -/
def placesOf (files : FileSystem) (first second : Path) : Option (Location × Location) :=
  match files.locate .target first, files.locate .target second with
  | .ok one, .ok other => some (one, other)
  | _, _ => none

/-- A path leads to a place inside a directory, or to the directory itself, whether there is
something or not. -/
def leadsInto (files : FileSystem) (directory path : Path) : Bool :=
  match files.locate .target directory, files.resolve .target path with
  | .ok outer, .ok (.present inner) => outer.isPrefixOf inner
  | .ok outer, .ok (.absent parent _) => outer.isPrefixOf parent
  | _, _ => false

/-- Copies an entry, a directory with all that is in it; links are kept if `links`. -/
def copyEntry (links : Bool) : Nat → Path → Path → Action FileFault Unit
  | 0, _, _ => throw .nameTooLong
  | depth + 1, source, target => do
    let entry ← Action.look fun files =>
      if links then files.examineLink source else files.examine source
    match entry with
    | .directory =>
      unless (← get).files.isDirectory target do Action.edit (makeDirectory target)
      let names ← Action.look (·.list source)
      for name in names.mergeSort Name.le do
        copyEntry links depth (source.join name.toPath) (target.join name.toPath)
    | .link leadsTo =>
      match ← Action.look (·.lastStep target) with
      | .named directory name => Action.change (.place (directory ++ [name]) (.link leadsTo))
      | _ => throw .alreadyExists
    | _ => Files.copy source target

/-- Something on the way of a path is no directory. -/
def isBlocked (files : FileSystem) (path : Path) : Bool :=
  match files.examineLink path with
  | .error .notADirectory => true
  | _ => false

def copyOptions : OptionTable where
  letters := "abdfilnprsuvxHLPRTZ".toList
  valued := ['t', 'S']
  long := [("archive", 'a'), ("recursive", 'r'), ("verbose", 'v'), ("force", 'f')]

def copy : Utility :=
  .withOptions copyOptions 1 fun process options => do
    let some (target, operands) ← targetOf process options | return 1
    let deep := ['r', 'R', 'a'].any options.has
    let links := ['r', 'R', 'a', 'd', 'P'].any options.has && !options.has 'L'
    let name := String.ofList process.name
    let refuse (message : String) : Task Nat := do
      process.complain s!"{name}: {message}"
      pure 1
    Process.overEach (fun operand => do
      let files ← Task.files
      let source := Path.ofText operand
      let path := destination files target operand
      let shown := quoted path.display.toList
      let tell := thenTell process (options.has 'v') s!"{quoted operand} -> {shown}"
      let isSame := (placesOf files source path).any fun (one, other) => one = other
      match files.examine source with
      | .error fault => process.failWith s!"cannot stat {quoted operand}" fault
      | .ok .directory =>
        if !deep then refuse s!"-r not specified; omitting directory {quoted operand}"
        else if leadsInto files source path then
          refuse s!"cannot copy a directory, {quoted operand}, into itself, {shown}"
        else
          match files.examine path with
          | .ok .directory | .error _ =>
            tell (attempt process s!"cannot create directory {shown}"
              (copyEntry links FileSystem.pathLimit source path))
          | .ok _ =>
            refuse s!"cannot overwrite non-directory {shown} with directory {quoted operand}"
      | .ok _ =>
        if isSame then refuse s!"{quoted operand} and {shown} are the same file"
        else if isBlocked files path then
          process.failWith s!"cannot stat {shown}" .notADirectory
        else
          tell (attempt process s!"cannot create regular file {shown}"
            (copyEntry links 1 source path))) operands

/-- Moves an entry, a directory with all that is in it. -/
def moveEntry (source target : Path) : Action FileFault Unit := do
  match ← Action.look (·.examineLink source) with
  | .directory =>
    copyEntry true FileSystem.pathLimit source target
    Files.removeTree source
  | _ => Action.edit (rename source target)

def moveOptions : OptionTable where
  letters := ['b', 'f', 'i', 'n', 'u', 'v', 'T', 'Z']
  valued := ['t', 'S']
  long := [("verbose", 'v'), ("force", 'f')]

def move : Utility :=
  .withOptions moveOptions 1 fun process options => do
    let some (target, operands) ← targetOf process options | return 1
    let name := String.ofList process.name
    let refuse (message : String) : Task Nat := do
      process.complain s!"{name}: {message}"
      pure 1
    Process.overEach (fun operand => do
      let files ← Task.files
      let source := Path.ofText operand
      let path := destination files target operand
      let shown := quoted path.display.toList
      let move : Task Nat :=
        thenTell process (options.has 'v') s!"renamed {quoted operand} -> {shown}"
          (attempt process s!"cannot move {quoted operand} to {shown}" (moveEntry source path))
      match files.examineLink source, files.examineLink path with
      | .error fault, _ => process.failWith s!"cannot stat {quoted operand}" fault
      | .ok .directory, standing =>
        if leadsInto files source path then
          refuse s!"cannot move {quoted operand} to a subdirectory of itself, {shown}"
        else
          match standing with
          | .ok .directory =>
            if (files.list path).toOption = some [] then move
            else refuse s!"cannot overwrite {shown}: Directory not empty"
          | .ok _ =>
            refuse s!"cannot overwrite non-directory {shown} with directory {quoted operand}"
          | .error _ => move
      | .ok _, .ok .directory =>
        refuse s!"cannot overwrite directory {shown} with non-directory"
      | .ok _, _ =>
        if (placesOf files source path).any (fun (one, other) => one = other) then
          refuse s!"{quoted operand} and {shown} are the same file"
        else move) operands

/-- Puts a link or a second copy of a file where nothing stands. -/
def placeNew (path : Path) (entry : Entry) : Action FileFault Unit := do
  match ← Action.look (·.lastStep path) with
  | .named directory name =>
    let location := directory ++ [name]
    if ((← get).files.get? location).isSome then throw .alreadyExists
    Action.change (.place location entry)
  | _ => throw .alreadyExists

def linkOptions : OptionTable where
  letters := ['b', 'd', 'f', 'i', 'n', 'r', 's', 'v', 'F', 'L', 'P', 'T']
  valued := ['t', 'S']
  long := [("symbolic", 's'), ("force", 'f'), ("verbose", 'v')]

def link : Utility :=
  .withOptions linkOptions 1 fun process options => do
    let found ←
      match options.operands with
      | [only] => pure (some ((options.value? 't').getD ['.'], [only]))
      | _ => targetOf process options
    let some (target, operands) := found | return 1
    let symbolic := options.has 's'
    let kind := if symbolic then "symbolic" else "hard"
    Process.overEach (fun operand => do
      let files ← Task.files
      let path := destination files target operand
      let made := make process options operand path
        s!"failed to create {kind} link {quoted path.display.toList}"
      if symbolic then made
      else
        match files.examineLink (Path.ofText operand) with
        | .error fault => process.failWith s!"failed to access {quoted operand}" fault
        | .ok .directory =>
          process.complain <| s!"{String.ofList process.name}: {String.ofList operand}: " ++
            "hard link not allowed for directory"
          pure 1
        | .ok _ => made) operands
where
  make (process : Process) (options : Options) (operand : Text) (path : Path) (message : String) :
      Task Nat :=
    let arrow := if options.has 's' then "->" else "=>"
    thenTell process (options.has 'v')
      s!"{quoted path.display.toList} {arrow} {quoted operand}"
      (attempt process message do
        if options.has 'f' then
          let _ ← Action.attempt (δ := FileFault) (Action.edit (removeFile path))
        let entry ←
          if options.has 's' then pure (.link (Path.ofText operand))
          else Action.look (·.examineLink (Path.ofText operand))
        placeNew path entry)

/-! ## Modes -/

/-- One clause of a mode: for whom, and what to do with which rights. -/
def isModeClause (clause : Text) : Bool :=
  let rest := clause.dropWhile fun c => ['u', 'g', 'o', 'a'].contains c
  match rest with
  | sign :: rights =>
    ['+', '-', '='].contains sign &&
      rights.all fun c => ['r', 'w', 'x', 'X', 's', 't', 'u', 'g', 'o', '+', '-', '='].contains c
  | [] => false

def isMode (mode : Text) : Bool :=
  mode ≠ [] && (mode.all (fun c => c.isDigit && c < '8') || (Text.fields ',' mode).all isModeClause)

/-- What a mode makes of the right of the owner to execute a file, if it says anything about it. -/
def executableAfter? (mode : Text) : Option Bool :=
  if mode.all Char.isDigit then some ((mode.reverse[2]?).any fun owner => owner.toNat % 2 = 1)
  else
    (Text.fields ',' mode).foldl (fun before clause =>
      let who := clause.takeWhile fun c => ['u', 'g', 'o', 'a'].contains c
      let rest := clause.drop who.length
      let forOwner := who = [] || who.contains 'u' || who.contains 'a'
      if !forOwner then before
      else
        match rest with
        | '=' :: rights => some (rights.contains 'x')
        | '+' :: rights => if rights.contains 'x' then some true else before
        | '-' :: rights => if rights.contains 'x' then some false else before
        | _ => before) none

def changeModeOptions : OptionTable where
  letters := ['c', 'f', 'v', 'R']
  long := [("recursive", 'R')]

/-- A mode that takes rights away begins with a dash as options do. -/
def changeMode : Utility := fun process =>
  let isRemoval (word : Text) : Bool :=
    word.head? = some '-' && 1 < word.length &&
      (word.drop 1).all fun c => ['r', 'w', 'x', 'X', 's', 't'].contains c
  let mode? := process.arguments.find? isRemoval
  let rest := { process with words := process.words.filter fun word => some word ≠ mode? }
  Utility.withOptions changeModeOptions 1 (fun process options =>
    match mode?.toList ++ options.operands with
    | [] => process.missingOperand
    | [only] => process.refuse s!"missing operand after {quoted only}"
    | mode :: operands =>
      if !isMode mode then process.refuse s!"invalid mode: {quoted mode}"
      else
        Process.overEach (fun operand =>
          attempt process s!"cannot access {quoted operand}" do
            let location ← Action.look (·.locate .target (Path.ofText operand))
            match (← get).files.get? location, executableAfter? mode with
            | some (.file content _), some executable =>
              Action.change (.place location (.file content executable))
            | _, _ => pure ()) operands) rest

def readLink : Utility :=
  .withOptions ⟨['e', 'f', 'm', 'n', 'q', 's', 'v', 'z'], [], []⟩ 1 fun process options => do
  if options.operands.isEmpty then return (← process.missingOperand)
  Process.overEach (fun operand => do
    let files ← Task.files
    let path := Path.ofText operand
    if options.has 'f' || options.has 'e' then
      match files.resolve .target path with
      | .ok (.present location) =>
        process.print (0x2F :: [0x2F].intercalate (location.map Name.bytes) ++ [0x0A])
        pure 0
      | .ok (.absent directory name) =>
        let location := directory ++ [name]
        process.print (0x2F :: [0x2F].intercalate (location.map Name.bytes) ++ [0x0A])
        pure 0
      | .error _ => pure 1
    else
      match files.examineLink path with
      | .ok (.link target) =>
        process.print (target.bytes ++ [0x0A])
        pure 0
      | _ => pure 1) options.operands

end ImageStaging.Host.Utility
