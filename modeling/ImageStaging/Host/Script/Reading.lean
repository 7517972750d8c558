import ImageStaging.Host.Script.Basic

/-!
# Reading a shell script

A script is read one complete line of commands at a time, because what a line does can come before
a fault in the next. Commands and words are nested in each other by substitutions, so the functions
below read both; `fuel` bounds how deep they go and how long their lists are, and a multiple of the
length of the text is always enough.
-/

namespace ImageStaging.Host.Script

/-- What is left of a script, and the number of the line that the reading has come to. -/
structure Source where
  rest : Text
  line : Nat := 1
  /-- The lines of the documents that were taken out from behind this line. -/
  owedLines : Nat := 0

structure Fault where
  line : Nat
  message : String

abbrev Read := StateT Source (Except Fault)

def fail {α : Type} (message : String) : Read α := do
  throw ⟨(← get).line, s!"Syntax error: {message}"⟩

def peek : Read (Option Char) := do
  pure (← get).rest.head?

def peekAt (offset : Nat) : Read (Option Char) := do
  pure (← get).rest[offset]?

def startsWith (text : String) : Read Bool := do
  pure (text.toList.isPrefixOf (← get).rest)

def Source.drop (source : Source) (count : Nat) : Source :=
  let lines := ((source.rest.take count).filter (· = '\n')).length
  if lines = 0 then { source with rest := source.rest.drop count }
  else ⟨source.rest.drop count, source.line + lines + source.owedLines, 0⟩

def advance (count : Nat) : Read Unit :=
  modify (·.drop count)

def isOperator (c : Char) : Bool :=
  ['\n', ';', '&', '|', '<', '>', '(', ')'].contains c

/-- Ends a word that is not quoted. -/
def endsWord (c : Char) : Bool :=
  c = ' ' || c = '\t' || isOperator c

def blankLength : Text → Nat
  | '\\' :: '\n' :: rest => blankLength rest + 2
  | ' ' :: rest | '\t' :: rest => blankLength rest + 1
  | _ => 0

/-- Past blanks, and a comment if one follows. -/
def skipBlanks : Read Unit := do
  advance (blankLength (← get).rest)
  if (← peek) = some '#' then advance ((← get).rest.takeWhile (· ≠ '\n')).length

/-- Past blanks, comments and line breaks. -/
def skipLines : Nat → Read Unit
  | 0 => pure ()
  | fuel + 1 => do
    skipBlanks
    if (← peek) = some '\n' then
      advance 1
      skipLines fuel

def openers : List String :=
  ["if", "while", "until", "for", "case", "\x7B", "!"]

def closers : List String :=
  ["then", "else", "elif", "fi", "do", "done", "esac", "\x7D"]

/-- The reserved word that comes next, if one does. -/
def nextReserved : Read (Option String) := do
  let rest := (← get).rest
  let word := rest.takeWhile fun c => c.isAlpha || c = '\x7B' || c = '\x7D' || c = '!'
  let found := String.ofList word
  let isWhole := (rest.drop word.length).head?.all endsWord
  pure (if isWhole && (openers ++ closers ++ ["in"]).contains found then some found else none)

def operators : List String :=
  ["&&", "||", ";;", ";", "&", "|", "(", ")"]

/-- How a complaint calls what comes next. -/
def nextToken : Read String := do
  let rest := (← get).rest
  match rest.head? with
  | none => pure "end of file"
  | some '\n' => pure "newline"
  | some '<' | some '>' => pure "redirection"
  | _ =>
    match operators.find? fun operator => operator.toList.isPrefixOf rest with
    | some operator => pure s!"\"{operator}\""
    | none =>
      match ← nextReserved with
      | some word => if word = "in" then pure "word" else pure s!"\"{word}\""
      | none => pure "word"

/-- Says what comes next and should not. A line break counts to the line that it begins. -/
def unexpectedWith {α : Type} (hint : String) : Read α := do
  let token ← nextToken
  if (← peek) = some '\n' then advance 1
  fail s!"{token} unexpected{hint}"

def unexpected {α : Type} : Read α :=
  unexpectedWith ""

def unexpectedFor {α : Type} (expected : String) : Read α :=
  unexpectedWith s!" (expecting \"{expected}\")"

/-- Past a reserved word that has to come next. -/
def expectReserved (word : String) : Read Unit := do
  if (← nextReserved) = some word then advance word.length else unexpectedFor word

def expectOperator (operator : String) : Read Unit := do
  skipBlanks
  if ← startsWith operator then advance operator.length else unexpectedFor operator

/-- Nothing more belongs to a list of commands that comes to such a place. -/
def atListEnd : Read Bool := do
  match ← peek with
  | none | some ')' => pure true
  | _ =>
    if ← startsWith ";;" then pure true
    else
      match ← nextReserved with
      | some word => pure (closers.contains word)
      | none => pure false

/-- Where the parts of a word are read, which decides what is special there. -/
inductive Mode
  | bare
  | double
  | braces (quoted : Bool)
  | arithmetic (depth : Nat)
  | document
  deriving DecidableEq

namespace Mode

def isQuoted : Mode → Bool
  | .bare => false
  | .braces quoted => quoted
  | _ => true

/-- A backslash quotes the character after it. -/
def isEscapable (mode : Mode) (c : Char) : Bool :=
  match mode with
  | .bare | .braces false => true
  | .double | .arithmetic _ => ['$', '\x60', '\\', '\x22'].contains c
  | .braces true => ['$', '\x60', '\\', '\x22', '\x7D'].contains c
  | .document => ['$', '\x60', '\\'].contains c

def knowsApostrophe (mode : Mode) : Bool :=
  mode = .bare || mode = .braces false

def knowsDoubleQuote : Mode → Bool
  | .bare | .braces _ => true
  | _ => false

def isEnd (mode : Mode) (c : Char) (next : Option Char) : Bool :=
  match mode with
  | .bare => endsWord c
  | .double => c = '\x22'
  | .braces _ => c = '\x7D'
  | .arithmetic depth => depth = 0 && c = ')' && next = some ')'
  | .document => false

/-- The mode behind a parenthesis of an expression. -/
def behind (mode : Mode) (c : Char) : Mode :=
  match mode with
  | .arithmetic depth =>
    if c = '(' then .arithmetic (depth + 1)
    else if c = ')' then .arithmetic (depth - 1)
    else mode
  | _ => mode

end Mode

/-- Parts in reverse order, one more character at their end. -/
def push (parts : List Part) (c : Char) (quoted : Bool) : List Part :=
  match parts with
  | .literal text wasQuoted :: others =>
    if wasQuoted = quoted then .literal (text ++ [c]) quoted :: others
    else .literal [c] quoted :: parts
  | _ => .literal [c] quoted :: parts

/-- The parameter that a sign stands for. -/
def parameterOfSign? (c : Char) : Option Parameter :=
  match c with
  | '#' => some .count
  | '*' => some (.all false)
  | '@' => some (.all true)
  | '$' => some .process
  | '!' => some .background
  | '?' => some .status
  | '-' => some .flags
  | _ => if c.isDigit then some (.position (c.toNat - '0'.toNat)) else none

/-- The parameter that a text begins with, and how long its name is. -/
def parameterIn? (text : Text) : Option (Parameter × Nat) :=
  let name := text.takeWhile isNameCharacter
  if name.head?.any isNameStart then some (.named name, name.length)
  else
    let digits := text.takeWhile Char.isDigit
    if digits ≠ [] then
      some (.position (digits.foldl (fun value c => value * 10 + (c.toNat - '0'.toNat)) 0),
        digits.length)
    else (text.head?.bind parameterOfSign?).map fun parameter => (parameter, 1)

/-- The modifier that a text begins with, and how long it is. -/
def modifierIn? (text : Text) : Option (Modifier × Nat) :=
  match text with
  | ':' :: '-' :: _ => some (.default true, 2)
  | ':' :: '=' :: _ => some (.assign true, 2)
  | ':' :: '?' :: _ => some (.require true, 2)
  | ':' :: '+' :: _ => some (.alternative true, 2)
  | '-' :: _ => some (.default false, 1)
  | '=' :: _ => some (.assign false, 1)
  | '?' :: _ => some (.require false, 1)
  | '+' :: _ => some (.alternative false, 1)
  | '#' :: '#' :: _ => some (.cutStart true, 2)
  | '#' :: _ => some (.cutStart false, 1)
  | '%' :: '%' :: _ => some (.cutEnd true, 2)
  | '%' :: _ => some (.cutEnd false, 1)
  | _ => none

/-- A pattern is never quoted by the quotes around the braces. -/
def Modifier.wordIsQuoted (modifier : Modifier) (quoted : Bool) : Bool :=
  match modifier with
  | .cutStart _ | .cutEnd _ => false
  | _ => quoted

/-- The script between backquotes, from the first of them on, and how long it is with them. -/
def backquoted? (inDouble : Bool) : Text → Option (Text × Nat)
  | [] => none
  | '\x60' :: _ => some ([], 1)
  | '\\' :: c :: rest =>
    (backquoted? inDouble rest).map fun (script, length) =>
      if ['$', '\x60', '\\'].contains c || (inDouble && c = '\x22') then (c :: script, length + 2)
      else ('\\' :: c :: script, length + 2)
  | c :: rest =>
    (backquoted? inDouble rest).map fun (script, length) => (c :: script, length + 1)

/-- The name and the value of a word that assigns. -/
def assignment? : Word → Option (Text × Word)
  | .literal text false :: rest =>
    match Text.splitFirst '=' text with
    | some (name, value) =>
      if isName name then some (name, if value = [] then rest else .literal value false :: rest)
      else none
    | none => none
  | _ => none

/-- The name that a word of one plain part is. -/
def plainName? : Word → Option Text
  | [.literal text false] => some text
  | _ => none

/-- How long the word is that a text begins with, quotes included. -/
def quotedLength : Text → Nat
  | [] => 0
  | '\\' :: _ :: rest => quotedLength rest + 2
  | c :: rest =>
    if c = '\x27' || c = '\x22' then within c rest + 1
    else if endsWord c then 0
    else quotedLength rest + 1
where
  within (quote : Char) : Text → Nat
    | [] => 0
    | c :: rest => if c = quote then quotedLength rest + 1 else within quote rest + 1

/-- A delimiter of a document without its quotes, and whether it had any. -/
def unquote (delimiter : Text) : Text × Bool :=
  let plain := delimiter.filter fun c => c ≠ '\x27' && c ≠ '\x22' && c ≠ '\\'
  (plain, plain.length < delimiter.length)

/-- The lines of a document up to its delimiter, and the lines after that, if the delimiter is
there. -/
def documentLines (stripped : Bool) (delimiter : Text) (lines : List Text) :
    List Text × Option (List Text) :=
  let lineOf (line : Text) : Text := if stripped then line.dropWhile (· = '\t') else line
  let body := lines.takeWhile fun line => lineOf line ≠ delimiter
  let rest := if body.length < lines.length then some (lines.drop (body.length + 1)) else none
  (body.map lineOf, rest)

/-- Takes the document of a delimiter out from behind the line that is being read. -/
def takeDocument (stripped : Bool) (delimiter : Text) : Read Text := do
  let source ← get
  let current := source.rest.takeWhile (· ≠ '\n')
  match source.rest.drop current.length with
  | [] => pure []
  | _ :: behind =>
    let (body, rest) := documentLines stripped delimiter (Text.fields '\n' behind)
    set { source with
      rest := current ++ '\n' :: ['\n'].intercalate (rest.getD [])
      owedLines := source.owedLines + body.length + 1 }
    pure (if rest.isSome then body.flatMap (· ++ ['\n']) else ['\n'].intercalate body)

/-- A reading of another text, whose lines begin at this number. -/
def inText {α : Type} (line : Nat) (text : Text) (read : Read α) : Read α := do
  let source ← get
  set (Source.mk text line 0)
  let result ← read
  set source
  pure result

/-- The handle that digits right before a redirection name. -/
def handleBefore? : Read (Option Nat) := do
  let rest := (← get).rest
  let digits := rest.takeWhile Char.isDigit
  match rest.drop digits.length with
  | '<' :: _ | '>' :: _ =>
    pure <|
      if digits = [] then none
      else some (digits.foldl (fun value c => value * 10 + (c.toNat - '0'.toNat)) 0)
  | _ => pure none

def atRedirection : Read Bool := do
  match ← peek with
  | some '<' | some '>' => pure true
  | _ => pure (← handleBefore?).isSome

/-- The signs of redirections, what they do and the handle they are about. -/
def redirections : List (String × Direction × Nat) :=
  [("<&", .duplicate, 0), ("<>", .both, 0), ("<", .read, 0), (">>", .write true, 1),
    (">&", .duplicate, 1), (">|", .overwrite, 1), (">", .write false, 1)]

mutual

/-- The parts of a word up to its end, given those before in reverse order. -/
def parts : Nat → Mode → List Part → Read (List Part)
  | 0, _, _ => fail "nesting is too deep"
  | fuel + 1, mode, read => do
    let quoted := mode.isQuoted
    match ← peek with
    | none =>
      match mode with
      | .bare | .document => pure read.reverse
      | .double => fail "Unterminated quoted string"
      | .braces _ => fail "Missing '\x7D'"
      | .arithmetic _ => fail "Missing '))'"
    | some c =>
      let next ← peekAt 1
      if mode.isEnd c next then pure read.reverse
      else if c = '\\' then
        match next with
        | none =>
          advance 1
          parts fuel mode (push read c quoted)
        | some '\n' =>
          advance 2
          parts fuel mode read
        | some escaped =>
          if mode.isEscapable escaped then
            advance 2
            parts fuel mode (push read escaped true)
          else
            advance 1
            parts fuel mode (push read c true)
      else if c = '\x27' && mode.knowsApostrophe then
        let text := ((← get).rest.drop 1).takeWhile (· ≠ '\x27')
        if (← get).rest.length < text.length + 2 then fail "Unterminated quoted string"
        advance (text.length + 2)
        parts fuel mode (.literal text true :: read)
      else if c = '\x22' && mode.knowsDoubleQuote then
        advance 1
        let inner ← parts fuel .double []
        advance 1
        let inner := if inner.isEmpty then [.literal [] true] else inner
        parts fuel mode (inner.reverse ++ read)
      else if c = '$' then
        let part ← dollar fuel mode
        match part with
        | some part => parts fuel mode (part :: read)
        | none =>
          advance 1
          parts fuel mode (push read c quoted)
      else if c = '\x60' then
        match backquoted? (mode = .double) ((← get).rest.drop 1) with
        | none => fail "EOF in backquote substitution"
        | some (script, length) =>
          let commands ← inText 1 script (wholeList fuel)
          advance (length + 1)
          parts fuel mode (.substitution commands quoted :: read)
      else
        advance 1
        parts fuel (mode.behind c) (push read c quoted)

/-- What a dollar sign stands for together with what follows it, if it is special at all. -/
def dollar : Nat → Mode → Read (Option Part)
  | 0, _ => fail "nesting is too deep"
  | fuel + 1, mode => do
    let quoted := mode.isQuoted
    if ← startsWith "$((" then
      advance 3
      let expression ← parts fuel (.arithmetic 0) []
      advance 2
      pure (some (.arithmetic expression quoted))
    else if ← startsWith "$(" then
      advance 2
      let commands ← commandList fuel
      expectOperator ")"
      pure (some (.substitution commands quoted))
    else if ← startsWith "$\x7B" then
      advance 2
      pure (some (← braces fuel quoted))
    else
      match (← peekAt 1) with
      | none => pure none
      | some c =>
        if isNameStart c then
          let name := ((← get).rest.drop 1).takeWhile isNameCharacter
          advance (name.length + 1)
          pure (some (.parameter (.named name) none [] quoted))
        else
          match parameterOfSign? c with
          | some parameter =>
            advance 2
            pure (some (.parameter parameter none [] quoted))
          | none => pure none

/-- A parameter between braces, of which the first has been read. -/
def braces : Nat → Bool → Read Part
  | 0, _ => fail "nesting is too deep"
  | fuel + 1, quoted => do
    let rest := (← get).rest
    let lengthOf? : Option (Parameter × Nat) :=
      match rest with
      | '#' :: '\x7D' :: _ => none
      | '#' :: more =>
        (parameterIn? more).filter fun (_, size) => (more.drop size).head? = some '\x7D'
      | _ => none
    match lengthOf?, parameterIn? rest with
    | some (parameter, size), _ =>
      advance (size + 2)
      pure (.parameter parameter (some .length) [] quoted)
    | none, none => invalidBraces quoted
    | none, some (parameter, size) =>
      match (rest.drop size).head?, modifierIn? (rest.drop size) with
      | some '\x7D', _ =>
        advance (size + 1)
        pure (.parameter parameter none [] quoted)
      | _, some (modifier, width) =>
        advance (size + width)
        let word ← parts fuel (.braces (modifier.wordIsQuoted quoted)) []
        advance 1
        pure (.parameter parameter (some modifier) word quoted)
      | none, _ => fail "Missing '\x7D'"
      | _, none => invalidBraces quoted
where
  invalidBraces (quoted : Bool) : Read Part := do
    let inner := (← get).rest.takeWhile (· ≠ '\x7D')
    if (← get).rest.length = inner.length then fail "Missing '\x7D'"
    advance (inner.length + 1)
    pure (.parameter .count (some .invalid) [] quoted)

/-- The next word, if one comes next. -/
def word? : Nat → Read (Option Word)
  | 0 => fail "nesting is too deep"
  | fuel + 1 => do
    skipBlanks
    match ← peek with
    | none => pure none
    | some c => if isOperator c then pure none else some <$> parts fuel .bare []

def redirection : Nat → Read Redirection
  | 0 => fail "nesting is too deep"
  | fuel + 1 => do
    let handle ← handleBefore?
    advance ((← get).rest.takeWhile Char.isDigit).length
    if ← startsWith "<<" then
      advance 2
      let stripped := (← peek) = some '-'
      if stripped then advance 1
      skipBlanks
      let delimiter := (← get).rest.take (quotedLength (← get).rest)
      if delimiter = [] then unexpected
      advance delimiter.length
      let (delimiter, isQuoted) := unquote delimiter
      let document ← takeDocument stripped delimiter
      let body ←
        if isQuoted then pure [.literal document true]
        else inText (← get).line document (parts fuel .document [])
      pure (.redirect (handle.getD 0) .here body)
    else
      let rest := (← get).rest
      match redirections.find? fun (sign, _) => sign.toList.isPrefixOf rest with
      | none => unexpected
      | some (sign, direction, usual) =>
        advance sign.length
        match ← word? fuel with
        | none => unexpected
        | some target => pure (.redirect (handle.getD usual) direction target)

/-- All redirections that come next. -/
def redirectionList : Nat → Read (List Redirection)
  | 0 => fail "nesting is too deep"
  | fuel + 1 => do
    skipBlanks
    if ← atRedirection then
      let first ← redirection fuel
      pure (first :: (← redirectionList fuel))
    else pure []

/-- Commands up to what ends their list, which is not read. -/
def commandList : Nat → Read (List Command)
  | 0 => fail "nesting is too deep"
  | fuel + 1 => do
    skipLines (← get).rest.length
    if ← atListEnd then pure []
    else
      let command ← chained fuel
      skipBlanks
      if ← startsWith ";;" then pure [command]
      else
        match ← peek with
        | some '&' =>
          advance 1
          pure (.background command :: (← commandList fuel))
        | some ';' | some '\n' =>
          advance 1
          pure (command :: (← commandList fuel))
        | _ => pure [command]

/-- Commands up to the end of a text. -/
def wholeList : Nat → Read (List Command)
  | 0 => fail "nesting is too deep"
  | fuel + 1 => do
    let commands ← commandList fuel
    if (← peek).isSome then unexpected
    pure commands

/-- Commands that must not be none, except at the end of the text. -/
def someCommands : Nat → Read (List Command)
  | 0 => fail "nesting is too deep"
  | fuel + 1 => do
    let commands ← commandList fuel
    if commands.isEmpty && (← peek).isSome then unexpected
    pure commands

/-- Pipelines joined by signs for "and" and "or". -/
def chained : Nat → Read Command
  | 0 => fail "nesting is too deep"
  | fuel + 1 => do
    let first ← piped fuel
    chainedFrom fuel first

def chainedFrom : Nat → Command → Read Command
  | 0, _ => fail "nesting is too deep"
  | fuel + 1, first => do
    skipBlanks
    let isAnd ← startsWith "&&"
    if isAnd || (← startsWith "||") then
      advance 2
      skipLines (← get).rest.length
      let second ← piped fuel
      chainedFrom fuel (.chain first isAnd second)
    else pure first

def piped : Nat → Read Command
  | 0 => fail "nesting is too deep"
  | fuel + 1 => do
    skipBlanks
    if (← nextReserved) = some "!" then
      advance 1
      match ← piped fuel with
      | .pipeline negated stages => pure (.pipeline (!negated) stages)
      | command => pure (.pipeline true [command])
    else
      let first ← command fuel
      let others ← laterStages fuel
      pure (if others.isEmpty then first else .pipeline false (first :: others))

def laterStages : Nat → Read (List Command)
  | 0 => fail "nesting is too deep"
  | fuel + 1 => do
    skipBlanks
    if (← peek) = some '|' && !(← startsWith "||") then
      advance 1
      skipLines (← get).rest.length
      let next ← command fuel
      pure (next :: (← laterStages fuel))
    else pure []

def command : Nat → Read Command
  | 0 => fail "nesting is too deep"
  | fuel + 1 => do
    skipBlanks
    let line := (← get).line
    let compound ←
      match ← nextReserved with
      | some "if" =>
        advance 2
        some <$> conditional fuel
      | some "while" =>
        advance 5
        some <$> loop fuel false
      | some "until" =>
        advance 5
        some <$> loop fuel true
      | some "for" =>
        advance 3
        some <$> iteration fuel line
      | some "case" =>
        advance 4
        some <$> selection fuel line
      | some "\x7B" =>
        advance 1
        let commands ← someCommands fuel
        expectReserved "\x7D"
        pure (some (.group commands))
      | some word => if word = "in" then pure none else unexpected
      | none =>
        if (← peek) = some '(' then
          advance 1
          let commands ← someCommands fuel
          expectOperator ")"
          pure (some (.subshell commands))
        else pure none
    match compound with
    | none => simple fuel line [] [] []
    | some compound =>
      let redirections ← redirectionList fuel
      pure (if redirections.isEmpty then compound else .redirected line compound redirections)

/-- A simple command, given what was read of it so far in reverse order. -/
def simple : Nat → Nat → List (Text × Word) → List Word → List Redirection → Read Command
  | 0, _, _, _, _ => fail "nesting is too deep"
  | fuel + 1, line, assignments, words, redirections => do
    skipBlanks
    if ← atRedirection then
      let next ← redirection fuel
      simple fuel line assignments words (next :: redirections)
    else
      match ← word? fuel with
      | some word =>
        match assignment? word, words with
        | some assignment, [] => simple fuel line (assignment :: assignments) [] redirections
        | _, _ => simple fuel line assignments (word :: words) redirections
      | none =>
        if (← peek) = some '(' then
          match assignments, words, redirections with
          | [], [name], [] => definition fuel name
          | _, _, _ => unexpected
        else if assignments.isEmpty && words.isEmpty && redirections.isEmpty then unexpected
        else pure (.simple line assignments.reverse words.reverse redirections.reverse)

/-- The rest of the definition of a function. -/
def definition : Nat → Word → Read Command
  | 0, _ => fail "nesting is too deep"
  | fuel + 1, word => do
    advance 1
    expectOperator ")"
    match plainName? word with
    | none => fail "Bad function name"
    | some name =>
      skipLines (← get).rest.length
      pure (.definition name (← command fuel))

def conditional : Nat → Read Command
  | 0 => fail "nesting is too deep"
  | fuel + 1 => do
    let condition ← someCommands fuel
    expectReserved "then"
    let body ← someCommands fuel
    match ← nextReserved with
    | some "elif" =>
      advance 4
      pure (.conditional condition body [← conditional fuel])
    | some "else" =>
      advance 4
      let otherwise ← someCommands fuel
      expectReserved "fi"
      pure (.conditional condition body otherwise)
    | _ =>
      expectReserved "fi"
      pure (.conditional condition body [])

def loop : Nat → Bool → Read Command
  | 0, _ => fail "nesting is too deep"
  | fuel + 1, negated => do
    let condition ← someCommands fuel
    expectReserved "do"
    let body ← someCommands fuel
    expectReserved "done"
    pure (.loop negated condition body)

def iteration : Nat → Nat → Read Command
  | 0, _ => fail "nesting is too deep"
  | fuel + 1, line => do
    let name ←
      match ← word? fuel with
      | some word =>
        match (plainName? word).filter isName with
        | some name => pure name
        | none => fail "Bad for loop variable"
      | none => fail "Bad for loop variable"
    skipLines (← get).rest.length
    let words ←
      if (← nextReserved) = some "in" then
        advance 2
        some <$> wordList fuel
      else pure none
    skipBlanks
    if (← peek) = some ';' then advance 1
    skipLines (← get).rest.length
    expectReserved "do"
    let body ← someCommands fuel
    expectReserved "done"
    pure (.iteration line name words body)

/-- All words that come next on the line. -/
def wordList : Nat → Read (List Word)
  | 0 => fail "nesting is too deep"
  | fuel + 1 => do
    match ← word? fuel with
    | some word => pure (word :: (← wordList fuel))
    | none => pure []

def selection : Nat → Nat → Read Command
  | 0, _ => fail "nesting is too deep"
  | fuel + 1, line => do
    match ← word? fuel with
    | none => unexpectedWith " (expecting word)"
    | some word =>
      skipLines (← get).rest.length
      expectReserved "in"
      pure (.selection line word (← branches fuel))

def branches : Nat → Read (List (List Word × List Command))
  | 0 => fail "nesting is too deep"
  | fuel + 1 => do
    skipLines (← get).rest.length
    if (← nextReserved) = some "esac" then
      advance 4
      pure []
    else
      if (← peek) = some '(' then advance 1
      let patterns ← patternList fuel
      expectOperator ")"
      let commands ← commandList fuel
      if ← startsWith ";;" then
        advance 2
        pure ((patterns, commands) :: (← branches fuel))
      else if (← nextReserved) = some "esac" then
        advance 4
        pure [(patterns, commands)]
      else unexpectedFor ";;"

def patternList : Nat → Read (List Word)
  | 0 => fail "nesting is too deep"
  | fuel + 1 => do
    let first := (← word? fuel).getD []
    skipBlanks
    if (← peek) = some '|' then
      advance 1
      pure (first :: (← patternList fuel))
    else pure [first]

end

/-- The commands of one line that is complete. -/
def lineFrom : Nat → Nat → Read (List Command)
  | 0, _ => fail "nesting is too deep"
  | commands + 1, fuel => do
    skipBlanks
    match ← peek with
    | none => pure []
    | some '\n' =>
      advance 1
      pure []
    | some _ =>
      let first ← chained fuel
      skipBlanks
      match ← peek with
      | some '&' =>
        advance 1
        pure (.background first :: (← lineFrom commands fuel))
      | some ';' =>
        if ← startsWith ";;" then unexpected
        advance 1
        pure (first :: (← lineFrom commands fuel))
      | none | some '\n' => pure (first :: (← lineFrom commands fuel))
      | _ => unexpected

/-- The next line of a script and what is left behind it; `none` at the end of the script. -/
def nextLine (source : Source) : Except Fault (Option (List Command × Source)) :=
  if source.rest = [] then .ok none
  else (lineFrom (source.rest.length + 1) (20 * source.rest.length + 100) source).map some

end ImageStaging.Host.Script
