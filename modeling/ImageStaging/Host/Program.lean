/-!
# Programs of the host

The host has the usual small programs on its search path.
-/

namespace ImageStaging.Host

inductive Program
  | succeed
  | fail
  | echo
  | printf
  | test
  | bracket
  | cat
  | list
  | shell
  | environment
  | place
  | sleep
  | makeDirectory
  | removeDirectory
  | remove
  | touch
  | copy
  | move
  | link
  | changeMode
  | readLink
  | baseName
  | directoryName
  | head
  | tail
  | count
  | sort
  | unique
  | translate
  | cut
  | search
  | sequence
  | tee
  | find
  deriving DecidableEq, Repr

namespace Program

def names : List (String × Program) :=
  [("true", .succeed), ("false", .fail), ("echo", .echo), ("printf", .printf), ("test", .test),
    ("[", .bracket), ("cat", .cat), ("ls", .list), ("sh", .shell), ("dash", .shell),
    ("env", .environment), ("pwd", .place), ("sleep", .sleep), ("mkdir", .makeDirectory),
    ("rmdir", .removeDirectory), ("rm", .remove), ("touch", .touch), ("cp", .copy),
    ("mv", .move), ("ln", .link), ("chmod", .changeMode), ("readlink", .readLink),
    ("basename", .baseName), ("dirname", .directoryName), ("head", .head), ("tail", .tail),
    ("wc", .count), ("sort", .sort), ("uniq", .unique), ("tr", .translate), ("cut", .cut),
    ("grep", .search), ("seq", .sequence), ("tee", .tee), ("find", .find)]

def named? (name : String) : Option Program :=
  names.lookup name

def directories : List String :=
  ["/usr/bin", "/bin"]

/-- The program at an absolute path. -/
def at? (path : String) : Option Program :=
  directories.findSome? fun directory =>
    let start := (directory ++ "/").toList
    if start.isPrefixOf path.toList then
      named? (String.ofList (path.toList.drop start.length))
    else none

end Program

end ImageStaging.Host
