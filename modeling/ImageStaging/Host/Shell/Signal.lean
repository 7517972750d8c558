import ImageStaging.Host.Shell.Basic

/-!
# Signals

A process that gets a signal ends, unless it asked for something to be done instead.
-/

namespace ImageStaging.Host

structure Signal where
  number : Nat
  name : String
  /-- What a shell says about a process that the signal ended. -/
  description : String

namespace Signal

def all : List Signal :=
  [⟨1, "HUP", "Hangup"⟩, ⟨2, "INT", ""⟩, ⟨3, "QUIT", "Quit"⟩, ⟨4, "ILL", "Illegal instruction"⟩,
    ⟨5, "TRAP", "Trace/breakpoint trap"⟩, ⟨6, "ABRT", "Aborted"⟩, ⟨7, "BUS", "Bus error"⟩,
    ⟨8, "FPE", "Floating point exception"⟩, ⟨9, "KILL", "Killed"⟩,
    ⟨10, "USR1", "User defined signal 1"⟩, ⟨11, "SEGV", "Segmentation fault"⟩,
    ⟨12, "USR2", "User defined signal 2"⟩, ⟨13, "PIPE", ""⟩, ⟨14, "ALRM", "Alarm clock"⟩,
    ⟨15, "TERM", "Terminated"⟩]

/-- The names of all numbers from 0 on. -/
def listing : List String :=
  ["0"] ++ all.map Signal.name ++
    ["16", "CHLD", "CONT", "STOP", "TSTP", "TTIN", "TTOU", "URG", "XCPU", "XFSZ", "VTALRM", "PROF",
      "WINCH", "IO", "PWR", "SYS", "32", "33", "RTMIN"] ++
    (List.range 15).map (fun place => s!"RTMIN+{place + 1}") ++
    (List.range 14).map (fun place => s!"RTMAX-{14 - place}") ++ ["RTMAX"]

def ofWord? (word : Text) : Option Signal :=
  let text := (String.ofList word).toUpper
  all.find? fun signal => text = toString signal.number || text = signal.name

/-- The condition of a trap: a signal, or the end of the shell. -/
def condition? (word : Text) : Option String :=
  let text := (String.ofList word).toUpper
  if text = "EXIT" || text = "0" then some "EXIT" else (ofWord? word).map Signal.name

def status (signal : Signal) : ExitStatus :=
  .signal signal.number ("SIG" ++ signal.name)

def describe (number : Nat) : String :=
  ((all.find? fun signal => signal.number = number).map Signal.description).getD ""

end Signal

end ImageStaging.Host
