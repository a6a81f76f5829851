import SealedChat.Config.Validate

/-!
# Logging

Before anything is logged the log file is made, if one is wanted. Only one log can be installed in a
program.
-/

namespace SealedChat

/-- Where a log goes. -/
structure LogWriter where
  console : Bool
  file : Option Location
deriving DecidableEq, Repr

namespace LogSettings

/-- Opens the log file, if one is wanted, and creates it if it is not there. -/
def openFile (l : LogSettings) (t : FileTree) : Outcome (Option Location × FileTree) :=
  if l.toFile then
    match l.filePath with
    | none => .error (.config pathMissing)
    | some p =>
      match (do return (← t.place ⟨p⟩, ← t.touch ⟨p⟩) : Except FileError (Location × FileTree)) with
      | .ok (file, t) => .ok (some file, t)
      | .error e => .error (.config s!"Failed to open log file '{p}': {e.message}")
  else .ok (none, t)

/-- The log's writer, and the files after it has been made. -/
def makeWriter (l : LogSettings) (t : FileTree) : Outcome LogWriter × FileTree :=
  match l.openFile t with
  | .error e => (.error e, t)
  | .ok (file, t) =>
    if l.toConsole || file.isSome then (.ok ⟨l.toConsole, file⟩, t)
    else (.error (.config outputMissing), t)

/-- Installs a log, where one is installed already or not. -/
def install (l : LogSettings) (occupied : Bool) (t : FileTree) : Outcome LogWriter × FileTree :=
  match l.makeWriter t with
  | (.ok w, t) => (if occupied then .error (.config "Failed to install logger") else .ok w, t)
  | failed => failed

end LogSettings

end SealedChat
