import StencilDesk.CommandLine.Run
import Std.Time.DateTime.Timestamp

/-!
# The command line

Runs one request on files. The files that the request may look at are named on the standard input,
one path per line, for instance by a tool that lists a folder. The paths of files that the request
writes are those of the folder in which the command runs.
-/

namespace StencilDesk
namespace CommandLine

def readBytes? (path : String) : IO (Option (List UInt8)) :=
  try
    let bytes ← IO.FS.readBinFile path
    return some bytes.toList
  catch _ => return none

def addFile (working : Location) (directory : Directory) (path : String) : IO Directory := do
  match ← readBytes? path with
  | none => return directory
  | some bytes =>
      let location := Directory.locate working path
      return (directory.put? location (FileContent.ofBytes bytes)).getD directory

partial def readPaths (input : IO.FS.Stream) (paths : List String) : IO (List String) := do
  let line ← input.getLine
  if line.isEmpty then
    return paths.reverse
  let path := String.ofList (Text.trimEnd line.toList)
  readPaths input (if path.isEmpty then paths else path :: paths)

def pathOf (location : Location) : String :=
  "/" ++ Directory.locationText location

/-- Writes the text files that differ from those that were there. -/
def writeChanges (before after : Directory) : IO Unit := do
  for (location, item) in after.items do
    match item with
    | .file (.text text) =>
        if before.item? location != some item then
          IO.FS.createDirAll (pathOf location.dropLast)
          IO.FS.writeFile (pathOf location) text
    | _ => pure ()

def preferencesFolder (working : Location) : IO Location := do
  match ← IO.getEnv "XDG_CONFIG_HOME", ← IO.getEnv "HOME" with
  | some folder, _ => return Directory.locate working folder
  | none, some home => return Directory.locate working home ++ [".config"]
  | none, none => return working

/-- The time in seconds since the start of the year 1970, as a time without offset. -/
def currentTime : IO Timestamp := do
  let now ← Std.Time.Timestamp.now
  return Timestamp.ofUnixSeconds now.toSecondsSinceUnixEpoch.val.toNat

end CommandLine
end StencilDesk

open StencilDesk CommandLine in
def main (words : List String) : IO UInt32 := do
  match Invocation.ofWords? words with
  | none =>
      IO.eprintln "usage: [--store DIR] lint DIR | import DIR ID | history ID | diff ID OLD NEW"
      return 2
  | some invocation =>
      let working := Directory.locate [] (toString (← IO.currentDir))
      let preferences ← preferencesFolder working
      let settings :=
        pathOf (preferences ++ [Preferences.folderName applicationName, Preferences.fileName])
      let paths ← readPaths (← IO.getStdin) []
      let directory ← (paths ++ [settings]).foldlM (addFile working) {}
      let here : Surroundings := { directory, working, preferences, now := ← currentTime }
      let (result, after) := run here invocation
      writeChanges directory after
      IO.print (outputText result)
      IO.eprint (errorText result)
      return UInt32.ofNat (exitCode result)
