import StencilDesk.Bundle.Edit
import StencilDesk.History.Fault

/-!
# Bundles that the store accepts

A bundle can be saved if its paths are well formed and distinct, no file lies below another one,
and there is a main configuration. These are checked in this order.
-/

namespace StencilDesk

namespace Bundle

/-- Checks that paths are well formed, and differ from each other and from those before. -/
def checkPaths : List String → List File → Except StoreFault Unit
  | _, [] => .ok ()
  | seen, file :: rest =>
      match Path.check file.path with
      | .error fault => .error (.invalidPath fault)
      | .ok () =>
          if seen.contains file.path then .error (.duplicatePath file.path)
          else checkPaths (file.path :: seen) rest

def checkLevels (files : List File) : List File → Except StoreFault Unit
  | [] => .ok ()
  | file :: rest =>
      match fileAbove? files file.path with
      | some above => .error (.rejected s!"{file.path} is stored below the file {above}")
      | none => checkLevels files rest

def accept (id : String) (files : List File) : Except StoreFault Unit := do
  checkPaths [] files
  checkLevels files files
  if !File.existsAt files File.mainConfigPath then
    throw (.missingMainConfig id)

/-- Holds of the ids that name a folder: letters, digits, underscores and hyphens, at least one. -/
def isStencilId (id : String) : Bool :=
  !id.toList.isEmpty && id.toList.all fun c => c.isAlphanum || c == '_' || c == '-'

end Bundle

end StencilDesk
