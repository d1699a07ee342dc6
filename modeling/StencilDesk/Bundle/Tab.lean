import StencilDesk.Bundle.File

/-!
# Tabs

A file that is open for editing. A tab is dirty once its file was edited, and clean again after
the next save; a dirty tab closes only on confirmation.
-/

namespace StencilDesk

structure Tab where
  path : String
  name : String
  kind : FileKind
  dirty : Bool
deriving DecidableEq, Repr, Inhabited

inductive TabEvent where
  | edit
  | save
  | close (confirmed : Bool)
deriving DecidableEq, Repr

inductive TabOutcome where
  | keep (tab : Tab)
  | remove
  | needsConfirmation
deriving DecidableEq, Repr

namespace Tab

def ofFile (file : File) : Tab :=
  { path := file.path, name := file.name, kind := file.kind, dirty := false }

def edited (tab : Tab) : Tab :=
  { tab with dirty := true }

def saved (tab : Tab) : Tab :=
  { tab with dirty := false }

def after (tab : Tab) : TabEvent → TabOutcome
  | .edit => .keep tab.edited
  | .save => .keep tab.saved
  | .close confirmed => if tab.dirty && !confirmed then .needsConfirmation else .remove

end Tab

end StencilDesk
