import StencilDesk.Editor.Confirmation
import StencilDesk.Session.Versions

/-!
# Commands

What an editor tells whoever displays it. A display that follows the commands in their order shows
what the session holds.
-/

namespace StencilDesk

inductive Command where
  | populateTree (tree : TreeNode)
  | updateTabs (tabs : List Tab) (active : Option String)
  | showDocument (path content : String)
  | updateFindings (path : String) (findings : List Finding) (counts : FindingCounts)
  | showHistory (versions : List Snapshot)
  | showDiff (diff : BundleDiff)
  | showConfirmation (question : Confirmation)
  | notify (severity : Severity) (message : String)
deriving Repr

namespace Session

def treeCommand (s : Session) : Command :=
  .populateTree s.tree

def tabsCommand (s : Session) : Command :=
  .updateTabs s.tabs s.active

def findingsCommand (s : Session) (path : String) : Command :=
  .updateFindings path (s.findings path) s.counts

def documentCommands (s : Session) (path : String) : List Command :=
  match s.file? path with
  | some file => [.showDocument file.path file.content]
  | none => []

def openDocumentCommands (s : Session) : List Command :=
  s.tabs.flatMap fun tab => s.documentCommands tab.path ++ [s.findingsCommand tab.path]

def historyCommand (s : Session) : Command :=
  .showHistory s.versions

end Session

end StencilDesk
