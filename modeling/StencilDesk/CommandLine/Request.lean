import StencilDesk.Text.Split

/-!
# Requests

What the words of a command line ask for. Options may stand anywhere among the other words. Their
value is the next word, or follows an equals sign.
-/

namespace StencilDesk
namespace CommandLine

inductive Request where
  /-- Checks the files of a folder. -/
  | lint (folder : String) (expected : List String)
  /-- Saves a folder as a version. -/
  | importFolder (folder id : String) (message : Option String) (excluded : List String)
  /-- Lists the versions of a stencil. -/
  | history (id : String)
  /-- Compares two versions of a stencil. -/
  | diff (id old new : String)
deriving DecidableEq, Repr

structure Invocation where
  store : Option String
  request : Request
deriving DecidableEq, Repr

inductive OptionName where
  | store
  | expect
  | message
  | exclude
deriving DecidableEq, Repr

namespace OptionName

def ofLong? : List Char → Option OptionName
  | word =>
      if word = "--store".toList then some store
      else if word = "--expect".toList then some expect
      else if word = "--message".toList then some message
      else if word = "--exclude".toList then some exclude
      else none

end OptionName

structure Words where
  store : Option String := none
  expected : List String := []
  message : Option String := none
  excluded : List String := []
  plain : List String := []
deriving DecidableEq, Repr

namespace Words

def set (words : Words) (value : String) : OptionName → Words
  | .store => { words with store := some value }
  | .expect => { words with expected := words.expected ++ [value] }
  | .message => { words with message := some value }
  | .exclude => { words with excluded := words.excluded ++ [value] }

def addPlain (words : Words) (plain : List String) : Words :=
  { words with plain := words.plain ++ plain }

inductive Reading where
  /-- An option whose value is the next word. -/
  | option (name : OptionName)
  | optionWith (name : OptionName) (value : String)
  | plain
  /-- The sign that no options follow. -/
  | endOfOptions
  | unknown
deriving DecidableEq, Repr

/-- Reads a long option with its value behind an equals sign. -/
def readLong (word : List Char) : Reading :=
  match OptionName.ofLong? (word.takeWhile (· != '=')) with
  | none => .unknown
  | some name =>
      match word.dropWhile (· != '=') with
      | [] => .option name
      | _ :: value => .optionWith name (String.ofList value)

def read : List Char → Reading
  | ['-', '-'] => .endOfOptions
  | '-' :: '-' :: rest => readLong ('-' :: '-' :: rest)
  | ['-', 'm'] => .option .message
  | '-' :: 'm' :: '=' :: value => .optionWith .message (String.ofList value)
  | '-' :: 'm' :: value => .optionWith .message (String.ofList value)
  | '-' :: _ :: _ => .unknown
  | _ => .plain

/-- Sorts the words of a command line; an unknown option or a missing value is not accepted. -/
def sort? (words : Words) : List String → Option Words
  | [] => some words
  | word :: rest =>
      match read word.toList with
      | .plain => sort? (words.addPlain [word]) rest
      | .optionWith name value => sort? (words.set value name) rest
      | .endOfOptions => some (words.addPlain rest)
      | .unknown => none
      | .option name =>
          match rest with
          | [] => none
          | value :: rest => sort? (words.set value name) rest

def request? (words : Words) : Option Request :=
  match words.plain with
  | ["lint", folder] => some (.lint folder words.expected)
  | ["import", folder, id] => some (.importFolder folder id words.message words.excluded)
  | ["history", id] => some (.history id)
  | ["diff", id, old, new] => some (.diff id old new)
  | _ => none

end Words

def Invocation.ofWords? (words : List String) : Option Invocation := do
  let sorted ← Words.sort? {} words
  return { store := sorted.store, request := ← sorted.request? }

end CommandLine
end StencilDesk
