import StencilDesk.Text.Blank
import StencilDesk.Text.Digit
import StencilDesk.Text.Split

/-!
# Field formats

Identifiers, semantic versions and email addresses, as far as their form can be judged.
-/

namespace StencilDesk
namespace Config

inductive Format where
  | identifier
  | semver
  | email
deriving DecidableEq, Repr

namespace Format

def label : Format → String
  | identifier => "identifier"
  | semver => "semantic version"
  | email => "email address"

/-- A letter or underscore, then letters, digits and underscores. -/
def isIdentifier : List Char → Bool
  | [] => false
  | c :: rest => (c.isAlpha || c == '_') && rest.all fun d => d.isAlphanum || d == '_'

/-- Holds of a non-empty run of decimal digits of any script. -/
def isNumber (text : List Char) : Bool :=
  !text.isEmpty && text.all Text.isDecimalDigit

def isLabelChar (c : Char) : Bool :=
  c.isAlphanum || c == '.' || c == '-'

def isLabel (text : List Char) : Bool :=
  !text.isEmpty && text.all isLabelChar

def cutAt (c : Char) (text : List Char) : List Char × Option (List Char) :=
  (text.takeWhile (· != c),
    match text.dropWhile (· != c) with
    | _ :: rest => some rest
    | [] => none)

/-- Three numbers with points between, then perhaps `-` and a label, then perhaps `+` and a
label. -/
def isSemver (text : List Char) : Bool :=
  let (front, build) := cutAt '+' text
  let (core, release) := cutAt '-' front
  let numbers := Text.splitOn '.' core
  numbers.length == 3 && numbers.all isNumber && release.all isLabel && build.all isLabel

def isAddressChar (c : Char) : Bool :=
  c != '@' && !Text.isBlank c

/-- Holds if a point stands inside, with something before and behind it. -/
def hasInnerPoint (text : List Char) : Bool :=
  ((text.drop 1).dropLast).contains '.'

/-- A name, the sign, and a host with a point inside; no white space and no second sign. -/
def isEmail (text : List Char) : Bool :=
  match cutAt '@' text with
  | (name, some host) =>
      !name.isEmpty && name.all isAddressChar && host.all isAddressChar && hasInnerPoint host
  | (_, none) => false

def accepts (format : Format) (text : String) : Bool :=
  match format with
  | identifier => isIdentifier text.toList
  | semver => isSemver text.toList
  | email => isEmail text.toList

end Format

end Config
end StencilDesk
