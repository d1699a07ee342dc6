import StencilDesk.Yaml.Cursor

/-!
# Syntax faults

Why a text is not a document of the format: what was found, where, and what was being read. The
wording of each cause is fixed here and nowhere else.
-/

namespace StencilDesk
namespace Yaml

inductive Problem where
  | controlCharacter
  | noToken
  | missingColon
  | sequenceEntryHere
  | mappingKeyHere
  | mappingValueHere
  | missingDirectiveName
  | badDirectiveName
  | unknownDirective
  | missingLineEnd
  | missingVersionDot
  | longVersionNumber
  | missingVersionNumber
  | missingGap
  | missingWordEnd
  | missingAnchorName
  | missingTagEnd
  | missingTagMark
  | missingTagUri
  | missingEscapedOctet
  | badLeadingOctet
  | badTrailingOctet
  | zeroIndentation
  | tabIndentation
  | documentIndicatorHere
  | endOfStream
  | unknownEscape
  | missingHexDigit
  | badEscapeCode
  | unexpectedColon
  | tabViolatesIndentation
  | missingDocumentStart
  | missingNode
  | undefinedTagHandle
  | missingEntry
  | missingKey
  | unclosedFlowSequence
  | unclosedFlowMapping
  | repeatedVersion
  | incompatibleVersion
  | repeatedTagHandle
deriving DecidableEq, Repr

def Problem.message : Problem → String
  | controlCharacter => "control characters are not allowed"
  | noToken => "found character that cannot start any token"
  | missingColon => "could not find expected ':'"
  | sequenceEntryHere => "block sequence entries are not allowed in this context"
  | mappingKeyHere => "mapping keys are not allowed in this context"
  | mappingValueHere => "mapping values are not allowed in this context"
  | missingDirectiveName => "could not find expected directive name"
  | badDirectiveName => "found unexpected non-alphabetical character"
  | unknownDirective => "found unknown directive name"
  | missingLineEnd => "did not find expected comment or line break"
  | missingVersionDot => "did not find expected digit or '.' character"
  | longVersionNumber => "found extremely long version number"
  | missingVersionNumber => "did not find expected version number"
  | missingGap => "did not find expected whitespace"
  | missingWordEnd => "did not find expected whitespace or line break"
  | missingAnchorName => "did not find expected alphabetic or numeric character"
  | missingTagEnd => "did not find the expected '>'"
  | missingTagMark => "did not find expected '!'"
  | missingTagUri => "did not find expected tag URI"
  | missingEscapedOctet => "did not find URI escaped octet"
  | badLeadingOctet => "found an incorrect leading UTF-8 octet"
  | badTrailingOctet => "found an incorrect trailing UTF-8 octet"
  | zeroIndentation => "found an indentation indicator equal to 0"
  | tabIndentation => "found a tab character where an indentation space is expected"
  | documentIndicatorHere => "found unexpected document indicator"
  | endOfStream => "found unexpected end of stream"
  | unknownEscape => "found unknown escape character"
  | missingHexDigit => "did not find expected hexadecimal number"
  | badEscapeCode => "found invalid Unicode character escape code"
  | unexpectedColon => "found unexpected ':'"
  | tabViolatesIndentation => "found a tab character that violates indentation"
  | missingDocumentStart => "did not find expected <document start>"
  | missingNode => "did not find expected node content"
  | undefinedTagHandle => "found undefined tag handle"
  | missingEntry => "did not find expected '-' indicator"
  | missingKey => "did not find expected key"
  | unclosedFlowSequence => "did not find expected ',' or ']'"
  | unclosedFlowMapping => "did not find expected ',' or '\x7d'"
  | repeatedVersion => "found duplicate %YAML directive"
  | incompatibleVersion => "found incompatible YAML document"
  | repeatedTagHandle => "found duplicate %TAG directive"

inductive Activity where
  | nextToken
  | simpleKey
  | directive
  | versionDirective
  | tagDirective
  | tagDirectiveMark
  | tagDirectiveHandle
  | tagDirectiveUri
  | anchor
  | aliasOf
  | tag
  | tagUri
  | blockScalar
  | quotedScalar
  | quotedEscape
  | plainScalar
  | node
  | blockNode
  | flowNode
  | blockCollection
  | blockMapping
  | flowSequence
  | flowMapping
deriving DecidableEq, Repr

def Activity.message : Activity → String
  | nextToken => "while scanning for the next token"
  | simpleKey => "while scanning a simple key"
  | directive => "while scanning a directive"
  | versionDirective => "while scanning a %YAML directive"
  | tagDirective => "while scanning a %TAG directive"
  | tagDirectiveMark => "while scanning a tag directive"
  | tagDirectiveHandle => "while parsing a tag directive"
  | tagDirectiveUri => "while parsing a %TAG directive"
  | anchor => "while scanning an anchor"
  | aliasOf => "while scanning an alias"
  | tag => "while scanning a tag"
  | tagUri => "while parsing a tag"
  | blockScalar => "while scanning a block scalar"
  | quotedScalar => "while scanning a quoted scalar"
  | quotedEscape => "while parsing a quoted scalar"
  | plainScalar => "while scanning a plain scalar"
  | node => "while parsing a node"
  | blockNode => "while parsing a block node"
  | flowNode => "while parsing a flow node"
  | blockCollection => "while parsing a block collection"
  | blockMapping => "while parsing a block mapping"
  | flowSequence => "while parsing a flow sequence"
  | flowMapping => "while parsing a flow mapping"

structure Fault where
  problem : Problem
  mark : Mark
  context : Option (Activity × Mark) := none
deriving DecidableEq, Repr

namespace Fault

/-- Where the problem stands: by line and column, or by offset on the very first place. -/
def placeText (fault : Fault) : String :=
  if !fault.mark.isOrigin then s!" at {fault.mark.text}"
  else if fault.problem = .controlCharacter ∧ fault.mark.offset ≠ 0 then
    s!" at position {fault.mark.offset}"
  else ""

/-- What was being read, with its place if that is neither the first place nor the problem's. -/
def contextText (fault : Fault) : String :=
  match fault.context with
  | none => ""
  | some (activity, since) =>
      let place :=
        if since.isOrigin || since.samePlace fault.mark then "" else s!" at {since.text}"
      s!", {activity.message}{place}"

def message (fault : Fault) : String :=
  fault.problem.message ++ fault.placeText ++ fault.contextText

end Fault

end Yaml
end StencilDesk
