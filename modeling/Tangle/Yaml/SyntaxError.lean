import Tangle.Yaml.Mark

/-!
Contract: why a text is not YAML.

Owns: the causes, the activities during which they arise, and their one wording.

Does **not** own: a well-formed document of the wrong shape
(`Tangle.Yaml.DataError`).
-/

set_option autoImplicit false

namespace Tangle.Yaml

/-- What was wrong. -/
inductive Problem where
  | controlCharacter
  | expectedColon
  | mappingValueNotAllowed
  | mappingKeyNotAllowed
  | sequenceEntryNotAllowed
  | cannotStartToken
  | unknownDirective
  | expectedDirectiveName
  | unexpectedDirectiveCharacter
  | expectedCommentOrBreak
  | longVersion
  | expectedVersion
  | expectedVersionDot
  | expectedWhitespace
  | expectedWhitespaceOrBreak
  | expectedAnchorCharacter
  | expectedTagClose
  | expectedBang
  | expectedTagUri
  | expectedUriOctet
  | badLeadingOctet
  | badTrailingOctet
  | zeroIndentation
  | tabInIndentation
  | unexpectedDocumentMarker
  | unexpectedEnd
  | unknownEscape
  | expectedHexDigits
  | invalidEscapeCode
  | unexpectedColon
  | tabViolatesIndentation
  | expectedDocumentStart
  | duplicateVersion
  | incompatibleVersion
  | duplicateTagHandle
  | undefinedTagHandle
  | expectedNodeContent
  | expectedDash
  | expectedKey
  | expectedSequenceCloser
  | expectedMappingCloser
  deriving DecidableEq, Repr, Inhabited

/-- What was being read when it went wrong. -/
inductive Activity where
  | simpleKey
  | nextToken
  | directive
  | versionDirective
  | tagDirectiveScan
  | tagDirectiveHandle
  | tagDirectiveParse
  | tagDirectiveUri
  | anchor
  | reference
  | tag
  | tagParse
  | blockScalar
  | quotedScalar
  | quotedScalarParse
  | plainScalar
  | node
  | blockNode
  | flowNode
  | blockCollection
  | blockMapping
  | flowSequence
  | flowMapping
  deriving DecidableEq, Repr, Inhabited

/-- A cause, its place, and the activity with the place where that began. The
place of a character outside the format is its byte offset. -/
structure SyntaxError where
  problem : Problem
  mark : Mark := {}
  offset : Nat := 0
  activity : Option (Activity × Mark) := none
  deriving DecidableEq, Repr, Inhabited

def Problem.text : Problem → String
  | controlCharacter => "control characters are not allowed"
  | expectedColon => "could not find expected ':'"
  | mappingValueNotAllowed => "mapping values are not allowed in this context"
  | mappingKeyNotAllowed => "mapping keys are not allowed in this context"
  | sequenceEntryNotAllowed => "block sequence entries are not allowed in this context"
  | cannotStartToken => "found character that cannot start any token"
  | unknownDirective => "found unknown directive name"
  | expectedDirectiveName => "could not find expected directive name"
  | unexpectedDirectiveCharacter => "found unexpected non-alphabetical character"
  | expectedCommentOrBreak => "did not find expected comment or line break"
  | longVersion => "found extremely long version number"
  | expectedVersion => "did not find expected version number"
  | expectedVersionDot => "did not find expected digit or '.' character"
  | expectedWhitespace => "did not find expected whitespace"
  | expectedWhitespaceOrBreak => "did not find expected whitespace or line break"
  | expectedAnchorCharacter => "did not find expected alphabetic or numeric character"
  | expectedTagClose => "did not find the expected '>'"
  | expectedBang => "did not find expected '!'"
  | expectedTagUri => "did not find expected tag URI"
  | expectedUriOctet => "did not find URI escaped octet"
  | badLeadingOctet => "found an incorrect leading UTF-8 octet"
  | badTrailingOctet => "found an incorrect trailing UTF-8 octet"
  | zeroIndentation => "found an indentation indicator equal to 0"
  | tabInIndentation => "found a tab character where an indentation space is expected"
  | unexpectedDocumentMarker => "found unexpected document indicator"
  | unexpectedEnd => "found unexpected end of stream"
  | unknownEscape => "found unknown escape character"
  | expectedHexDigits => "did not find expected hexdecimal number"
  | invalidEscapeCode => "found invalid Unicode character escape code"
  | unexpectedColon => "found unexpected ':'"
  | tabViolatesIndentation => "found a tab character that violates indentation"
  | expectedDocumentStart => "did not find expected <document start>"
  | duplicateVersion => "found duplicate %YAML directive"
  | incompatibleVersion => "found incompatible YAML document"
  | duplicateTagHandle => "found duplicate %TAG directive"
  | undefinedTagHandle => "found undefined tag handle"
  | expectedNodeContent => "did not find expected node content"
  | expectedDash => "did not find expected '-' indicator"
  | expectedKey => "did not find expected key"
  | expectedSequenceCloser => "did not find expected ',' or ']'"
  | expectedMappingCloser => "did not find expected ',' or '\x7d'"

def Activity.text : Activity → String
  | simpleKey => "while scanning a simple key"
  | nextToken => "while scanning for the next token"
  | directive => "while scanning a directive"
  | versionDirective => "while scanning a %YAML directive"
  | tagDirectiveScan => "while scanning a %TAG directive"
  | tagDirectiveHandle => "while scanning a tag directive"
  | tagDirectiveParse => "while parsing a tag directive"
  | tagDirectiveUri => "while parsing a %TAG directive"
  | anchor => "while scanning an anchor"
  | reference => "while scanning an alias"
  | tag => "while scanning a tag"
  | tagParse => "while parsing a tag"
  | blockScalar => "while scanning a block scalar"
  | quotedScalar => "while scanning a quoted scalar"
  | quotedScalarParse => "while parsing a quoted scalar"
  | plainScalar => "while scanning a plain scalar"
  | node => "while parsing a node"
  | blockNode => "while parsing a block node"
  | flowNode => "while parsing a flow node"
  | blockCollection => "while parsing a block collection"
  | blockMapping => "while parsing a block mapping"
  | flowSequence => "while parsing a flow sequence"
  | flowMapping => "while parsing a flow mapping"

/-- A place at the very start is left out, and so is the place of an activity that
began where the problem lies. -/
def SyntaxError.message (error : SyntaxError) : String :=
  let place :=
    if !error.mark.isOrigin then " at " ++ error.mark.text
    else if error.offset != 0 then " at position " ++ Text.ofNat error.offset
    else ""
  let context :=
    match error.activity with
    | none => ""
    | some (activity, began) =>
        ", " ++ activity.text
          ++ (if !began.isOrigin && !began.sameSpot error.mark then " at " ++ began.text else "")
  error.problem.text ++ place ++ context

end Tangle.Yaml
