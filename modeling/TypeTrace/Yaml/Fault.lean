import TypeTrace.Files.Utf8
import TypeTrace.Text.Digit
import TypeTrace.Yaml.Mark

/-!
# Faults of a YAML text

What can be wrong with a text that should be YAML: what was being read, what is wrong, and where.
-/

namespace TypeTrace.Yaml

inductive Context where
  | directive | tagDirective | anchor | «alias» | tag | uri | simpleKey | blockScalar
  | doubleQuoted | quoted | nextToken
  | node | blockNode | flowNode | blockCollection | blockMapping | flowSequence | flowMapping
  | singleDocument | firstAnchor (name : String)
  | mapping | orderedMap | pairs
deriving DecidableEq

def Context.text : Context → String
  | directive => "while scanning a directive"
  | tagDirective => "while parsing a directive"
  | anchor => "while scanning an anchor"
  | «alias» => "while scanning an alias"
  | tag => "while scanning a tag"
  | uri => "while parsing a tag"
  | simpleKey => "while scanning a simple key"
  | blockScalar => "while scanning a block scalar"
  | doubleQuoted => "while scanning a double-quoted scalar"
  | quoted => "while scanning a quoted scalar"
  | nextToken => "while scanning for the next token"
  | node => "while parsing a node"
  | blockNode => "while parsing a block node"
  | flowNode => "while parsing a flow node"
  | blockCollection => "while parsing a block collection"
  | blockMapping => "while parsing a block mapping"
  | flowSequence => "while parsing a flow sequence"
  | flowMapping => "while parsing a flow mapping"
  | singleDocument => "expected a single document in the stream"
  | firstAnchor name => "found duplicate anchor " ++ Text.quoted name ++ "; first occurrence"
  | mapping => "while constructing a mapping"
  | orderedMap => "while constructing an ordered map"
  | pairs => "while constructing pairs"

inductive Wanted where
  | wordCharacter | digit | digitOrDot | digitOrBlank | blank | closingAngle | exclamation | uri
  | commentOrBreak | indicators | uriEscape | escape (digits : Nat)
deriving DecidableEq

def Wanted.text : Wanted → String
  | wordCharacter => "alphabetic or numeric character"
  | digit => "a digit"
  | digitOrDot => "a digit or '.'"
  | digitOrBlank => "a digit or ' '"
  | blank => "' '"
  | closingAngle => "'>'"
  | exclamation => "'!'"
  | uri => "URI"
  | commentOrBreak => "a comment or a line break"
  | indicators => "chomping or indentation indicators"
  | uriEscape => "URI escape sequence of 2 hexadecimal numbers"
  | escape digits => "escape sequence of " ++ toString digits ++ " hexadecimal numbers"

inductive Problem where
  | expected (wanted : Wanted) (found : Char)
  | cannotStart (c : Char)
  | noColon
  | entryNotAllowed
  | keyNotAllowed
  | valueNotAllowed
  | zeroIndentation
  | unknownEscape (c : Char)
  | endOfText
  | documentSeparator
  | undecodable (fault : Utf8.Fault)
  | noDocumentStart (found : String)
  | repeatedVersion
  | otherVersion
  | repeatedHandle (handle : String)
  | unknownHandle (handle : String)
  | noContent (found : String)
  | noBlockEnd (found : String)
  | noSequenceEnd (found : String)
  | noMappingEnd (found : String)
  | unknownAlias (name : String)
  | secondAnchor
  | secondDocument
  | unknownTag (tag : String)
  | otherSort (wanted found : String)
  | unhashableKey
  | mergedItem (found : String)
  | mergedValue (found : String)
  | noSequence (found : String)
  | noSingleItem (found : String)
  | itemCount (n : Nat)
  | notAscii (first : Char) (index length : Nat)
  | base64Length (characters : Nat)
  | base64Padding
deriving DecidableEq

def shownChar (c : Char) : String := Text.quoted (String.singleton c)

def Problem.text : Problem → String
  | expected wanted found => "expected " ++ wanted.text ++ ", but found " ++ shownChar found
  | cannotStart c => "found character " ++ shownChar c ++ " that cannot start any token"
  | noColon => "could not find expected ':'"
  | entryNotAllowed => "sequence entries are not allowed here"
  | keyNotAllowed => "mapping keys are not allowed here"
  | valueNotAllowed => "mapping values are not allowed here"
  | zeroIndentation => "expected indentation indicator in the range 1-9, but found 0"
  | unknownEscape c => "found unknown escape character " ++ shownChar c
  | endOfText => "found unexpected end of stream"
  | documentSeparator => "found unexpected document separator"
  | undecodable fault => fault.message
  | noDocumentStart found => "expected '<document start>', but found " ++ Text.quoted found
  | repeatedVersion => "found duplicate YAML directive"
  | otherVersion => "found incompatible YAML document (version 1.* is required)"
  | repeatedHandle handle => "duplicate tag handle " ++ Text.quoted handle
  | unknownHandle handle => "found undefined tag handle " ++ Text.quoted handle
  | noContent found => "expected the node content, but found " ++ Text.quoted found
  | noBlockEnd found => "expected <block end>, but found " ++ Text.quoted found
  | noSequenceEnd found => "expected ',' or ']', but got " ++ Text.quoted found
  | noMappingEnd found => "expected ',' or '\x7d', but got " ++ Text.quoted found
  | unknownAlias name => "found undefined alias " ++ Text.quoted name
  | secondAnchor => "second occurrence"
  | secondDocument => "but found another document"
  | unknownTag tag => "could not determine a constructor for the tag " ++ Text.quoted tag
  | otherSort wanted found => "expected a " ++ wanted ++ " node, but found " ++ found
  | unhashableKey => "found unhashable key"
  | mergedItem found => "expected a mapping for merging, but found " ++ found
  | mergedValue found => "expected a mapping or list of mappings for merging, but found " ++ found
  | noSequence found => "expected a sequence, but found " ++ found
  | noSingleItem found => "expected a mapping of length 1, but found " ++ found
  | itemCount n => "expected a single mapping item, but found " ++ toString n ++ " items"
  | notAscii first index length =>
    let place :=
      if length = 1 then
        "character '" ++ Text.codeEscape first ++ "' in position " ++ toString index
      else "characters in position " ++ toString index ++ "-" ++ toString (index + length - 1)
    "failed to convert base64 data into ascii: 'ascii' codec can't encode " ++ place
      ++ ": ordinal not in range(128)"
  | base64Length characters =>
    "failed to decode base64 data: Invalid base64-encoded string: number of data characters ("
      ++ toString characters ++ ") cannot be 1 more than a multiple of 4"
  | base64Padding => "failed to decode base64 data: Incorrect padding"

/-- Why a text is not YAML: it holds a character that it may not hold, or something is wrong at a
place. The context may have begun at a place of its own. -/
inductive Malformed where
  | unacceptable (c : Char) (index : Nat)
  | wrong (context : Option (Context × Option Mark)) (problem : Problem) (mark : Mark)
deriving DecidableEq

/-- The message of a fault of the text `source`. Where the context begins is shown if it is on another
line or in another column than what is wrong. -/
def Malformed.message (source : String) : Malformed → String
  | unacceptable c index =>
    "unacceptable character #x" ++ Text.hex 4 c.toNat
      ++ ": special characters are not allowed\n  in \"<unicode string>\", position " ++ toString index
  | wrong context problem mark =>
    let begun := match context with
      | none => []
      | some (context, none) => [context.text]
      | some (context, some start) =>
        if start.line = mark.line ∧ start.column = mark.column then [context.text]
        else [context.text, start.text source]
    String.intercalate "\n" (begun ++ [problem.text, mark.text source])

/-- A value that has no meaning although its text is YAML, or one that cannot be written. -/
inductive BadValue where
  | codePoint
  | wholeNumber (base : Nat) (text : String)
  | tooLong (digits : Nat)
  | unwritable
  | number (text : String)
  | word (text : String)
  | year (n : Nat)
  | month
  | day
  | hour
  | minute
  | second
  | offset (text : String)
deriving DecidableEq

def BadValue.message : BadValue → String
  | codePoint => "chr() arg not in range(0x110000)"
  | wholeNumber base text =>
    "invalid literal for int() with base " ++ toString base ++ ": " ++ Text.quoted text
  | tooLong digits =>
    "Exceeds the limit (" ++ toString Text.digitLimit
      ++ " digits) for integer string conversion: value has " ++ toString digits
      ++ " digits; use sys.set_int_max_str_digits() to increase the limit"
  | unwritable => Text.longMessage
  | number text => "could not convert string to float: " ++ Text.quoted text
  | word text => Text.quoted text
  | year n => "year " ++ toString n ++ " is out of range"
  | month => "month must be in 1..12"
  | day => "day is out of range for month"
  | hour => "hour must be in 0..23"
  | minute => "minute must be in 0..59"
  | second => "second must be in 0..59"
  | offset text =>
    "offset must be a timedelta strictly between -timedelta(hours=24) and timedelta(hours=24), not "
      ++ text ++ "."

inductive Fault where
  | malformed (cause : Malformed)
  | badValue (cause : BadValue)
deriving DecidableEq

end TypeTrace.Yaml
