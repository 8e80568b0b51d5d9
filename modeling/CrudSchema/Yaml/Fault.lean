/-!
# What is wrong with a settings file

**Faults** (`Fault`). Either the text is not well formed, or a scalar has the type of a number or a
date and is none (`Fault.conversion`).
-/

namespace CrudSchema.Yaml

/-- Why a scalar is not the value that its type says. -/
inductive ConversionError where
  | codePoint
  | integer (base : Nat) (text : String)
  | tooManyDigits (count : Nat)
  | unwritable
  | float (text : String)
  | hugePower
  | year (n : Nat)
  | month
  | day
  | hour
  | minute
  | second
  | offset (seconds : Int)
  | truth (word : String)
  | empty
  | stamp
  | stampOfMapping
  | tooDeep
  deriving DecidableEq, Repr

inductive SyntaxError where
  | unprintable
  | colonExpected
  | itemNotAllowed
  | keyNotAllowed
  | valueNotAllowed
  | noToken (found : Char)
  | unopened
  | directive
  | anchorName
  | tagName
  | blockHeader
  | escape
  | unclosedQuote
  | markInQuotes
  | contentExpected
  | endExpected
  | separatorExpected
  | documentExpected
  | severalDocuments
  | undefinedAlias (name : String)
  | repeatedAnchor (name : String)
  | undefinedHandle (handle : String)
  | unknownTag (tag : String)
  | scalarExpected
  | sequenceExpected
  | mappingExpected
  | pairExpected
  | keyExpected
  | mergeSource
  | binary
  deriving DecidableEq, Repr

inductive Fault where
  | malformed (e : SyntaxError)
  | conversion (e : ConversionError)
  deriving DecidableEq, Repr

def SyntaxError.message : SyntaxError → String
  | .unprintable => "special characters are not allowed"
  | .colonExpected => "could not find expected ':'"
  | .itemNotAllowed => "sequence entries are not allowed here"
  | .keyNotAllowed => "mapping keys are not allowed here"
  | .valueNotAllowed => "mapping values are not allowed here"
  | .noToken found => "found character '" ++ found.toString ++ "' that cannot start any token"
  | .unopened => "expected the node content, but found the end of a collection"
  | .directive => "malformed directive"
  | .anchorName => "expected alphabetic or numeric character in an anchor or alias"
  | .tagName => "malformed tag"
  | .blockHeader => "malformed block scalar header"
  | .escape => "unknown or malformed escape"
  | .unclosedQuote => "found unexpected end of stream"
  | .markInQuotes => "found unexpected document separator"
  | .contentExpected => "expected the node content"
  | .endExpected => "expected the end of a block collection"
  | .separatorExpected => "expected ',' or the end of a flow collection"
  | .documentExpected => "expected the start of a document"
  | .severalDocuments => "expected a single document in the stream"
  | .undefinedAlias name => "found undefined alias '" ++ name ++ "'"
  | .repeatedAnchor name => "found duplicate anchor '" ++ name ++ "'"
  | .undefinedHandle handle => "found undefined tag handle '" ++ handle ++ "'"
  | .unknownTag tag => "could not determine a constructor for the tag '" ++ tag ++ "'"
  | .scalarExpected => "expected a scalar node"
  | .sequenceExpected => "expected a sequence node"
  | .mappingExpected => "expected a mapping node"
  | .pairExpected => "expected a single mapping item"
  | .keyExpected => "found unhashable key"
  | .mergeSource => "expected a mapping or list of mappings for merging"
  | .binary => "failed to decode base64 data"

end CrudSchema.Yaml
