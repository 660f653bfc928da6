/-!
What can be wrong with a YAML text, or with its use as a value of some shape.
-/

namespace Rehearsal.Yaml

inductive Problem where
  | controlCharacter
  | unexpectedCharacter
  | missingColon
  | misplacedEntry
  | misplacedKey
  | misplacedValue
  | badDirective
  | badAnchor
  | badTag
  | badBlockHeader
  | tabIndentation
  | unclosedQuote
  | documentMarkInQuote
  | badEscape
  | badFlowColon
  | missingDocumentStart
  | missingContent
  | missingDash
  | missingKey
  | missingComma
  | undefinedHandle (handle : String)
  | unknownAnchor (name : String)
  | noDocument
  | severalDocuments
  | tooManyAliases
  | tooDeep
  | expected (shape : String)
  | missingField (name : String)
  | repeatedField (name : String)
  | unknownChoice (name : String)
  deriving DecidableEq, Repr

def Problem.message : Problem → String
  | .controlCharacter => "control characters are not allowed"
  | .unexpectedCharacter => "found character that cannot start any token"
  | .missingColon => "could not find expected ':'"
  | .misplacedEntry => "block sequence entries are not allowed in this context"
  | .misplacedKey => "mapping keys are not allowed in this context"
  | .misplacedValue => "mapping values are not allowed in this context"
  | .badDirective => "malformed directive"
  | .badAnchor => "malformed anchor or alias"
  | .badTag => "malformed tag"
  | .badBlockHeader => "malformed block scalar header"
  | .tabIndentation => "found a tab character where an indentation space is expected"
  | .unclosedQuote => "found unexpected end of stream"
  | .documentMarkInQuote => "found unexpected document indicator"
  | .badEscape => "found unknown or malformed escape"
  | .badFlowColon => "found unexpected ':'"
  | .missingDocumentStart => "did not find expected document start"
  | .missingContent => "did not find expected node content"
  | .missingDash => "did not find expected '-' indicator"
  | .missingKey => "did not find expected key"
  | .missingComma => "did not find expected ',' or the end of the collection"
  | .undefinedHandle handle => s!"found undefined tag handle '{handle}'"
  | .unknownAnchor name => s!"unknown anchor '{name}'"
  | .noDocument => "end of stream"
  | .severalDocuments => "more than one document"
  | .tooManyAliases => "repetition limit exceeded"
  | .tooDeep => "recursion limit exceeded"
  | .expected shape => s!"expected {shape}"
  | .missingField name => s!"missing field '{name}'"
  | .repeatedField name => s!"duplicate field '{name}'"
  | .unknownChoice name => s!"unknown variant '{name}'"

abbrev Result := Except Problem

end Rehearsal.Yaml
