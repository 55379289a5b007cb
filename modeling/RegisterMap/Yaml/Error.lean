/-!
# YAML Errors

Why a text is no YAML stream, or holds a document without a value.
-/

namespace RegisterMap.Yaml

/-- Why a **YAML text** was rejected. -/
inductive Error where
  /-- A control character or another character that YAML text may not contain. -/
  | forbiddenCharacter
  /-- A character that starts no token. -/
  | unexpectedCharacter
  /-- A key that has to be followed by a colon and is not. -/
  | missingColon
  /-- A sequence entry, a key or a value where none may start. -/
  | misplacedIndicator
  /-- A quoted scalar without its closing quote. -/
  | unclosedQuote
  /-- An escape that does not exist or names no character. -/
  | badEscape
  /-- A tab where indentation belongs. -/
  | tabIndentation
  /-- The head of a block scalar is followed by something else than a comment. -/
  | badBlockHeader
  /-- A colon inside a plain scalar, next to a flow indicator. -/
  | colonInFlow
  /-- An anchor or an alias without a name. -/
  | badAnchor
  /-- A tag that is no tag. -/
  | badTag
  /-- A tag with a handle that no directive declares. -/
  | unknownTagHandle
  /-- A directive that is unknown, malformed or repeated. -/
  | badDirective
  /-- A token that the grammar does not allow where it stands. -/
  | unexpectedToken
  /-- An alias to an anchor that does not exist. -/
  | unknownAnchor
  /-- Collections nested too deeply. -/
  | tooDeep
  /-- Too many aliases for the size of the document. -/
  | tooManyAliases
  /-- A scalar that is not of the type its tag names. -/
  | typeMismatch
  /-- An integer past 64 bits. -/
  | integerTooLarge
  /-- A mapping with the same key twice. -/
  | duplicateKey
deriving Repr, DecidableEq, Inhabited

namespace Error

/-- The wording of a rejected text. -/
def message : Error → String
  | forbiddenCharacter => "control characters are not allowed"
  | unexpectedCharacter => "found character that cannot start any token"
  | missingColon => "could not find expected ':'"
  | misplacedIndicator => "mapping values are not allowed in this context"
  | unclosedQuote => "found unexpected end of stream"
  | badEscape => "found unknown escape character"
  | tabIndentation => "found a tab character where an indentation space is expected"
  | badBlockHeader => "did not find expected comment or line break"
  | colonInFlow => "found unexpected ':'"
  | badAnchor => "did not find expected alphabetic or numeric character"
  | badTag => "did not find expected tag URI"
  | unknownTagHandle => "found undefined tag handle"
  | badDirective => "found unknown directive name"
  | unexpectedToken => "did not find expected node content"
  | unknownAnchor => "unknown anchor"
  | tooDeep => "recursion limit exceeded"
  | tooManyAliases => "repetition limit exceeded"
  | typeMismatch => "invalid type"
  | integerTooLarge => "integer out of range"
  | duplicateKey => "duplicate entry"

end Error

end RegisterMap.Yaml
