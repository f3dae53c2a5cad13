import ClusterRegistrar.Fault

/-! What can go wrong with a YAML text. An `Error` is a mistake in the text; a `Trouble` is that or
a value that the text writes correctly and that does not exist. -/
namespace ClusterRegistrar.Yaml

inductive Error where
  | undecodable
  | unprintable
  | strayCharacter
  | missingColon
  | misplacedEntry
  | misplacedKey
  | misplacedValue
  | malformedDirective
  | malformedAnchor
  | malformedTag
  | malformedEscape
  | malformedBlockHeader
  | unterminatedScalar
  | documentMarkInScalar
  | unexpectedToken
  | repeatedDirective
  | unsupportedVersion
  | unknownTagHandle
  | unknownAnchor
  | repeatedAnchor
  | severalDocuments
  | unknownTag
  | wrongNodeKind
  | unhashableKey
  | malformedMerge
  | malformedBinary
deriving DecidableEq, Repr

inductive Trouble where
  | malformed (error : Error)
  | fault (fault : Fault)
deriving DecidableEq, Repr

end ClusterRegistrar.Yaml
