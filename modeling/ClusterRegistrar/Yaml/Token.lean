import ClusterRegistrar.Text.Basic

/-! Tokens of a YAML text. Indentation and the colons of simple keys show as tokens of their own, so
a token list needs no positions. -/
namespace ClusterRegistrar.Yaml

inductive Token where
  | streamEnd
  | versionDirective (major : Nat)
  | tagDirective (handle lead : String)
  | reservedDirective
  | documentStart
  | documentEnd
  | blockSequenceStart
  | blockMappingStart
  | blockEnd
  | flowSequenceStart
  | flowSequenceEnd
  | flowMappingStart
  | flowMappingEnd
  | blockEntry
  | flowEntry
  | key
  | value
  | alias (name : String)
  | anchor (name : String)
  | tag (handle : Option String) (suffix : String)
  | scalar (text : Text) (plain : Bool)
deriving DecidableEq, Repr

end ClusterRegistrar.Yaml
