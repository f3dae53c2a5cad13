/-! Faults: what goes wrong when a value is not of the kind that an operation needs, or lies
outside its range. Unlike a rejection, which tells the user what is wrong with a manifest, a fault
has no text and ends the run at once. -/
namespace ClusterRegistrar

inductive Fault where
  | noFields
  | notText
  /-- A text operation met bytes. -/
  | bytesForText
  | notIterable
  | noLength
  | unhashable
  | notIndexable
  | incomparable
  /-- A list of entries stood where a text is taken apart. -/
  | listForText
  | notACell
  | notBase64Source
  | noJsonForm
  /-- A value is inside itself, where its text would not end. -/
  | insideItself
  | notAPair
  | wideBase64
  | impossibleDate
  | malformedNumber
  | malformedTime
  | impossibleCharacter
  /-- A number beyond what the machine counts or a double holds. -/
  | excessiveNumber
  | longNumeral
  | emptyNumber
  | unknownTruthWord
  | emptyList
  | missingEntry
  | raggedRow
  | notUtf8
  | notEncodable
  | nestedTooDeep
  /-- A text that is defined by itself. -/
  | endlessText
  | notAMapping
  | invalidField
  /-- An option that has to be text is an empty list. -/
  | listForOption
  | fileNotFound
  | isDirectory
  | notADirectory
  | nulInPath
  | longPath
  | noRoom
deriving DecidableEq, Repr

end ClusterRegistrar
