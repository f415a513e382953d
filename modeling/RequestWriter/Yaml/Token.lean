/-!
# Tokens of YAML

What a YAML text consists of once blanks, comments and indentation are understood. The indentation
of blocks shows as tokens of its own, so that a reader of tokens needs no columns.
-/

namespace RequestWriter.Yaml

/-- The tag of a node as it is written: a handle that stands for a beginning, and the rest. -/
structure TagText where
  /-- None for a tag that is written out, or that is the mark alone. -/
  handle : Option String
  suffix : String
  deriving DecidableEq, Repr

inductive Token where
  | endOfText
  /-- The version that the text says it is written in. -/
  | version (major : Nat)
  /-- What a handle of tags stands for. -/
  | tagHandle (handle beginning : String)
  /-- An instruction that means nothing here. -/
  | otherDirective
  | documentStart
  | documentEnd
  | blockSequenceStart
  | blockMappingStart
  | blockEnd
  | flowSequenceStart
  | flowSequenceEnd
  | flowMappingStart
  | flowMappingEnd
  /-- The mark of an item of a block sequence. -/
  | blockEntry
  /-- The comma of a flow collection. -/
  | flowEntry
  | key
  | value
  | alias_ (name : String)
  | anchor (name : String)
  | tag (tag : TagText)
  /-- A scalar. A plain one stands without quotes and is no block. -/
  | scalar (text : String) (plain : Bool)
  deriving DecidableEq, Repr

end RequestWriter.Yaml
