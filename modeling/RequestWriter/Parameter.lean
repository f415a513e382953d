import RequestWriter.Checked

/-!
# Parameters

A declared parameter of an endpoint: its name, where it goes, and what it takes.
-/

namespace RequestWriter

/-- A declared parameter. -/
structure Parameter where
  name : String
  /-- `query`, `path`, `header` or `cookie`; other words are kept. -/
  location : String
  required : Bool
  /-- The name of the type of its value. -/
  type : String
  description : String
  deriving DecidableEq, Repr

namespace Parameter

def check (data : List (Scalar × Value)) : Checked Parameter :=
  Parameter.mk <$> Field.required "name" Field.text data
    <*> Field.required "location" Field.text data
    <*> Field.required "required" Field.bool data
    <*> Field.required "param_type" Field.text data
    <*> Field.optional "description" "" Field.text data

def ofFields (data : List (Scalar × Value)) : Except Fault Parameter :=
  (check data).toExcept .parameter

def ofValue (v : Value) : Except Fault Parameter := Field.ofMapping v >>= ofFields

end Parameter

end RequestWriter
