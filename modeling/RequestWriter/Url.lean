import RequestWriter.Parameter
import RequestWriter.Text.Basic
import RequestWriter.Text.Percent

/-!
# URLs from templates

A template names the parameters of its path in braces. Building a URL fills the groups whose
parameters are declared, and appends the declared query parameters. Values are percent-encoded, and
a value that counts as not given is passed over.
-/

namespace RequestWriter.Url

/-- The values of parameters by name, in order. -/
abbrev Values := List (String × Value)

/-- The group of a name in a template. -/
def group (name : String) : String := "\x7b" ++ name ++ "\x7d"

/-- A value as it stands in a URL. -/
def encodeValue (v : Value) : String := Text.percentEncode v.display

/-- Whether a parameter of that name and location is declared. -/
def declares (parameters : List Parameter) (name location : String) : Bool :=
  parameters.any fun p => p.name == name && p.location == location

/-- The template with the declared path values in place of their groups, one name after another. -/
def fillPath (template : String) (parameters : List Parameter) (values : Values) : String :=
  values.foldl (fun url (name, v) =>
    if v.truthy && declares parameters name "path" then
      Text.replace (group name) (encodeValue v) url
    else url) template

def queryPairs (parameters : List Parameter) (values : Values) : List String :=
  (values.filter fun (name, v) => v.truthy && declares parameters name "query").map
    fun (name, v) => name ++ "=" ++ encodeValue v

/-- Appends pairs to a URL, behind a question mark or, where there is one, behind an ampersand. -/
def appendQuery (url : String) (pairs : List String) : String :=
  if pairs.isEmpty then url
  else url ++ (if url.toList.contains '?' then "&" else "?") ++ Text.join "&" pairs

/-- The URL of a template with these parameters and values. -/
def build (template : String) (parameters : List Parameter) (values : Values) : String :=
  appendQuery (fillPath template parameters values) (queryPairs parameters values)

/-- Declares a parameter for every value: a name with a group in the template belongs to the path,
any other to the query. -/
def inferParameters (template : String) (values : Values) : List Parameter :=
  values.map fun (name, _) =>
    let inPath := Text.occurs (group name).toList template.toList
    { name, location := if inPath then "path" else "query", required := inPath, type := "string",
      description := "" }

end RequestWriter.Url
