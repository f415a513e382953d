import RequestWriter.Snippet.Payload

/-!
# JavaScript snippets

The request as a call of `fetch` or of axios. URL, headers and a structured payload are declared
first; the call refers to them.
-/

namespace RequestWriter.JavaScript

/-- The rules of string literals. -/
def dialect : Dialect := Target.javascript.dialect

def declarations (r : Request) (headers : Headers) (payload : Option Payload) : List String :=
  ["const url = " ++ dialect.quote r.url ++ ";",
    "const headers = " ++ headers.block dialect "  " "" ++ ";"]
    ++ match payload with
      | some (.structured v) =>
        ["const payload = " ++ (Payload.structured v).literal dialect ++ ";"]
      | _ => []

def fetch (r : Request) (headers : Headers) : String :=
  let payload := Payload.ofRequest? r
  let options := ["  method: " ++ dialect.quote r.verb, "  headers: headers"]
    ++ match payload with
      | some (.structured _) => ["  body: JSON.stringify(payload)"]
      | some (.raw s) => ["  body: " ++ dialect.quote s]
      | none => []
  ofLines (declarations r headers payload ++ [
    "",
    "const response = await fetch(url, \x7b",
    Text.join ",\n" options,
    "\x7d);",
    "",
    "const data = await response.json();",
    "console.log(data);"])

def axios (r : Request) (headers : Headers) : String :=
  let payload := Payload.ofRequest? r
  let config := ["  method: " ++ dialect.quote (Text.lower r.verb), "  url: url",
      "  headers: headers"]
    ++ match payload with
      | some (.structured _) => ["  data: payload"]
      | some (.raw s) => ["  data: " ++ dialect.quote s]
      | none => []
  ofLines (["const axios = require('axios');", ""] ++ declarations r headers payload ++ [
    "",
    "const response = await axios(\x7b",
    Text.join ",\n" config,
    "\x7d);",
    "",
    "console.log(response.data);"])

end RequestWriter.JavaScript
