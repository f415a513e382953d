import RequestWriter.Snippet.Payload

/-!
# Python snippets

The request as a call of the libraries requests or httpx. A standard verb is a method of the
library; any other is the first argument of its general call. A body that is no JSON text goes out
as it is, under the name that the library has for raw content.
-/

namespace RequestWriter.Python

def dialect : Dialect := Target.python.dialect

/-- The call on a receiver, with its keyword arguments. -/
def call (receiver : String) (r : Request) (arguments : List String) : String :=
  let head :=
    if r.isStandard then receiver ++ "." ++ Text.lower r.verb ++ "(url"
    else receiver ++ ".request(" ++ dialect.quote r.verb ++ ", url"
  Text.join ", " (head :: arguments) ++ ")"

/-- Import, URL, headers and a structured payload. -/
def opening (library : String) (r : Request) (headers : Headers) (payload : Option Payload) :
    List String :=
  ["import " ++ library, "", "url = " ++ dialect.quote r.url,
    "headers = " ++ headers.block dialect "    " ""]
    ++ match payload with
      | some (.structured v) => ["payload = " ++ (Payload.structured v).literal dialect]
      | _ => []

def arguments (rawName : String) (payload : Option Payload) : List String :=
  "headers=headers" :: match payload with
    | some (.structured _) => ["json=payload"]
    | some (.raw s) => [rawName ++ "=" ++ dialect.quote s]
    | none => []

def requests (r : Request) (headers : Headers) : String :=
  let payload := Payload.ofRequest? r
  ofLines (opening "requests" r headers payload ++ [
    "",
    "response = " ++ call "requests" r (arguments "data" payload),
    "print(response.json())"])

def httpx (r : Request) (headers : Headers) : String :=
  let payload := Payload.ofRequest? r
  ofLines (opening "httpx" r headers payload ++ [
    "",
    "with httpx.Client() as client:",
    "    response = " ++ call "client" r (arguments "content" payload),
    "    print(response.json())"])

end RequestWriter.Python
