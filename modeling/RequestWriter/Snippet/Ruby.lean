import RequestWriter.Snippet.Payload

/-!
# Ruby snippets

The request with Net::HTTP or HTTParty. A verb without a request class of its own gets a general
request, for HTTParty through a class that the snippet declares.
-/

namespace RequestWriter.Ruby

def dialect : Dialect := Target.ruby.dialect

/-- The expression that is sent as the body. -/
def bodyExpression : Payload → String
  | .structured _ => "payload.to_json"
  | .raw s => dialect.quote s

/-- The lines that set the body of a Net::HTTP request. -/
def bodyLines : Option Payload → List String
  | none => []
  | some (.structured v) =>
    ["payload = " ++ (Payload.structured v).literal dialect,
      "request.body = " ++ bodyExpression (.structured v)]
  | some (.raw s) => ["request.body = " ++ bodyExpression (.raw s)]

def requestLine (r : Request) : String :=
  if r.isStandard then "request = Net::HTTP::" ++ Text.capitalize r.verb ++ ".new(uri)"
  else
    "request = Net::HTTPGenericRequest.new(" ++ dialect.quote r.verb ++ ", false, true, uri)"

def netHttp (r : Request) (headers : Headers) : String :=
  ofLines ([
    "require 'net/http'",
    "require 'uri'",
    "require 'json'",
    "",
    "uri = URI(" ++ dialect.quote r.url ++ ")",
    "",
    "http = Net::HTTP.new(uri.host, uri.port)",
    "http.use_ssl = uri.scheme == 'https'",
    "",
    requestLine r]
    ++ headers.map (fun (name, value) =>
      "request[" ++ dialect.quote name ++ "] = " ++ dialect.quote value)
    ++ bodyLines (Payload.ofRequest? r)
    ++ [
    "",
    "response = http.request(request)",
    "puts JSON.parse(response.body)"])

/-- The class of a request with a verb of its own. -/
def customClass (verb : String) : List String := [
  "class CustomRequest < Net::HTTPRequest",
  "  METHOD = " ++ dialect.quote verb,
  "  REQUEST_HAS_BODY = false",
  "  RESPONSE_HAS_BODY = true",
  "end",
  ""]

/-- The lines of the call of HTTParty. -/
def partyCall (r : Request) (arguments : List String) : List String :=
  if r.isStandard then
    ["response = HTTParty." ++ Text.lower r.verb ++ "(", Text.join ",\n" arguments, ")"]
  else
    customClass r.verb
      ++ ["response = HTTParty::Request.new(", "  CustomRequest,", Text.join ",\n" arguments,
        ").perform"]

def httparty (r : Request) (headers : Headers) : String :=
  let payload := Payload.ofRequest? r
  let declared := match payload with
    | some (.structured v) => ["payload = " ++ (Payload.structured v).literal dialect, ""]
    | _ => []
  let arguments := ["  " ++ dialect.quote r.url,
      "  headers: " ++ headers.block dialect "    " "  "]
    ++ (payload.map fun p => "  body: " ++ bodyExpression p).toList
  ofLines (["require 'httparty'", "require 'json'", ""] ++ declared ++ partyCall r arguments
    ++ ["", "puts JSON.parse(response.body)"])

end RequestWriter.Ruby
