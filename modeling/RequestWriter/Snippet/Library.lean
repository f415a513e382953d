import RequestWriter.Snippet.JavaScript
import RequestWriter.Snippet.Python
import RequestWriter.Snippet.Ruby

/-!
# Client libraries

The libraries for which code can be written, and the writer of each.
-/

namespace RequestWriter

inductive Library where
  | fetch
  | axios
  | requests
  | httpx
  | netHttp
  | httparty
  deriving DecidableEq, Repr

namespace Library

/-- The dialect of the literals in its snippets. -/
def target : Library → Target
  | .fetch | .axios => .javascript
  | .requests | .httpx => .python
  | .netHttp | .httparty => .ruby

/-- The snippet of a request with its final headers. -/
def source : Library → Request → Headers → String
  | .fetch => JavaScript.fetch
  | .axios => JavaScript.axios
  | .requests => Python.requests
  | .httpx => Python.httpx
  | .netHttp => Ruby.netHttp
  | .httparty => Ruby.httparty

/-- The snippet with the records that its payload leaves. -/
def emit (library : Library) (r : Request) (headers : Headers) : Logged String :=
  Step.play (library.source r headers) (Payload.steps r)

/-- Headers that may not be well formed. Where a block of headers is written, it is empty when
they count as not given; Net::HTTP sets them one by one and needs a mapping. -/
def readHeaders (library : Library) (headers : Value) : Except Fault Headers :=
  match library with
  | .netHttp => LooseHeaders.toHeaders headers
  | _ => LooseHeaders.toHeadersIfGiven headers

/-- The snippet with headers that may not be well formed. Ruby looks at the payload before it looks
at the headers. -/
def emitLoose (library : Library) (r : Request) (headers : Value) : Logged String :=
  if library.target = .ruby then do
    Step.play () (Payload.steps r)
    let headers ← library.readHeaders headers
    return library.source r headers
  else do
    let headers ← library.readHeaders headers
    library.emit r headers

end Library

end RequestWriter
