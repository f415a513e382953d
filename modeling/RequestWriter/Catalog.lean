import RequestWriter.Snippet.Library
import RequestWriter.Snippet.Basic

/-!
# Catalog of languages

The languages that a page offers, each with its libraries. For some of them no code can be written
yet; they are listed all the same. A language is found by its name in any case, and a library that
the language does not have gives way to the language's first one.
-/

namespace RequestWriter

inductive Language where
  | javascript
  | python
  | ruby
  | php
  | go
  | java
  | csharp
  | swift
  | kotlin
  deriving DecidableEq, Repr

structure LanguageSpec where
  id : String
  displayName : String
  /-- The names of its libraries, the usual one first. -/
  variants : List String
  /-- Whether code can be written. -/
  implemented : Bool
  deriving DecidableEq, Repr

namespace Language

/-- All languages in the order of the catalog. -/
def all : List Language :=
  [.javascript, .python, .ruby, .php, .go, .java, .csharp, .swift, .kotlin]

/-- The name by which a language is asked for. -/
def id : Language → String
  | .javascript => "javascript"
  | .python => "python"
  | .ruby => "ruby"
  | .php => "php"
  | .go => "go"
  | .java => "java"
  | .csharp => "csharp"
  | .swift => "swift"
  | .kotlin => "kotlin"

def displayName : Language → String
  | .javascript => "JavaScript"
  | .python => "Python"
  | .ruby => "Ruby"
  | .php => "PHP"
  | .go => "Go"
  | .java => "Java"
  | .csharp => "C#"
  | .swift => "Swift"
  | .kotlin => "Kotlin"

/-- The names of the libraries that the catalog lists for a language, the usual one first. -/
def variants : Language → List String
  | .javascript => ["fetch", "axios"]
  | .python => ["requests", "httpx"]
  | .ruby => ["net_http", "httparty"]
  | .php => ["curl", "guzzle"]
  | .go => ["net_http"]
  | .java => ["okhttp", "httpclient"]
  | .csharp => ["httpclient"]
  | .swift => ["urlsession"]
  | .kotlin => ["okhttp"]

end Language

/-- The libraries for which the code of a language is written, under names of their own. -/
abbrev Emitter := List (String × Library)

/-- The library that has exactly this name. -/
def Emitter.library (emitter : Emitter) (variant : Value) : Except Fault Library :=
  match variant with
  | .scalar name =>
    match emitter.find? fun (own, _) => Scalar.text own == name with
    | some (_, library) => .ok library
    | none => .error .missingKey
  | _ => .error .wrongKind

namespace Language

/-- The emitter of a language, if code can be written. -/
def emitter? : Language → Option Emitter
  | .javascript => some [("fetch", .fetch), ("axios", .axios)]
  | .python => some [("requests", .requests), ("httpx", .httpx)]
  | .ruby => some [("net_http", .netHttp), ("httparty", .httparty)]
  | _ => none

def spec (l : Language) : LanguageSpec :=
  ⟨l.id, l.displayName, l.variants, l.emitter?.isSome⟩

end Language

/-- The library that is taken when none is asked for. -/
def LanguageSpec.defaultVariant (spec : LanguageSpec) : String := spec.variants.headD ""

namespace Catalog

def specs : List LanguageSpec := Language.all.map Language.spec

/-- The language of a name, in any case. -/
def lookup (name : String) : Except Fault Language :=
  match Language.all.find? fun l => l.id == Text.lower name with
  | some l => .ok l
  | none => .error (.unsupportedLanguage name (Language.all.map Language.id))

/-- The emitter of a language for which code can be written. -/
def emitter (l : Language) : Except Fault Emitter :=
  match l.emitter? with
  | some emitter => .ok emitter
  | none => .error (.notImplemented l.id)

/-- The record of a library that the language does not have. -/
def unknownVariant (spec : LanguageSpec) (variant : String) : LogRecord :=
  ⟨.warning, "request_snippets.generator.registry",
    "Unknown " ++ spec.id ++ " variant " ++ Text.quoted variant ++ ", using "
      ++ Text.quoted spec.defaultVariant⟩

/-- The name of the library that is taken: the one that is asked for, in any case, or the usual
one. -/
def choose (spec : LanguageSpec) (variant : Option String) : Logged String :=
  let asked := variant.getD ""
  if spec.variants.contains (Text.lower asked) then pure (Text.lower asked)
  else do
    if asked ≠ "" then Logged.note (unknownVariant spec asked)
    return spec.defaultVariant

/-- The language, the name of the library, and the emitter that has to know it. -/
def resolve (language : String) (variant : Option String) :
    Logged (Language × String × Emitter) := do
  let l ← lookup language
  let emitter ← emitter l
  let chosen ← choose l.spec variant
  return (l, chosen, emitter)

/-- The name of a library as a page gives it. Anything that counts as not given names none. -/
def variantOf (v : Value) : Except Fault (Option String) :=
  if v.truthy then
    match v.text? with
    | some s => .ok (some s)
    | none => .error .lacksOperation
  else .ok none

/-- The same for names as a page gives them. The name of the library is looked at last. -/
def resolveLoose (language variant : Value) : Logged (Language × String × Emitter) := do
  let l ← lookup language.display
  let emitter ← emitter l
  let variant ← variantOf variant
  let chosen ← choose l.spec variant
  return (l, chosen, emitter)

/-- The snippet of a request with its final headers. -/
def generate (language : String) (variant : Option String) (r : Request) (headers : Headers) :
    Logged Snippet := do
  let (l, chosen, emitter) ← resolve language variant
  let library ← emitter.library (.text chosen)
  let source ← library.emit r headers
  return ⟨l.id, chosen, source⟩

/-- The snippet for names and headers as a page gives them. -/
def generateLoose (language variant : Value) (r : Request) (headers : Value) : Logged Snippet := do
  let (l, chosen, emitter) ← resolveLoose language variant
  let library ← emitter.library (.text chosen)
  let source ← library.emitLoose r headers
  return ⟨l.id, chosen, source⟩

end Catalog

end RequestWriter
