import RequestWriter.Api.Load
import RequestWriter.Configuration
import RequestWriter.Proofs.Chain
import RequestWriter.Proofs.Entries
import RequestWriter.Yaml.Load

/-!
# How loading a file can fail

A document and a configuration are read from a file by the same steps: the file is found, its octets
are decoded, the library reads the text, and its value is taken for a mapping. Each loader announces
its failures as its own. Some steps fail in another way, and then the fault goes through: a path
that the system does not take for a name, octets that are not UTF-8, a text over which the library
breaks down, and, for a configuration, a key that is no text. Nothing else does, whatever the
library makes of a text.
-/

namespace RequestWriter

/-- The fault is announced by the loader of documents. -/
def Fault.IsDocument : Fault → Prop
  | .document _ => True
  | _ => False

/-- The fault is announced by the loader of configurations. -/
def Fault.IsConfig : Fault → Prop
  | .config _ => True
  | _ => False

theorem Fault.not_own_of_unforeseen {fault : Fault} (h : fault.message? = none) :
    ¬fault.IsDocument ∧ ¬fault.IsConfig := by
  cases fault with
  | document | config => cases h
  | _ => exact ⟨id, id⟩

/-- The text of a file, if its octets are UTF-8. -/
def fileText? (content : List UInt8) : Option String :=
  (Text.utf8Chars? content).map fun cs => String.ofList (Text.unifyLineEnds cs)

section Reading

variable {ws : Workspace} {start : Location} {parts : List String} {text : String} {fault : Fault}
  {announce : FileFault → Fault}

/-- There is a file under a name, and it holds a text. -/
inductive Workspace.HasText (ws : Workspace) (start : Location) (parts : List String)
    (text : String) : Prop
  | intro {content : List UInt8} (named : Workspace.namesPlace parts = true)
      (found : ws.tree.read start parts = .ok content)
      (decoded : fileText? content = some text) : HasText ws start parts text

/-- What breaks the reading of a file, before the library has a text. -/
inductive Workspace.Unreadable (ws : Workspace) (start : Location) (parts : List String) :
    Fault → Prop
  | name (unnamed : Workspace.namesPlace parts = false) : Unreadable ws start parts .badValue
  | octets {content : List UInt8} (named : Workspace.namesPlace parts = true)
      (found : ws.tree.read start parts = .ok content) (undecoded : fileText? content = none) :
      Unreadable ws start parts .notUtf8

namespace Workspace

theorem readText_of_unnamed (h : namesPlace parts = false) :
    ws.readText start parts announce = .error .badValue := by
  rw [readText, h]
  rfl

theorem readText_of_error {reason : FileFault} (named : namesPlace parts = true)
    (h : ws.tree.read start parts = .error reason) :
    ws.readText start parts announce = .error (announce reason) := by
  rw [readText, if_pos named, h]

theorem readText_of_ok {content : List UInt8} (named : namesPlace parts = true)
    (h : ws.tree.read start parts = .ok content) :
    ws.readText start parts announce = (fileText? content).elim (.error .notUtf8) .ok := by
  simp only [readText, named, h, fileText?]
  cases Text.utf8Chars? content <;> rfl

/-- How a reading can end: with the text, with what the caller says about a file that cannot be
used, or with a fault of its own. -/
theorem readText_cases (ws : Workspace) (start : Location) (parts : List String)
    (announce : FileFault → Fault) :
    (∃ text, ws.readText start parts announce = .ok text ∧ ws.HasText start parts text) ∨
    (∃ reason, ws.readText start parts announce = .error (announce reason) ∧
      namesPlace parts = true ∧ ws.tree.read start parts = .error reason) ∨
    ∃ fault, ws.readText start parts announce = .error fault ∧ ws.Unreadable start parts fault := by
  cases named : namesPlace parts with
  | false => exact .inr (.inr ⟨_, readText_of_unnamed named, .name named⟩)
  | true =>
    cases found : ws.tree.read start parts with
    | error reason => exact .inr (.inl ⟨reason, readText_of_error named found, rfl, rfl⟩)
    | ok content =>
      have read : ws.readText start parts announce = _ := readText_of_ok named found
      cases decoded : fileText? content with
      | none =>
        rw [decoded] at read
        exact .inr (.inr ⟨_, read, .octets named found decoded⟩)
      | some text =>
        rw [decoded] at read
        exact .inl ⟨text, read, named, found, decoded⟩

theorem HasText.readText_eq (h : ws.HasText start parts text) :
    ws.readText start parts announce = .ok text := by
  obtain ⟨named, found, decoded⟩ := h
  rw [readText_of_ok named found, decoded]
  rfl

theorem Unreadable.readText_eq (h : ws.Unreadable start parts fault) :
    ws.readText start parts announce = .error fault := by
  cases h with
  | name unnamed => exact readText_of_unnamed unnamed
  | octets named found undecoded =>
    rw [readText_of_ok named found, undecoded]
    rfl

theorem readText_eq_ok_iff :
    ws.readText start parts announce = .ok text ↔ ws.HasText start parts text := by
  refine ⟨fun h => ?_, HasText.readText_eq⟩
  rcases readText_cases ws start parts announce with
    ⟨found, read, has⟩ | ⟨_, read, -⟩ | ⟨_, read, -⟩
  · cases h.symm.trans read
    exact has
  · cases h.symm.trans read
  · cases h.symm.trans read

/-- Of the faults of a reading those that the caller does not announce are its own. -/
theorem readText_broken_iff {announced : Fault → Prop} (own : ∀ reason, announced (announce reason))
    (others : ∀ fault, fault.message? = none → ¬announced fault) :
    (ws.readText start parts announce = .error fault ∧ ¬announced fault) ↔
      ws.Unreadable start parts fault := by
  constructor
  · rintro ⟨h, foreign⟩
    rcases readText_cases ws start parts announce with
      ⟨_, read, -⟩ | ⟨reason, read, -⟩ | ⟨found, read, unreadable⟩
    · cases h.symm.trans read
    · cases h.symm.trans read
      exact absurd (own reason) foreign
    · cases h.symm.trans read
      exact unreadable
  · intro h
    refine ⟨h.readText_eq, others fault ?_⟩
    cases h <;> rfl

end Workspace

end Reading

/-- The fault of a refusal is not announced exactly when the library breaks down. -/
theorem Yaml.Refusal.fault_broken_iff {refusal : Refusal} {own fault : Fault}
    {announced : Fault → Prop} (isOwn : announced own)
    (others : ∀ fault, fault.message? = none → ¬announced fault) :
    (refusal.fault own = fault ∧ ¬announced fault) ↔
      ∃ unforeseen, refusal = .broken fault unforeseen := by
  cases refusal with
  | malformed =>
    refine iff_of_false ?_ nofun
    rintro ⟨rfl, foreign⟩
    exact foreign isOwn
  | broken found unforeseen =>
    constructor
    · rintro ⟨rfl, -⟩
      exact ⟨unforeseen, rfl⟩
    · rintro ⟨_, ⟨⟩⟩
      exact ⟨rfl, others _ unforeseen⟩

namespace Api

/-- A document is a mapping with one of the keys that name a version. -/
theorem exists_of_isApi {v : Value} (h : isApi v = true) :
    ∃ entries, v = .mapping entries ∧
      ∃ key ∈ ["openapi", "swagger"], ∃ version, (Scalar.text key, version) ∈ entries := by
  rw [isApi, Bool.or_eq_true] at h
  have found : ∃ key ∈ ["openapi", "swagger"], ∃ version, v.get? key = some version := by
    rcases h with h | h <;> obtain ⟨version, h⟩ := Option.isSome_iff_exists.mp h
    · exact ⟨"openapi", by simp, version, h⟩
    · exact ⟨"swagger", by simp, version, h⟩
  obtain ⟨key, named, version, h⟩ := found
  cases v with
  | mapping entries =>
    exact ⟨entries, rfl, key, named, version, (Scalar.exact_text _).mem_of_get? h⟩
  | _ => cases h

end Api

namespace Configuration

/-- Some entry has a key that is no text. -/
def HasOtherKey (entries : List (Scalar × Value)) : Prop :=
  ∃ key ∈ entries.map Prod.fst, ∀ s, key ≠ .text s

theorem not_hasOtherKey_nil : ¬HasOtherKey [] := by
  rintro ⟨key, mem, -⟩
  cases mem

theorem hasOtherKey_put (name : String) (v : Value) (entries : List (Scalar × Value)) :
    HasOtherKey (Entries.put (.text name) v entries) ↔ HasOtherKey entries := by
  have keys := Entries.keys_put (.text name) v entries
  unfold Entries.keys at keys
  unfold HasOtherKey
  rw [keys]
  split
  · rfl
  · constructor
    · rintro ⟨key, mem, other⟩
      rcases List.mem_append.mp mem with mem | mem
      · exact ⟨key, mem, other⟩
      · exact absurd (List.mem_singleton.mp mem) (other name)
    · rintro ⟨key, mem, other⟩
      exact ⟨key, List.mem_append_left _ mem, other⟩

theorem hasOtherKey_overrideServer (server : Option String) (entries : List (Scalar × Value)) :
    HasOtherKey (overrideServer server entries) ↔ HasOtherKey entries := by
  cases server with
  | none => rfl
  | some url => exact hasOtherKey_put _ _ _

theorem all_text_iff (entries : List (Scalar × Value)) :
    (entries.all fun (k, _) => (Value.scalar k).text?.isSome) = true ↔ ¬HasOtherKey entries := by
  have isText (k : Scalar) : (Value.scalar k).text?.isSome = true ↔ ∃ s, k = .text s := by
    cases k <;> simp [Value.text?]
  rw [List.all_eq_true]
  constructor
  · rintro texts ⟨key, mem, other⟩
    obtain ⟨entry, found, rfl⟩ := List.mem_map.mp mem
    obtain ⟨s, text⟩ := (isText entry.1).mp (texts entry found)
    exact other s text
  · intro none entry mem
    refine (isText entry.1).mpr (by_contra fun other => none ?_)
    exact ⟨entry.1, List.mem_map_of_mem mem, not_exists.mp other⟩

/-- The checks of the fields are all announced; the names of the fields are not checked first. -/
theorem ofEntries_broken_iff {entries : List (Scalar × Value)} {fault : Fault} :
    (ofEntries entries = .error fault ∧ ¬fault.IsConfig) ↔
      fault = .wrongKind ∧ HasOtherKey entries := by
  by_cases other : HasOtherKey entries
  · have refused : ofEntries entries = .error .wrongKind := by
      rw [ofEntries, Field.ofMapping, if_neg (mt (all_text_iff entries).mp (not_not_intro other))]
      rfl
    rw [refused]
    refine ⟨fun h => ⟨(Except.error.inj h.1).symm, other⟩, ?_⟩
    rintro ⟨rfl, -⟩
    exact ⟨rfl, id⟩
  · refine iff_of_false ?_ fun h => other h.2
    rintro ⟨refused, foreign⟩
    rw [ofEntries, Field.ofMapping, if_pos ((all_text_iff entries).mpr other)] at refused
    rw [Logged.ok_bind] at refused
    split at refused
    · cases refused
    · cases refused
      exact foreign trivial

theorem ofEntries_overrideServer_broken_iff {server : Option String}
    {entries : List (Scalar × Value)} {fault : Fault} :
    (ofEntries (overrideServer server entries) = .error fault ∧ ¬fault.IsConfig) ↔
      fault = .wrongKind ∧ HasOtherKey entries := by
  rw [ofEntries_broken_iff, hasOtherKey_overrideServer]

end Configuration

section Loading

variable [Yaml.Loader] {ws : Workspace} {start : Location} {parts : List String} {fault : Fault}

/-- What breaks a loader of files: the reading of the file, or a text over which the library breaks
down. -/
inductive Breaks (ws : Workspace) (start : Location) (parts : List String) : Fault → Prop
  | reading {fault : Fault} (h : ws.Unreadable start parts fault) : Breaks ws start parts fault
  | text {text : String} {fault : Fault} {unforeseen : fault.message? = none}
      (has : ws.HasText start parts text)
      (down : Yaml.Loader.load text = .error (.broken fault unforeseen)) :
      Breaks ws start parts fault

/-- A loader that announces a file which cannot be used, and all that it has against a text but the
break-down of the library, is broken by the file alone. -/
theorem loader_broken_iff {α : Type} {announce : FileFault → Fault} {announced : Fault → Prop}
    {made : String → Except Fault α} (own : ∀ reason, announced (announce reason))
    (others : ∀ fault, fault.message? = none → ¬announced fault)
    (made_broken_iff : ∀ text, (made text = .error fault ∧ ¬announced fault) ↔
      ∃ unforeseen, Yaml.Loader.load text = .error (.broken fault unforeseen)) :
    (ws.readText start parts announce >>= made = .error fault ∧ ¬announced fault) ↔
      Breaks ws start parts fault := by
  constructor
  · rintro ⟨h, foreign⟩
    cases read : ws.readText start parts announce with
    | error found =>
      rw [read] at h
      cases h
      exact .reading ((Workspace.readText_broken_iff own others).mp ⟨read, foreign⟩)
    | ok text =>
      rw [read] at h
      obtain ⟨_, down⟩ := (made_broken_iff text).mp ⟨h, foreign⟩
      exact .text (Workspace.readText_eq_ok_iff.mp read) down
  · rintro (unreadable | ⟨has, down⟩)
    · obtain ⟨read, foreign⟩ := (Workspace.readText_broken_iff own others).mpr unreadable
      rw [read]
      exact ⟨rfl, foreign⟩
    · rw [has.readText_eq]
      exact (made_broken_iff _).mpr ⟨_, down⟩

namespace Api

theorem isApi_of_ofText {path text : String} {doc : Document} (h : ofText path text = .ok doc) :
    isApi doc.root = true := by
  unfold ofText at h
  cases loaded : Yaml.Loader.load text with
  | error refusal => simp [loaded] at h
  | ok found =>
    simp only [loaded] at h
    split at h
    · next api =>
      cases h
      exact api
    · cases h

theorem isApi_of_load {path : Path} {doc : Document} (h : load ws path = .ok doc) :
    isApi doc.root = true := by
  obtain ⟨text, -, made⟩ := Chain.bind_eq_ok_iff.mp h
  exact isApi_of_ofText made

theorem ofText_broken_iff {path text : String} :
    (ofText path text = .error fault ∧ ¬fault.IsDocument) ↔
      ∃ unforeseen, Yaml.Loader.load text = .error (.broken fault unforeseen) := by
  unfold ofText
  cases Yaml.Loader.load text with
  | error refusal =>
    have own : Fault.IsDocument (.document (.unparsable path)) := trivial
    simpa using refusal.fault_broken_iff own fun _ h => (Fault.not_own_of_unforeseen h).1
  | ok doc =>
    dsimp only
    refine iff_of_false ?_ nofun
    rintro ⟨refused, foreign⟩
    split at refused
    · cases refused
    · cases refused
      exact foreign trivial

/-- The loader of documents fails in another way than its own exactly when the file breaks it. -/
theorem load_broken_iff {path : Path} :
    (load ws path = .error fault ∧ ¬fault.IsDocument) ↔
      Breaks ws (ws.start path) path.parts fault :=
  loader_broken_iff (fun _ => trivial) (fun _ h => (Fault.not_own_of_unforeseen h).1)
    fun _ => ofText_broken_iff

end Api

namespace Configuration

/-- What breaks the loader of configurations: whatever breaks a reader of files, and a key that is
no text, since every key is taken for the name of a field. -/
inductive Breaks (ws : Workspace) (s : Source) : Fault → Prop
  | reading {fault : Fault} (h : RequestWriter.Breaks ws s.start s.parts fault) : Breaks ws s fault
  | key {text : String} {doc : Document} {entries : List (Scalar × Value)}
      (has : ws.HasText s.start s.parts text) (loaded : Yaml.Loader.load text = .ok doc)
      (root : doc.root = .mapping entries) (other : HasOtherKey entries) :
      Breaks ws s .wrongKind

theorem entriesOfText_broken_iff {name text : String} :
    (entriesOfText name text = .error fault ∧ ¬fault.IsConfig) ↔
      ∃ unforeseen, Yaml.Loader.load text = .error (.broken fault unforeseen) := by
  unfold entriesOfText
  cases Yaml.Loader.load text with
  | error refusal =>
    have own : Fault.IsConfig (.config (.unparsable name)) := trivial
    simpa using refusal.fault_broken_iff own fun _ h => (Fault.not_own_of_unforeseen h).2
  | ok doc =>
    dsimp only
    refine iff_of_false ?_ nofun
    rintro ⟨refused, foreign⟩
    split at refused
    · split at refused
      · cases refused
      · cases refused
        exact foreign trivial
    · cases refused

/-- The entries of a text with another key are those of the mapping that it spells. -/
theorem entriesOfText_hasOtherKey_iff (name : String) {text : String} :
    (∃ entries, entriesOfText name text = .ok entries ∧ HasOtherKey entries) ↔
      ∃ doc entries, Yaml.Loader.load text = .ok doc ∧ doc.root = .mapping entries ∧
        HasOtherKey entries := by
  unfold entriesOfText
  cases Yaml.Loader.load text with
  | error refusal => simp
  | ok doc =>
    simp only [Except.ok.injEq, exists_eq_left', exists_and_left]
    constructor
    · rintro ⟨entries, found, other⟩
      split at found
      · split at found
        · next root =>
          cases found
          exact ⟨entries, root, other⟩
        · cases found
      · cases found
        exact absurd other not_hasOtherKey_nil
    · rintro ⟨entries, root, other⟩
      have given : doc.root.truthy = true := by
        cases entries with
        | nil => exact absurd other not_hasOtherKey_nil
        | cons => rw [root]; rfl
      refine ⟨entries, ?_, other⟩
      rw [if_pos given, root]

theorem entriesOfFile_broken_iff {s : Source} :
    (entriesOfFile ws s = .error fault ∧ ¬fault.IsConfig) ↔
      RequestWriter.Breaks ws s.start s.parts fault :=
  loader_broken_iff (fun _ => trivial) (fun _ h => (Fault.not_own_of_unforeseen h).2)
    fun _ => entriesOfText_broken_iff

theorem entriesOfFile_hasOtherKey_iff {s : Source} :
    (∃ entries, entriesOfFile ws s = .ok entries ∧ HasOtherKey entries) ↔
      ∃ text doc entries, ws.HasText s.start s.parts text ∧ Yaml.Loader.load text = .ok doc ∧
        doc.root = .mapping entries ∧ HasOtherKey entries := by
  constructor
  · rintro ⟨entries, found, other⟩
    obtain ⟨text, read, made⟩ := Chain.bind_eq_ok_iff.mp found
    obtain ⟨doc, entries, loaded, root, other⟩ :=
      (entriesOfText_hasOtherKey_iff s.name).mp ⟨entries, made, other⟩
    exact ⟨text, doc, entries, Workspace.readText_eq_ok_iff.mp read, loaded, root, other⟩
  · rintro ⟨text, doc, entries, has, loaded, root, other⟩
    obtain ⟨entries, made, other⟩ :=
      (entriesOfText_hasOtherKey_iff s.name).mpr ⟨doc, entries, loaded, root, other⟩
    exact ⟨entries, Chain.bind_eq_ok_iff.mpr ⟨text, has.readText_eq, made⟩, other⟩

theorem result_entries (ws : Workspace) (s : Source) :
    (entries ws (some s)).result = entriesOfFile ws s := by
  rw [entries, Logged.result_bind, Logged.result_liftM]
  cases entriesOfFile ws s <;> rfl

/-- The loader is broken while it reads the file, or by what it has read. -/
theorem result_load_broken_iff {explicit : Option Path} :
    ((load ws explicit).result = .error fault ∧ ¬fault.IsConfig) ↔
      ∃ s, source? ws explicit = some s ∧
        ((entriesOfFile ws s = .error fault ∧ ¬fault.IsConfig) ∨
          fault = .wrongKind ∧ ∃ found, entriesOfFile ws s = .ok found ∧ HasOtherKey found) := by
  rw [load, Logged.result_bind]
  simp only [Logged.result_liftM]
  cases source? ws explicit with
  | none =>
    -- Without a file the only name of a field can be the one that a variable sets, a text.
    refine iff_of_false (fun h => ?_) nofun
    exact not_hasOtherKey_nil (ofEntries_overrideServer_broken_iff.mp h).2
  | some s =>
    simp only [result_entries, Option.some.injEq, exists_eq_left']
    cases entriesOfFile ws s with
    | error own => simp
    | ok found => simpa using ofEntries_overrideServer_broken_iff

/-- The loader of configurations fails in another way than its own exactly when the file breaks
it. -/
theorem load_broken_iff {explicit : Option Path} :
    ((load ws explicit).result = .error fault ∧ ¬fault.IsConfig) ↔
      ∃ s, source? ws explicit = some s ∧ Breaks ws s fault := by
  rw [result_load_broken_iff]
  simp only [entriesOfFile_broken_iff, entriesOfFile_hasOtherKey_iff]
  constructor
  · rintro ⟨s, source, reading | ⟨rfl, text, doc, entries, has, loaded, root, other⟩⟩
    · exact ⟨s, source, .reading reading⟩
    · exact ⟨s, source, .key has loaded root other⟩
  · rintro ⟨s, source, reading | ⟨has, loaded, root, other⟩⟩
    · exact ⟨s, source, .inl reading⟩
    · exact ⟨s, source, .inr ⟨rfl, _, _, _, has, loaded, root, other⟩⟩

end Configuration

/-- What loading gives, whatever the library makes of a text. A document that is loaded names the
version of its format. A loader that fails announces it, unless the file breaks the loader. -/
theorem Workspace.load_outcomes (ws : Workspace) :
    (∀ path doc, Api.load ws path = .ok doc →
      ∃ entries, doc.root = .mapping entries ∧
        ∃ key ∈ ["openapi", "swagger"], ∃ version, (Scalar.text key, version) ∈ entries) ∧
    (∀ path fault, (Api.load ws path = .error fault ∧ ¬fault.IsDocument) ↔
      Breaks ws (ws.start path) path.parts fault) ∧
    (∀ explicit fault,
      ((Configuration.load ws explicit).result = .error fault ∧ ¬fault.IsConfig) ↔
        ∃ s, Configuration.source? ws explicit = some s ∧ Configuration.Breaks ws s fault) :=
  ⟨fun _ _ h => Api.exists_of_isApi (Api.isApi_of_load h), fun _ _ => Api.load_broken_iff,
    fun _ _ => Configuration.load_broken_iff⟩

end Loading

section Examples

/-- The fault of an outcome that is no value. -/
def failure? {α : Type} : Except Fault α → Option Fault
  | .ok _ => none
  | .error fault => some fault

theorem failure?_eq_none_iff {α : Type} {outcome : Except Fault α} :
    failure? outcome = none ↔ ∃ a, outcome = .ok a := by
  cases outcome <;> simp [failure?]

theorem failure?_eq_some_iff {α : Type} {outcome : Except Fault α} {fault : Fault} :
    failure? outcome = some fault ↔ outcome = .error fault := by
  cases outcome <;> simp [failure?]

/-- Three files: a document, one whose version is a day that the calendar does not have, and a
configuration with a number for a key. -/
def brokenSite : Workspace where
  tree := ⟨[("pets.yaml", "openapi: 3.1.0\n"), ("days.yaml", "openapi: 2024-13-45\n"),
    ("request_snippets.yml", "1: x\n")].map fun (name, text) =>
      ([name], .file (Text.utf8Bytes text.toList)), []⟩
  directoryName := "/"
  settings := []

theorem failure?_brokenSite :
    failure? (Api.load brokenSite (Path.ofText "pets.yaml")) = none ∧
      failure? (Api.load brokenSite (Path.ofText "days.yaml")) = some .badValue ∧
      failure? (Configuration.load brokenSite none).result = some .wrongKind := by
  decide +kernel

/-- The document of `brokenSite` names a version, and the other files break their loaders. -/
theorem site_broken :
    (∃ doc entries, Api.load brokenSite (Path.ofText "pets.yaml") = .ok doc ∧
      doc.root = .mapping entries ∧
        ∃ key ∈ ["openapi", "swagger"], ∃ version, (Scalar.text key, version) ∈ entries) ∧
    Breaks brokenSite [] ["days.yaml"] .badValue ∧
    ∃ s, Configuration.source? brokenSite none = some s ∧
      Configuration.Breaks brokenSite s .wrongKind := by
  obtain ⟨pets, day, key⟩ := failure?_brokenSite
  obtain ⟨versions, documents, configurations⟩ := Workspace.load_outcomes brokenSite
  refine ⟨?_, ?_, ?_⟩
  · obtain ⟨doc, loaded⟩ := failure?_eq_none_iff.mp pets
    obtain ⟨entries, version⟩ := versions _ doc loaded
    exact ⟨doc, entries, loaded, version⟩
  · exact (documents (Path.ofText "days.yaml") .badValue).mp ⟨failure?_eq_some_iff.mp day, id⟩
  · exact (configurations none .wrongKind).mp ⟨failure?_eq_some_iff.mp key, id⟩

/-- A file of one octet that is no UTF-8. -/
def octetSite : Workspace := ⟨⟨[(["pets.yaml"], .file [0xFF])], []⟩, "/", []⟩

theorem octetSite_unreadable :
    octetSite.Unreadable [] (Path.ofText "pets.yaml").parts .notUtf8 := by
  have parts : (Path.ofText "pets.yaml").parts = ["pets.yaml"] := by decide
  rw [parts]
  exact .octets (by decide) rfl (by decide)

/-- With no library do the loaders fail with the faults that they announce alone: some octets are
refused before the library has a text. -/
theorem loaders_fail_otherwise :
    ¬∃ _ : Yaml.Loader, ∀ ws : Workspace,
      (∀ path, (∃ doc, Api.load ws path = .ok doc) ∨
        ∃ cause, Api.load ws path = .error (.document cause)) ∧
      ∀ explicit, (∃ c, (Configuration.load ws explicit).result = .ok c) ∨
        ∃ cause, (Configuration.load ws explicit).result = .error (.config cause) := by
  rintro ⟨_, claim⟩
  have unreadable : Breaks octetSite _ _ _ := .reading octetSite_unreadable
  obtain ⟨refused, -⟩ : Api.load octetSite (Path.ofText "pets.yaml") = _ ∧ _ :=
    Api.load_broken_iff.mpr unreadable
  rcases (claim octetSite).1 (Path.ofText "pets.yaml") with ⟨doc, loaded⟩ | ⟨cause, announced⟩
  · cases refused.symm.trans loaded
  · cases refused.symm.trans announced

end Examples

end RequestWriter
