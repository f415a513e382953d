import RequestWriter.Proofs.Loading
import RequestWriter.Proofs.Yaml.Portable
import RequestWriter.Proofs.Yaml.Reading

/-!
# Documents that are JSON texts

A document is read as YAML, also when its file holds JSON. With every library that reads flow style,
a portable text is loaded as the value that it has as a body: the same keys in the same order, the
same texts, and numbers of the same kind. Other JSON texts show that one library does not do for
both formats: a number can be loaded as a text.
-/

namespace RequestWriter

namespace Workspace

variable {ws : Workspace} {path : Path} {text : String}

/-- The file at a path holds a text, with its own line ends. -/
inductive Holds (ws : Workspace) (path : Path) (text : String) : Prop
  | intro {content : List UInt8} (named : namesPlace path.parts = true)
      (found : ws.tree.read (ws.start path) path.parts = .ok content)
      (decoded : Text.utf8Chars? content = some text.toList) : Holds ws path text

theorem Holds.hasText (h : ws.Holds path text) :
    ws.HasText (ws.start path) path.parts (String.ofList (Text.unifyLineEnds text.toList)) := by
  obtain ⟨named, found, decoded⟩ := h
  exact ⟨named, found, by rw [fileText?, decoded]; rfl⟩

/-- A workspace with nothing but a file. -/
def ofFile (name text : String) : Workspace where
  tree := ⟨[([name], .file (Text.utf8Bytes text.toList))], []⟩
  directoryName := "/"
  settings := []

end Workspace

namespace Api

open Json Json.Grammar

theorem load_of_holds [Yaml.Loader] {ws : Workspace} {path : Path} {text : String}
    (file : ws.Holds path text) :
    load ws path = ofText path.text (String.ofList (Text.unifyLineEnds text.toList)) := by
  rw [load, file.hasText.readText_eq, Logged.ok_bind]

/-- Only a mapping has the keys of a document. -/
theorem not_scalar_of_isApi {v : Value} (api : isApi v = true) (s : Scalar) : v ≠ .scalar s := by
  rintro rfl
  cases api

/-- A file with a text of flow style is loaded as its value, if that has the keys of a document. -/
theorem load_of_flow [Yaml.Loader] {depth : Nat} (flow : Yaml.Loader.ReadsFlow depth)
    {ws : Workspace} {path : Path} {text : String} {v : Value} (file : ws.Holds path text)
    (shallow : nesting text.toList ≤ depth)
    (spells : Yaml.Flow.Text (Text.unifyLineEnds text.toList) v) (api : isApi v = true) :
    load ws path = .ok ⟨[], v⟩ := by
  have chars : (String.ofList (Text.unifyLineEnds text.toList)).toList =
      Text.unifyLineEnds text.toList := String.toList_ofList
  rw [← chars] at spells
  have loaded := flow _ v spells (by rw [chars, nesting_unifyLineEnds]; exact shallow)
  rw [load_of_holds file, ofText, loaded]
  exact if_pos api

/-- With a library that reads flow style, a portable text with the keys of a document, in whatever
file it is, is loaded as the value that it has as a JSON body. -/
theorem load_eq_body [Yaml.Loader] (flow : Yaml.Loader.ReadsFlow 300) {ws : Workspace}
    {path : Path} {text : String} {v : Value} (file : ws.Holds path text)
    (shallow : nesting text.toList ≤ 300) (portable : PortableText text.toList v)
    (api : isApi v = true) :
    (Body.load (some text)).result = .ok (some v) ∧ load ws path = .ok ⟨[], v⟩ :=
  ⟨((Body.load_accepts_grammar text shallow).1 v).mpr portable.text,
    load_of_flow flow file shallow (portable.flow (not_scalar_of_isApi api)) api⟩

section Examples

/-- A document with a list of a number and an escape, whose lines end with a carriage return and a
newline. -/
def petsText : String :=
  "\x7b\"x\" : [1.5e+3, \"\\u00e9\"],\r\n\"openapi\": \"3.1.0\"\x7d\r\n"

def noBlanks : Blanks := ⟨[], List.forall_mem_nil _⟩

def oneSpace : Blanks := ⟨[' '], by simp [IsBlank]⟩

def returnNewline : Blanks := ⟨['\r', '\n'], by simp [IsBlank]⟩

/-- The number 1500.0 in the list of `petsText`. -/
def petsNumber : Item :=
  ⟨noBlanks, "1.5e+3".toList, noBlanks, .scalar (.float (double false ['1'] ['5'] (some 3)))⟩

def petsEscape : Item := ⟨oneSpace, "\"\\u00e9\"".toList, noBlanks, .text "é"⟩

def petsList : Member where
  before := noBlanks
  name := "x".toList
  key := "x".toList
  gap := oneSpace
  gap' := oneSpace
  text := "[1.5e+3, \"\\u00e9\"]".toList
  after := noBlanks
  value := .list [petsNumber.value, petsEscape.value]

def petsVersion : Member where
  before := returnNewline
  name := "openapi".toList
  key := "openapi".toList
  gap := noBlanks
  gap' := oneSpace
  text := "\"3.1.0\"".toList
  after := noBlanks
  value := .text "3.1.0"

def petsValue : Value := .object [("x", petsList.value), ("openapi", petsVersion.value)]

theorem portable_petsNumber : Portable petsNumber.text petsNumber.value := by
  have whole : Whole ['1'] := .digits (by decide) (by decide) (by simp)
  have fraction : Fraction ['.', '5'] ['5'] :=
    .present (by decide) (List.forall_mem_singleton.mpr rfl)
  have exponent : Exponent ['e', '+', '3'] (some 3) :=
    .present (.inl rfl) .plus (by decide) (List.forall_mem_singleton.mpr rfl)
  exact .number (.float .absent whole fraction exponent (.inl (by decide)) (by decide +kernel))
    ⟨by decide, .inl rfl⟩

theorem portable_petsEscape : Portable petsEscape.text petsEscape.value := by
  have unit : CodeUnit ['0', '0', 'e', '9'] 0xE9 :=
    .mk (.decimal (by decide) (by decide)) (.decimal (by decide) (by decide))
      (.small (by decide) (by decide)) (.decimal (by decide) (by decide))
  exact .string (.unit unit (.inl (by decide)) .nil)

theorem portable_petsText : PortableText petsText.toList petsValue := by
  have items : ∀ i ∈ [petsNumber, petsEscape], Portable i.text i.value :=
    List.forall_mem_cons.mpr
      ⟨portable_petsNumber, List.forall_mem_singleton.mpr portable_petsEscape⟩
  have both : ∀ {P : Member → Prop}, P petsList → P petsVersion →
      ∀ m ∈ [petsList, petsVersion], P m :=
    fun first second => List.forall_mem_cons.mpr ⟨first, List.forall_mem_singleton.mpr second⟩
  have keys : ∀ m ∈ [petsList, petsVersion], UnpairedChars m.name m.key :=
    both (unpairedChars_self (List.all_iff_forall_prop.mp (by decide)))
      (unpairedChars_self (List.all_iff_forall_prop.mp (by decide)))
  have near : ∀ m ∈ [petsList, petsVersion], Yaml.Flow.IsNear m :=
    both ⟨by simp [petsList, oneSpace], by decide⟩ ⟨by simp [petsVersion, noBlanks], by decide⟩
  have values : ∀ m ∈ [petsList, petsVersion], Portable m.text m.value :=
    both (.list (by simp) items)
      (.string (unpairedChars_self (t := "3.1.0".toList) (List.all_iff_forall_prop.mp (by decide))))
  have object : Portable
      ('\x7b' :: commas ([petsList, petsVersion].map Member.chars) ++ ['\x7d']) petsValue :=
    .object (by simp) keys near values
  exact .mk noBlanks returnNewline object (List.all_iff_forall_prop.mp (by decide +kernel))

/-- The conditions of `load_eq_body` hold for `petsText` in a file and the library of this
project. -/
theorem pets_loaded :
    (Body.load (some petsText)).result = .ok (some petsValue) ∧
      load (.ofFile "pets.json" petsText) (Path.ofText "pets.json") = .ok ⟨[], petsValue⟩ :=
  load_eq_body (Yaml.load_readsFlow 300) ⟨by decide, rfl, by decide +kernel⟩ (by decide +kernel)
    portable_petsText rfl

/-- A JSON text with one number, whose exponent has neither a fraction in front nor a sign. -/
def shortText : String := "\x7b\"openapi\": 1e3\x7d"

/-- The key of `shortText` with its number, which is a text in flow style. -/
def shortVersion : Member where
  before := noBlanks
  name := "openapi".toList
  key := "openapi".toList
  gap := noBlanks
  gap' := oneSpace
  text := "1e3".toList
  after := noBlanks
  value := .text "1e3"

theorem flow_shortText : Yaml.Flow.Text shortText.toList (.object [("openapi", .text "1e3")]) := by
  have one : Whole ['1'] := .digits (by decide) (by decide) (by simp)
  have word : Yaml.Flow.Word "1e3".toList (.text "1e3") :=
    .text .absent one .absent (.inl rfl) .absent (by simp)
      (List.forall_mem_singleton.mpr rfl) (.inl rfl)
  have plain : ∀ c ∈ shortText.toList, Yaml.Flow.IsChar c :=
    List.all_iff_forall_prop.mp (by decide)
  have name : UnpairedChars shortVersion.name shortVersion.key :=
    unpairedChars_self (List.all_iff_forall_prop.mp (by decide))
  have key : Yaml.Flow.Chars shortVersion.name shortVersion.key :=
    flowChars_of_unpaired name (List.all_iff_forall_prop.mp (by decide))
  have near : Yaml.Flow.IsNear shortVersion := ⟨by simp [shortVersion, noBlanks], by decide⟩
  have object : Yaml.Flow.Denotes
      ('\x7b' :: commas ([shortVersion].map Member.chars) ++ ['\x7d'])
      (.object [("openapi", .text "1e3")]) :=
    .object (by simp) (List.forall_mem_singleton.mpr key) (List.forall_mem_singleton.mpr near)
      (List.forall_mem_singleton.mpr (.word word))
  exact .mk noBlanks noBlanks object nofun plain

/-- With no library that reads flow style is every JSON text loaded as the value that it has as a
body: the number of `shortText` is loaded as a text. -/
theorem short_number_loaded_as_text :
    ¬∃ _ : Yaml.Loader, Yaml.Loader.ReadsFlow 300 ∧
      ∀ (ws : Workspace) (path : Path) (text : String) (v : Value), ws.Holds path text →
        nesting text.toList ≤ 300 → (Body.load (some text)).result = .ok (some v) →
        isApi v = true → load ws path = .ok ⟨[], v⟩ := by
  rintro ⟨_, flow, claim⟩
  have file : (Workspace.ofFile "doc.json" shortText).Holds (Path.ofText "doc.json") shortText :=
    ⟨by decide, rfl, by decide +kernel⟩
  have number : (Body.load (some shortText)).result =
      .ok (some (.object [("openapi", .scalar (.float (double false ['1'] [] (some 3))))])) := rfl
  have oneLine : Text.unifyLineEnds shortText.toList = shortText.toList := by decide
  have loaded := claim _ _ _ _ file (by decide) number rfl
  rw [load_of_flow flow file (by decide) (oneLine ▸ flow_shortText) rfl] at loaded
  cases loaded

end Examples

end Api

end RequestWriter
