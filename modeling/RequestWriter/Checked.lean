import RequestWriter.Value.Display
import RequestWriter.Text.Utf8
import RequestWriter.Fault

/-!
# Reading records from loose data

A record is read field by field, and every field is looked at, so that all issues are reported in
the order of the fields. Fields that the record does not know are passed over. Where a text is
wanted, bytes in UTF-8 are taken as one; nothing else becomes a text.
-/

namespace RequestWriter

/-- A value, or everything that is wrong with it. -/
inductive Checked (α : Type) where
  | ok (value : α)
  | bad (issues : List Issue)
  deriving Repr

namespace Checked

/-- Applies a function to a field; the issues of both add up. -/
protected def seq {α β : Type} (f : Checked (α → β)) (x : Unit → Checked α) : Checked β :=
  match f, x () with
  | .ok f, .ok a => .ok (f a)
  | .ok _, .bad j => .bad j
  | .bad i, .ok _ => .bad i
  | .bad i, .bad j => .bad (i ++ j)

instance : Applicative Checked where
  pure := .ok
  seq := Checked.seq

def issue {α : Type} (location : List String) (kind : IssueKind) : Checked α :=
  .bad [⟨location, kind⟩]

/-- Checks the parts of a container from the left. -/
def all {α β : Type} (check : α → Checked β) : List α → Checked (List β)
  | [] => .ok []
  | a :: rest => List.cons <$> check a <*> all check rest

/-- The record, or the fault that names the record and its issues. -/
def toExcept {α : Type} (model : Model) : Checked α → Except Fault α
  | .ok a => .ok a
  | .bad issues => .error (.invalid model issues)

/-- The issues; none if there is a value. -/
def issues {α : Type} : Checked α → List Issue
  | .ok _ => []
  | .bad issues => issues

end Checked

namespace Field

/-- How the value of a field is checked at a place. -/
abbrev Check (α : Type) := List String → Value → Checked α

def required {α : Type} (name : String) (check : Check α) (data : List (Scalar × Value)) :
    Checked α :=
  match Entries.get? (.text name) data with
  | some v => check [name] v
  | none => Checked.issue [name] .missing

/-- A field that has a value when it is not there. -/
def optional {α : Type} (name : String) (default : α) (check : Check α)
    (data : List (Scalar × Value)) : Checked α :=
  match Entries.get? (.text name) data with
  | some v => check [name] v
  | none => .ok default

def text : Check String := fun place v =>
  match v with
  | .scalar (.text s) => .ok s
  | .scalar (.bytes b) =>
    match Text.ofUtf8? b with
    | some s => .ok s
    | none => Checked.issue place .notUtf8
  | _ => Checked.issue place .notText

def textOrNull : Check (Option String) := fun place v =>
  if v.isNull then .ok none else some <$> text place v

/-- One of the names of an enumeration. -/
def choice {α : Type} (ofName? : String → Option α) : Check α := fun place v =>
  match text place v with
  | .ok s =>
    match ofName? s with
    | some a => .ok a
    | none => Checked.issue place .notChoice
  | .bad _ => Checked.issue place .notChoice

/-- A list of items that are checked by their index. -/
def list {α : Type} (check : Check α) : Check (List α) := fun place v =>
  match v with
  | .list items => Checked.all (fun (item, i) => check (place ++ [toString i]) item) items.zipIdx
  | _ => Checked.issue place .notList

/-- The key of a mapping of texts. -/
def textKey (place : List String) (k : Scalar) : Checked String :=
  text (place ++ [k.display, "[key]"]) (.scalar k)

def textMapping : Check (List (String × String)) := fun place v =>
  match v with
  | .mapping entries =>
    Entries.ofPairs <$> Checked.all (fun (k, item) =>
      Prod.mk <$> textKey place k <*> text (place ++ [k.display]) item) entries
  | _ => Checked.issue place .notMapping

def mapping : Check (List (Scalar × Value)) := fun place v =>
  match v with
  | .mapping entries => .ok entries
  | _ => Checked.issue place .notMapping

def mappingOrNull : Check (Option (List (Scalar × Value))) := fun place v =>
  if v.isNull then .ok none else some <$> mapping place v

/-- The truth value of a word, its letters in any case. -/
def boolOfWord? (s : String) : Option Bool :=
  let word := String.ofList (s.toList.map Char.toLower)
  if ["0", "off", "f", "n", "no", "false"].contains word then some false
  else if ["1", "on", "t", "y", "yes", "true"].contains word then some true
  else none

/-- The truth value of zero or one. -/
def boolOfInt? (i : Int) : Option Bool :=
  if i = 0 then some false else if i = 1 then some true else none

/-- The first whole number that does not fit 64 bits with a sign. -/
def wordLimit : Int := 0x8000000000000000

/-- A truth value, or a word or a number that stands for one. A whole number that does not fit 64
bits, and a number that is not whole, are no candidates at all. -/
def bool : Check Bool := fun place v =>
  let parsed (b : Option Bool) : Checked Bool :=
    match b with
    | some b => .ok b
    | none => Checked.issue place .unreadableBool
  let ofInt (i : Int) : Checked Bool :=
    if -wordLimit ≤ i ∧ i < wordLimit then parsed (boolOfInt? i) else Checked.issue place .notBool
  match v with
  | .scalar (.bool b) => .ok b
  | .scalar (.text s) => parsed (boolOfWord? s)
  | .scalar (.bytes b) => parsed ((Text.ofUtf8? b).bind boolOfWord?)
  | .scalar (.int i) => ofInt i
  | .scalar (.float d) =>
    match d.toInt? with
    | some i => if i = -wordLimit then Checked.issue place .notBool else ofInt i
    | none => Checked.issue place .notBool
  | _ => Checked.issue place .notBool

/-- The fields of a record given as a mapping. Field names are texts. -/
def ofMapping : Value → Except Fault (List (Scalar × Value))
  | .mapping entries =>
    if entries.all fun (k, _) => (Value.scalar k).text?.isSome then .ok entries
    else .error .wrongKind
  | _ => .error .wrongKind

end Field

end RequestWriter
