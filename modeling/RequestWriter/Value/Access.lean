import RequestWriter.Value
import RequestWriter.Fault
import RequestWriter.Text.Basic

/-!
# Access to loosely structured values

An API document is used as it is found: nothing has checked its structure beforehand. Each function
here is one access that takes a structure for granted, and its fault says that the structure is not
there. References are exposed at every access, so a document may contain itself.
-/

namespace RequestWriter.Value

/-- The entries of a value that is taken for a mapping. -/
def entries (g : Graph) (v : Value) : Except Fault (List (Scalar × Value)) :=
  match v.expose g with
  | .mapping es => .ok es
  | _ => .error .lacksOperation

/-- The value under a text key of a value that is taken for a mapping, if the key is there. -/
def lookup (g : Graph) (key : String) (v : Value) : Except Fault (Option Value) :=
  (fun es => Entries.get? (.text key) es) <$> v.entries g

/-- The value under a text key of a value that is taken for a mapping, or a default. -/
def lookupD (g : Graph) (key : String) (v : Value) (default : Value) : Except Fault Value :=
  (fun found => found.getD default) <$> v.lookup g key

/-- Whether a word is a key of a mapping, an item of a list, or a part of a text. -/
def mentions (g : Graph) (word : String) (v : Value) : Except Fault Bool :=
  match v.expose g with
  | .mapping es => .ok (Entries.has (.text word) es)
  | .list items => .ok (items.any (Value.isText word))
  | .scalar (.text s) => .ok (Text.occurs word.toList s.toList)
  | _ => .error .wrongKind

/-- The value under a word that a value mentions. Only a mapping can be asked for it. -/
def mentioned (g : Graph) (word : String) (v : Value) : Except Fault Value :=
  match v.expose g with
  | .mapping es =>
    match Entries.get? (.text word) es with
    | some found => .ok found
    | none => .error .missingKey
  | _ => .error .wrongKind

def ofChars (s : String) : List Value := s.toList.map fun c => text (String.ofList [c])

def ofOctets (b : List UInt8) : List Value := b.map fun o => int o.toNat

/-- The parts that a value has when it is gone through from front to back. -/
def parts (g : Graph) (v : Value) : Except Fault (List Value) :=
  match v.expose g with
  | .list items => .ok items
  | .mapping es => .ok (es.map fun (k, _) => .scalar k)
  | .scalar (.text s) => .ok (ofChars s)
  | .scalar (.bytes b) => .ok (ofOctets b)
  | _ => .error .wrongKind

/-- The parts of two values, one behind the other. The two have to be of one kind. -/
def partsOfBoth (g : Graph) (v w : Value) : Except Fault (List Value) :=
  match v.expose g, w.expose g with
  | .list a, .list b => .ok (a ++ b)
  | .scalar (.text a), .scalar (.text b) => .ok (ofChars a ++ ofChars b)
  | .scalar (.bytes a), .scalar (.bytes b) => .ok (ofOctets a ++ ofOctets b)
  | _, _ => .error .wrongKind

/-- The first of some choices: the first item of a list, the first character of a text, the entry
under zero of a mapping. -/
def first (g : Graph) (choices : Value) : Except Fault Value :=
  match choices.expose g with
  | .list (v :: _) => .ok v
  | .list [] => .error .outOfRange
  | .scalar (.text s) =>
    match s.toList with
    | c :: _ => .ok (text (String.ofList [c]))
    | [] => .error .outOfRange
  | .scalar (.bytes (b :: _)) => .ok (int b.toNat)
  | .scalar (.bytes []) => .error .outOfRange
  | .mapping es =>
    match Entries.get? (.int 0) es with
    | some v => .ok v
    | none => .error .missingKey
  | _ => .error .wrongKind

theorem entries_eq_ok_iff {g : Graph} {v : Value} {es : List (Scalar × Value)} :
    v.entries g = .ok es ↔ v.expose g = .mapping es := by
  unfold entries
  cases v.expose g <;> simp

theorem lookupD_of_mapping {g : Graph} {v : Value} {es : List (Scalar × Value)}
    (h : v.expose g = .mapping es) (key : String) (default : Value) :
    v.lookupD g key default = .ok ((Entries.get? (.text key) es).getD default) := by
  rw [lookupD, lookup, entries_eq_ok_iff.mpr h]
  rfl

@[simp] theorem entries_mapping (g : Graph) (es : List (Scalar × Value)) :
    (Value.mapping es).entries g = .ok es := rfl

@[simp] theorem partsOfBoth_list (g : Graph) (a b : List Value) :
    partsOfBoth g (.list a) (.list b) = .ok (a ++ b) := rfl

end RequestWriter.Value
