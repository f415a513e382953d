import RequestWriter.Proofs.Json.Nesting
import RequestWriter.Yaml.Load
import Mathlib.Data.Bool.AllAny

/-!
# Flow style

What the program relies on in every library that loads YAML: a part of the productions of version
1.1 of the format. It has the scalars between double quotes that stay on one line, the words that
the rules of the format give a tag, and flow collections of these, in a text whose lines end with
newlines. Unlike in JSON an exponent needs a point in front of it and a sign, otherwise the word is
a text; a key stands on the line of its colon, and not far from it.

The slots of collections are those of the grammar of JSON texts.
-/

namespace RequestWriter.Yaml

namespace Flow

open Json.Grammar hiding Chars Denotes Text

/-- A character of a text with newlines for line ends and without tabs. -/
structure IsChar (c : Char) : Prop where
  allowed : isAllowed c = true
  noTab : c ≠ '\t'
  noReturn : c ≠ '\r'
  line : isBreak c = true → c = '\n'

instance : DecidablePred IsChar := fun c =>
  decidable_of_iff (isAllowed c = true ∧ c ≠ '\t' ∧ c ≠ '\r' ∧ (isBreak c = true → c = '\n'))
    ⟨fun h => ⟨h.1, h.2.1, h.2.2.1, h.2.2.2⟩, fun h => ⟨h.allowed, h.noTab, h.noReturn, h.line⟩⟩

/-- The escapes of one letter. -/
def escapes : List (Char × Char) :=
  [('0', '\x00'), ('a', '\x07'), ('b', '\x08'), ('t', '\t'), ('n', '\n'), ('v', '\x0b'),
    ('f', '\x0c'), ('r', '\r'), ('e', '\x1b'), (' ', ' '), ('"', '"'), ('/', '/'), ('\\', '\\'),
    ('N', '\x85'), ('_', '\xa0'), ('L', '\u2028'), ('P', '\u2029')]

/-- The inside of a scalar between double quotes on one line, with the text that it stands for. -/
inductive Chars : List Char → List Char → Prop
  | nil : Chars [] []
  | plain {c : Char} {t s : List Char} (onLine : isBreak c = false) (noTab : c ≠ '\t')
      (noQuote : c ≠ '"') (noBackslash : c ≠ '\\') (rest : Chars t s) : Chars (c :: t) (c :: s)
  | escape {e c : Char} {t s : List Char} (letter : (e, c) ∈ escapes) (rest : Chars t s) :
      Chars ('\\' :: e :: t) (c :: s)
  | code {hex t s : List Char} {u : Nat} (digits : CodeUnit hex u)
      (whole : u < 0xD800 ∨ 0xDFFF < u) (rest : Chars t s) :
      Chars ('\\' :: 'u' :: hex ++ t) (Char.ofNat u :: s)

/-- The words for nothing. -/
def nulls : List String := ["null", "Null", "NULL"]

/-- The words for truth values. -/
def truths : List (String × Bool) :=
  [("yes", true), ("Yes", true), ("YES", true), ("no", false), ("No", false), ("NO", false),
    ("true", true), ("True", true), ("TRUE", true), ("false", false), ("False", false),
    ("FALSE", false), ("on", true), ("On", true), ("ON", true), ("off", false), ("Off", false),
    ("OFF", false)]

/-- An exponent with its sign, and its value. -/
inductive SignedExponent : List Char → Int → Prop
  | absent : SignedExponent [] 0
  | plus {e : Char} {ds : List Char} (mark : e = 'e' ∨ e = 'E') (nonempty : ds ≠ [])
      (digits : ∀ c ∈ ds, c.isDigit = true) : SignedExponent (e :: '+' :: ds) (spelled ds)
  | minus {e : Char} {ds : List Char} (mark : e = 'e' ∨ e = 'E') (nonempty : ds ≠ [])
      (digits : ∀ c ∈ ds, c.isDigit = true) : SignedExponent (e :: '-' :: ds) (-spelled ds)

/-- A scalar of one word without quotes, and its value. -/
inductive Word : List Char → Scalar → Prop
  | null {t : List Char} (known : String.ofList t ∈ nulls) : Word t .null
  | truth {t : List Char} {b : Bool} (known : (String.ofList t, b) ∈ truths) : Word t (.bool b)
  | integer {sign whole : List Char} {negative : Bool} (sgn : Minus sign negative)
      (int : Whole whole) (short : whole.length ≤ 4300) :
      Word (sign ++ whole) (.int (signed negative (spelled whole)))
  | real {sign whole fraction exp : List Char} {negative : Bool} {exponent : Int}
      (sgn : Minus sign negative) (int : Whole whole) (digits : ∀ c ∈ fraction, c.isDigit = true)
      (expPart : SignedExponent exp exponent) :
      Word (sign ++ (whole ++ '.' :: (fraction ++ exp)))
        (.float (Double.ofDecimal negative (spelled (whole ++ fraction))
          (exponent - fraction.length)))
  /-- Without a point or without its sign an exponent makes no number. -/
  | text {sign whole frac fraction expSign ds : List Char} {e : Char} {negative negative' : Bool}
      (sgn : Minus sign negative) (int : Whole whole) (fracPart : Fraction frac fraction)
      (mark : e = 'e' ∨ e = 'E') (expSgn : ExponentSign expSign negative') (nonempty : ds ≠ [])
      (digits : ∀ c ∈ ds, c.isDigit = true) (short : frac = [] ∨ expSign = []) :
      Word (sign ++ (whole ++ (frac ++ e :: (expSign ++ ds))))
        (.text (String.ofList (sign ++ (whole ++ (frac ++ e :: (expSign ++ ds))))))

/-- The colon of a member stands behind spaces, not too far from the front of its key. -/
structure IsNear (m : Member) : Prop where
  spaces : ∀ c ∈ m.gap.1, c = ' '
  near : m.name.length + 2 + m.gap.1.length ≤ longestKey

/-- A scalar or a flow collection, and its value. Of the assignments to one key the last one
counts. -/
inductive Denotes : List Char → Value → Prop
  | word {t : List Char} {s : Scalar} (h : Word t s) : Denotes t (.scalar s)
  | string {t s : List Char} (h : Chars t s) :
      Denotes ('"' :: t ++ ['"']) (.text (String.ofList s))
  | emptyList (b : Blanks) : Denotes ('[' :: b ++ [']']) (.list [])
  | list {items : List Item} (nonempty : items ≠ [])
      (values : ∀ i ∈ items, Denotes i.text i.value) :
      Denotes ('[' :: commas (items.map Item.chars) ++ [']']) (.list (items.map Item.value))
  | emptyObject (b : Blanks) : Denotes ('\x7b' :: b ++ ['\x7d']) (.mapping [])
  | object {members : List Member} (nonempty : members ≠ [])
      (keys : ∀ m ∈ members, Chars m.name m.key) (near : ∀ m ∈ members, IsNear m)
      (values : ∀ m ∈ members, Denotes m.text m.value) :
      Denotes ('\x7b' :: commas (members.map Member.chars) ++ ['\x7d'])
        (assigned (members.map Member.pair))

/-- A text that is one flow collection between blanks, and its value. -/
inductive Text : List Char → Value → Prop
  | mk (before after : Blanks) {t : List Char} {v : Value} (h : Denotes t v)
      (collection : ∀ s, v ≠ .scalar s) (chars : ∀ c ∈ before ++ t ++ after, IsChar c) :
      Text (before ++ t ++ after) v

end Flow

/-- The library reads the texts of flow style that are nested at most so deep. -/
def Loader.ReadsFlow [Loader] (depth : Nat) : Prop :=
  ∀ text v, Flow.Text text.toList v → Json.nesting text.toList ≤ depth →
    Loader.load text = .ok ⟨[], v⟩

namespace Flow

open Json.Grammar hiding Chars Denotes Text

variable {t s : List Char} {v : Value}

theorem hexDigit_onLine {c : Char} {n : Nat} (h : HexDigit c n) : isBreak c = false ∧ c ≠ '\t' := by
  have other {x : Char} (far : x.toNat < 48 ∨ 102 < x.toNat) : c ≠ x := by
    rintro rfl
    rw [Json.hexDigit_iff] at h
    omega
  constructor
  · simp only [isBreak, Bool.or_eq_false_iff, beq_eq_false_iff_ne]
    exact ⟨⟨⟨other (by decide), other (by decide)⟩, other (by decide)⟩, other (by decide)⟩
  · exact other (by decide)

/-- The inside of a scalar stays on its line. -/
theorem Chars.onLine (h : Chars t s) : ∀ c ∈ t, isBreak c = false ∧ c ≠ '\t' := by
  have letters : ∀ pair ∈ escapes, isBreak pair.1 = false ∧ pair.1 ≠ '\t' :=
    List.all_iff_forall_prop.mp (by decide)
  induction h with
  | nil => simp
  | plain onLine noTab _ _ _ ih => exact List.forall_mem_cons.mpr ⟨⟨onLine, noTab⟩, ih⟩
  | escape letter _ ih =>
    exact List.forall_mem_cons.mpr ⟨by decide, List.forall_mem_cons.mpr ⟨letters _ letter, ih⟩⟩
  | code digits _ _ ih =>
    rw [List.cons_append, List.cons_append, List.forall_mem_cons, List.forall_mem_cons,
      List.forall_mem_append]
    refine ⟨by decide, by decide, fun c hc => ?_, ih⟩
    obtain ⟨n, digit⟩ := Json.hexDigit_of_mem digits c hc
    exact hexDigit_onLine digit

end Flow

end RequestWriter.Yaml
