/-!
# Searching and joining text

The few operations on text that the writers and readers share. Each one is a recursion on the
characters, so that a statement about it is proved by induction on the text.
-/

namespace RequestWriter.Text

def join (sep : String) : List String → String
  | [] => ""
  | [s] => s
  | s :: rest => s ++ sep ++ join sep rest

@[simp] theorem join_nil (sep : String) : join sep [] = "" := rfl

@[simp] theorem join_singleton (sep s : String) : join sep [s] = s := rfl

theorem join_cons_cons (sep s t : String) (rest : List String) :
    join sep (s :: t :: rest) = s ++ sep ++ join sep (t :: rest) := rfl

/-- Each part but the first stands behind the text between parts. -/
theorem toList_join_cons (sep s : String) (rest : List String) :
    (join sep (s :: rest)).toList = s.toList ++ rest.flatMap (sep.toList ++ ·.toList) := by
  induction rest generalizing s with
  | nil => simp
  | cons t rest ih => simp [join_cons_cons, ih t]

/-- Whether `pattern` occurs somewhere in the text. The empty pattern always does. -/
def occurs (pattern : List Char) : List Char → Bool
  | [] => pattern.isEmpty
  | c :: rest => pattern.isPrefixOf (c :: rest) || occurs pattern rest

/-- Leaves out the next `skip` characters, then replaces each occurrence of a pattern that is not
empty, from the left and without overlap. -/
def replaceFrom (pattern new : List Char) (skip : Nat) : List Char → List Char
  | [] => []
  | c :: rest =>
    match skip with
    | n + 1 => replaceFrom pattern new n rest
    | 0 =>
      if pattern.isPrefixOf (c :: rest) then
        new ++ replaceFrom pattern new (pattern.length - 1) rest
      else c :: replaceFrom pattern new 0 rest

/-- Replaces each occurrence of a pattern that is not empty, from the left and without overlap. -/
def replace (pattern new text : String) : String :=
  String.ofList (replaceFrom pattern.toList new.toList 0 text.toList)

/-- The text before and after the first `sep`, if there is one. -/
def cut? (sep : Char) : List Char → Option (List Char × List Char)
  | [] => none
  | c :: rest =>
    if c = sep then some ([], rest)
    else (cut? sep rest).map fun parts => (c :: parts.1, parts.2)

theorem cut?_eq_some {sep : Char} {text before after : List Char}
    (h : cut? sep text = some (before, after)) : text = before ++ sep :: after := by
  induction text generalizing before with
  | nil => simp [cut?] at h
  | cons c rest ih =>
    by_cases hc : c = sep
    · simp_all [cut?]
    · simp only [cut?, hc, if_false, Option.map_eq_some_iff, Prod.mk.injEq] at h
      obtain ⟨⟨b, a⟩, found, rfl, rfl⟩ := h
      simp [ih found]

/-- The parts between the separators, one more than there are separators. -/
def split (sep : Char) : List Char → List (List Char)
  | [] => [[]]
  | c :: rest =>
    if c = sep then [] :: split sep rest
    else
      match split sep rest with
      | [] => [[c]]
      | part :: parts => (c :: part) :: parts

/-- Fills with blanks on the right up to a width. -/
def padRight (width : Nat) (s : String) : String :=
  s ++ String.ofList (List.replicate (width - s.length) ' ')

/-- Makes every line end a single newline: a carriage return and newline together, or a lone
carriage return, become one. -/
def unifyLineEnds : List Char → List Char
  | [] => []
  | '\r' :: '\n' :: rest => '\n' :: unifyLineEnds rest
  | '\r' :: rest => '\n' :: unifyLineEnds rest
  | c :: rest => c :: unifyLineEnds rest

end RequestWriter.Text
