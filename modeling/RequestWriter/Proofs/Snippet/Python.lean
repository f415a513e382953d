import RequestWriter.Proofs.Json.Reading
import RequestWriter.Proofs.Snippet.Agreement
import RequestWriter.Proofs.Snippet.Cut

/-!
# The literals of Python snippets

Every part of a Python snippet is code and literals: the payload, by induction on its value, the
header block, the other lines at the front, and the call with its arguments. The texts of the
literals are those that the library is said to write. So a snippet has a literal that is cut off
exactly when one of these texts holds a carriage return.
-/

namespace RequestWriter.Python

open Json

variable {s indent : String} {ss a : List String} {r : Request} {headers : Headers}

section Characters

theorem isCode_number {v : Value} (numeral : Json.Grammar.Number s.toList v) :
    s.toList.all isCode = true :=
  List.all_eq_true.mpr fun c mem => isCode_of_isPlain (Closed.isPlain_of_mem_number numeral c mem)

/-- A literal can begin behind blanks. -/
theorem isFront_pad (level : Int) : isFront (Literal.pad level) = true := by
  have blank : ∀ cs : List Char, (∀ c ∈ cs, c = ' ') →
      (cs.all isCode && freeBehind true cs) = true := by
    intro cs blank
    induction cs with
    | nil => rfl
    | cons c cs ih =>
      rw [List.forall_mem_cons] at blank
      obtain ⟨rfl, rest⟩ := blank
      exact ih rest
  exact blank _ fun _ mem => Literal.eq_blank_of_mem_pad level mem

theorem isFront_bracket (code : s.toList.all isCode = true) : isFront (s ++ "(") = true := by
  have behind : ∀ (free : Bool) (cs : List Char), freeBehind free (cs ++ ['(']) = true := by
    intro free cs
    induction cs generalizing free with
    | nil => rfl
    | cons c cs ih => exact ih _
  rw [isFront, String.toList_append, List.all_append, code]
  exact behind true s.toList

end Characters

section Containers

/-- An entry of a mapping on a line of its own. -/
theorem Reads.entry (code : isFront indent = true) (key : String) (hs : Reads s a) :
    Reads (indent ++ dialect.quote key ++ dialect.keySeparator ++ s) (key :: a) := by
  have separator : isFront dialect.keySeparator = true := by decide
  have mark : ∀ s : String, (dialect.keySeparator ++ s).toList.head? ≠ some '"' := by
    intro s
    simp [dialect, Target.dialect]
  rw [String.append_assoc, String.append_assoc]
  exact ((Reads.quote key).append (hs.behind _ separator) (mark s)).behind indent code

theorem Reads.block {front back : String} (opens : isFront front = true)
    (closes : back.toList.all isCode = true) (level : Int) (h : ReadsAll ss a) :
    Reads (Literal.block front back level ss) a := by
  unfold Literal.block
  have mark : back.toList.head? ≠ some '"' := by
    intro head
    have code := List.all_eq_true.mp closes '"' (List.mem_of_head? head)
    cases code
  cases h with
  | nil => simpa using ((Reads.code closes).behind front opens)
  | @cons s ss a b first rest =>
    have lines := (ReadsAll.cons first rest).join ",\n" (by decide) (by simp)
    have pad := Bool.and_eq_true_iff.mp (isFront_pad level)
    have tail := ((Reads.code pad.1).behind "\n" (by decide)).append (.code closes) mark
    have inner := (lines.append tail (by simp)).behind "\n" (by decide)
    have whole := inner.behind front opens
    rw [List.append_nil, List.append_nil] at whole
    simpa [String.append_assoc] using whole

end Containers

section Parts

theorem Reads.scalar {s : Scalar} (h : s.IsJson) (left : Nat) :
    Reads (Literal.scalar dialect s) ((Value.scalar s).texts (left + 1)) := by
  cases s with
  | null => exact .code (by decide)
  | bool b => cases b <;> exact .code (by decide)
  | int i => exact .code (isCode_number (number_toString h))
  | float d => exact .code (isCode_number (Decimal.number_write h))
  | text s => exact .quote s
  | _ => exact absurd h id

/-- The literal of a value, at every level. -/
theorem Reads.render {v : Value} (built : v.Built Scalar.IsJson) (left : Nat) (level : Int) :
    Reads (Literal.render dialect [] left level v) (v.texts left) := by
  induction left generalizing v level with
  | zero =>
    rw [Literal.render, Value.texts]
    exact .code (by decide)
  | succ left ih =>
    cases built with
    | scalar h => exact .scalar h left
    | list h =>
      apply Reads.block (by decide) (by decide) level
      apply ReadsAll.map
      intro v mem
      exact (ih (h v mem) (level + 1)).behind _ (isFront_pad (level + 1))
    | mapping keys h =>
      apply Reads.block (by decide) (by decide) level
      apply ReadsAll.map
      intro entry mem
      exact (ih (h entry mem) (level + 1)).entry (isFront_pad (level + 1)) _

theorem headerBlock_eq (headers : Headers) : headers.block dialect "    " "" =
    Literal.block "\x7b" "\x7d" 0 (headers.map fun header =>
      "    " ++ dialect.quote header.1 ++ dialect.keySeparator
        ++ dialect.quote header.2) := by
  unfold Headers.block Literal.block
  cases headers with
  | nil => rfl
  | cons header headers => simp [Literal.pad]

theorem Reads.headerBlock (headers : Headers) :
    Reads (headers.block dialect "    " "") headers.texts := by
  rw [headerBlock_eq]
  apply Reads.block (by decide) (by decide) 0
  apply ReadsAll.map
  intro header _
  exact (Reads.quote header.2).entry (by decide) header.1

theorem ReadsAll.openingLines (library : String) (code : library.toList.all isCode = true)
    {p : Option Payload} (json : ∀ v, p = some (.structured v) → v.Built Scalar.IsJson) :
    ReadsAll (opening library r headers p)
      (r.url :: headers.texts ++ Payload.structuredTexts p) := by
  have imported := (Reads.code code).behind "import " (by decide)
  have url := (Reads.quote r.url).behind "url = " (by decide)
  have block := (Reads.headerBlock headers).behind "headers = " (by decide)
  have front : ReadsAll ["import " ++ library, "", "url = " ++ dialect.quote r.url,
      "headers = " ++ headers.block dialect "    " ""] (r.url :: headers.texts) :=
    (ReadsAll.cons imported (.cons (.code (s := "") rfl) (.cons url (.singleton block))))
  match p with
  | none => exact front.append .nil
  | some (.raw _) => exact front.append .nil
  | some (.structured v) =>
    have payload := (Reads.render (json v rfl) Payload.levels 0).behind "payload = " (by decide)
    exact front.append (.singleton payload)

theorem ReadsAll.arguments (rawName : String) (code : isFront (rawName ++ "=") = true)
    (p : Option Payload) :
    ReadsAll (Python.arguments rawName p) (Payload.rawTexts p) := by
  have first : Reads "headers=headers" [] := .code (by decide)
  match p with
  | none => exact .singleton first
  | some (.structured _) =>
    have sent : Reads "json=payload" [] := .code (by decide)
    exact .cons first (.singleton sent)
  | some (.raw s) => exact .cons first (.singleton ((Reads.quote s).behind _ code))

/-- What stands in front of the first part stands in front of the whole. -/
theorem join_behind (sep pre s : String) (parts : List String) :
    Text.join sep ((pre ++ s) :: parts) = pre ++ Text.join sep (s :: parts) := by
  cases parts with
  | nil => rfl
  | cons next parts => simp [Text.join_cons_cons, String.append_assoc]

/-- A call of a method, its first argument in front of the others. -/
theorem Reads.method {front first : String} {arguments a b : List String}
    (code : isFront (front ++ "(") = true) (hf : Reads first a) (h : ReadsAll arguments b) :
    Reads (Text.join ", " ((front ++ "(" ++ first) :: arguments) ++ ")") (a ++ b) := by
  have comma : ∀ s : String, (", " ++ s).toList.head? ≠ some '"' := by simp
  have inside := (ReadsAll.cons hf h).join ", " (by decide) comma
  have whole := (inside.append (.code (s := ")") (by decide)) (by simp)).behind _ code
  rw [List.append_nil] at whole
  rw [join_behind]
  simpa only [String.append_assoc] using whole

theorem Reads.call (receiver : String) (code : receiver.toList.all isCode = true)
    {arguments a : List String} (h : ReadsAll arguments a) :
    Reads (Python.call receiver r arguments) (r.otherVerb ++ a) := by
  have front : ∀ name : String, name.toList.all isCode = true →
      isFront (receiver ++ name ++ "(") = true := by
    intro name named
    refine isFront_bracket ?_
    rw [String.toList_append, List.all_append, code, named, Bool.true_and]
  unfold Python.call Request.otherVerb
  cases standard : r.isStandard with
  | true =>
    have names : ∀ verb ∈ standardVerbs, ("." ++ Text.lower verb).toList.all isCode = true := by
      decide
    have name := names r.verb (List.contains_iff_mem.mp standard)
    have url : Reads "url" [] := .code (by decide)
    have whole := url.method (front _ name) h
    simpa [String.append_assoc] using whole
  | false =>
    have head := (Reads.quote r.verb).append (Reads.code (s := ", url") (by decide)) (by simp)
    have whole := head.method (front ".request" (by decide)) h
    simpa [String.append_assoc] using whole

end Parts

section Sources

theorem Reads.requests (r : Request) (headers : Headers) :
    Reads (Python.requests r headers) (Library.requests.literals r headers) := by
  have opening := @ReadsAll.openingLines r headers "requests" (by decide) (Payload.ofRequest? r)
    (Piece.isJson_ofRequest? r)
  have call := (Reads.call (r := r) "requests" (by decide)
    (.arguments "data" (by decide) (Payload.ofRequest? r))).behind "response = " (by decide)
  have front : ReadsAll [""] [] := .code (by decide)
  have back : ReadsAll ["print(response.json())"] [] := .code (by decide)
  have closing := front.append (.cons call back)
  apply ((opening.append closing).join "\n" (by decide) (by simp)).congr
  simp [Library.literals]

theorem Reads.httpx (r : Request) (headers : Headers) :
    Reads (Python.httpx r headers) (Library.httpx.literals r headers) := by
  have opening := @ReadsAll.openingLines r headers "httpx" (by decide) (Payload.ofRequest? r)
    (Piece.isJson_ofRequest? r)
  have call := (Reads.call (r := r) "client" (by decide)
    (.arguments "content" (by decide) (Payload.ofRequest? r))).behind "    response = " (by decide)
  have front : ReadsAll ["", "with httpx.Client() as client:"] [] := .code (by decide)
  have back : ReadsAll ["    print(response.json())"] [] := .code (by decide)
  have closing := front.append (.cons call back)
  apply ((opening.append closing).join "\n" (by decide) (by simp)).congr
  simp [Library.literals]

theorem toList_ofLines_concat (lines : List String) (last : String) :
    ∃ cs, (ofLines (lines ++ [last])).toList = cs ++ last.toList := by
  by_cases empty : lines = []
  · subst empty
    exact ⟨[], rfl⟩
  · refine ⟨(Text.join "\n" lines ++ "\n").toList, ?_⟩
    rw [ofLines, Shell.join_concat "\n" last empty, String.toList_append]

/-- The last line of a snippet is a call. -/
theorem toList_source {library : Library} (python : library.target = .python) (r : Request)
    (headers : Headers) : ∃ cs, (library.source r headers).toList = cs ++ [')'] := by
  have call : ∀ lines last, ∃ cs, (ofLines (lines ++ [last ++ ")"])).toList = cs ++ [')'] := by
    intro lines last
    obtain ⟨cs, eq⟩ := toList_ofLines_concat lines (last ++ ")")
    refine ⟨cs ++ last.toList, ?_⟩
    rw [eq, String.toList_append, List.append_assoc]
    rfl
  cases library with
  | requests =>
    have lines := call (Python.opening "requests" r headers (Payload.ofRequest? r) ++
      ["", "response = " ++ Python.call "requests" r (Python.arguments "data"
        (Payload.ofRequest? r))]) "print(response.json()"
    rwa [List.append_assoc] at lines
  | httpx =>
    have lines := call (Python.opening "httpx" r headers (Payload.ofRequest? r) ++
      ["", "with httpx.Client() as client:", "    response = " ++ Python.call "client" r
        (Python.arguments "content" (Payload.ofRequest? r))]) "    print(response.json()"
    rwa [List.append_assoc] at lines
  | _ => cases python

theorem Reads.source {library : Library} (python : library.target = .python) (r : Request)
    (headers : Headers) : Reads (library.source r headers) (library.literals r headers) := by
  cases library with
  | requests => exact .requests r headers
  | httpx => exact .httpx r headers
  | _ => cases python

end Sources

end RequestWriter.Python
