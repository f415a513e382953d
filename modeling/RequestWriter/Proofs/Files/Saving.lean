import RequestWriter.Files.Workspace
import RequestWriter.Proofs.Chain
import RequestWriter.Proofs.Entries

/-!
# Saving a file

A file is saved in two steps: the directories on the way to it are made where they are missing, and
the file is written. Both steps walk through the tree as it is at that moment. What they come to is
said in terms of the tree before: which paths can be written at all, and what is at each place
afterwards.
-/

namespace RequestWriter

namespace Location

/-- The place that one part leads to. -/
def next (place : Location) (part : String) : Location :=
  if part = "" ∨ part = "." then place
  else if part = ".." then place.dropLast
  else place ++ [part]

/-- The place that parts lead to. -/
def reached (start : Location) (parts : List String) : Location := parts.foldl next start

/-- The places from which the parts lead on, one for each part. -/
def passed (start : Location) : List String → List Location
  | [] => []
  | part :: parts => start :: passed (next start part) parts

theorem reached_cons (start : Location) (part : String) (parts : List String) :
    reached start (part :: parts) = reached (next start part) parts := rfl

theorem passed_concat (start : Location) (parts : List String) (last : String) :
    passed start (parts ++ [last]) = passed start parts ++ [reached start parts] := by
  induction parts generalizing start with
  | nil => rfl
  | cons part parts ih =>
    rw [List.cons_append, passed, ih, passed, reached_cons, List.cons_append]

end Location

namespace FileTree

variable {t t' t'' : FileTree} {start place : Location} {parts : List String} {fault : FileFault}
  {places places' : List Location} {content : List UInt8}

/-- None of the places is taken by a file. -/
def Passable (t : FileTree) (places : List Location) : Prop :=
  ∀ place ∈ places, ∀ content, t.node? place ≠ some (.file content)

/-- There is a directory at each of the places. -/
def Open (t : FileTree) (places : List Location) : Prop :=
  ∀ place ∈ places, t.node? place = some .directory

/-- The second tree has a directory at each of the places at which nothing was, and is the first
one otherwise. -/
structure Opened (t : FileTree) (places : List Location) (t' : FileTree) : Prop where
  home : t'.home = t.home
  nodes : ∀ place, t'.node? place =
    (t.node? place).or (if place ∈ places then some .directory else none)

theorem Open.passable (h : t.Open places) : t.Passable places := by
  intro place mem content file
  rw [h place mem] at file
  cases file

theorem Passable.append (h : t.Passable places) (h' : t.Passable places') :
    t.Passable (places ++ places') :=
  fun place mem => (List.mem_append.mp mem).elim (h place) (h' place)

theorem Open.opened (h : t.Open places) : t.Opened places t := by
  refine ⟨rfl, fun place => ?_⟩
  by_cases mem : place ∈ places
  · rw [h place mem]
    rfl
  · rw [if_neg mem, Option.or_none]

theorem Opened.trans (h : t.Opened places t') (h' : t'.Opened places' t'') :
    t.Opened (places ++ places') t'' := by
  refine ⟨h'.home.trans h.home, fun place => ?_⟩
  rw [h'.nodes, h.nodes, Option.or_assoc]
  by_cases first : place ∈ places
  · simp [first]
  · simp [first]

/-- Places that no file takes are open once they are opened. -/
theorem Opened.isOpen (h : t.Opened places t') (free : t.Passable places) : t'.Open places := by
  intro place mem
  rw [h.nodes, if_pos mem]
  cases here : t.node? place with
  | none => rfl
  | some node =>
    cases node with
    | directory => rfl
    | file content => exact absurd here (free place mem content)

/-- Files stay where they are. -/
theorem Opened.file_iff (h : t.Opened places t') :
    t'.node? place = some (.file content) ↔ t.node? place = some (.file content) := by
  rw [h.nodes]
  cases t.node? place with
  | some node => rfl
  | none => by_cases mem : place ∈ places <;> simp [mem]

theorem Opened.passable_iff (h : t.Opened places t') :
    t'.Passable places' ↔ t.Passable places' := by
  simp only [Passable, ne_eq, h.file_iff]

@[simp] theorem node?_home (t : FileTree) : t.node? t.home = some .directory :=
  if_pos (List.isPrefixOf_iff_prefix.mpr List.prefix_rfl)

theorem node?_put (elsewhere : ¬place <+: t.home) (node : FileNode)
    (other : Location) :
    (t.put place node).node? other = if other = place then some node else t.node? other := by
  unfold node? put
  rw [Entries.get?_put (Entries.exact_of_lawful place)]
  by_cases here : other = place
  · subst here
    rw [if_neg (by simpa using elsewhere), if_pos (beq_self_eq_true _), if_pos rfl]
  · rw [if_neg here, if_neg (show ¬(place == other) = true by simpa using Ne.symm here)]

/-- The home of a tree and what is above it are directories. -/
theorem not_prefix_home (h : t.node? place ≠ some .directory) : ¬place <+: t.home :=
  fun above => h (if_pos (List.isPrefixOf_iff_prefix.mpr above))

theorem step_of_directory (part : String) (h : t.node? place = some .directory) :
    t.step place part = .ok (place.next part) := by
  rw [step, h, Location.next]
  dsimp only
  split
  · rfl
  · split <;> rfl

theorem walk_cons (part : String) : t.walk start (part :: parts) =
    t.step start part >>= fun place => t.walk place parts := List.foldlM_cons

/-- A walk through directories leads where its parts do. -/
theorem walk_of_open (h : t.Open (Location.passed start parts)) :
    t.walk start parts = .ok (Location.reached start parts) := by
  induction parts generalizing start with
  | nil => rfl
  | cons part parts ih =>
    obtain ⟨here, others⟩ := List.forall_mem_cons.mp h
    rw [walk_cons, step_of_directory part here]
    exact ih others

/-- A walk ends on its way exactly where it meets a file, or a place at which nothing is. -/
theorem walk_error (h : ¬t.Open (Location.passed start parts)) :
    (∃ place ∈ Location.passed start parts, t.node? place = none) ∧
        t.walk start parts = .error .notFound ∨
      (∃ place ∈ Location.passed start parts, ∃ content, t.node? place = some (.file content)) ∧
        t.walk start parts = .error .notDirectory := by
  induction parts generalizing start with
  | nil => exact absurd (List.forall_mem_nil _) h
  | cons part parts ih =>
    rw [walk_cons]
    cases here : t.node? start with
    | none =>
      refine .inl ⟨⟨start, List.mem_cons_self, here⟩, ?_⟩
      rw [step, here]
      rfl
    | some node =>
      cases node with
      | file content =>
        refine .inr ⟨⟨start, List.mem_cons_self, content, here⟩, ?_⟩
        rw [step, here]
        rfl
      | directory =>
        rw [step_of_directory part here]
        have others : ¬t.Open (Location.passed (start.next part) parts) :=
          fun others => h (List.forall_mem_cons.mpr ⟨here, others⟩)
        refine (ih others).imp (And.imp_left ?_) (And.imp_left ?_)
        · exact fun ⟨place, mem, absent⟩ => ⟨place, List.mem_cons_of_mem _ mem, absent⟩
        · exact fun ⟨place, mem, file⟩ => ⟨place, List.mem_cons_of_mem _ mem, file⟩

/-- A directory is made where nothing is, and left where one is. -/
theorem ensureDirectory_of_open (h : t.Open (Location.passed start parts)) :
    t.ensureDirectory start parts =
      if t.node? (Location.reached start parts) = some .directory then .ok t
      else if t.node? (Location.reached start parts) = none then
        .ok (t.put (Location.reached start parts) .directory)
      else .error .exists := by
  have made : t.makeDirectory start parts =
      if t.node? (Location.reached start parts) = none then
        .ok (t.put (Location.reached start parts) .directory)
      else .error .exists := by
    rw [makeDirectory, walk_of_open h]
    dsimp only [bind, Except.bind]
    cases t.node? (Location.reached start parts) <;> rfl
  rw [ensureDirectory, made, walk_of_open h]
  cases here : t.node? (Location.reached start parts) with
  | none => rfl
  | some node =>
    dsimp only
    rw [isDirectory, here]
    cases node <;> rfl

theorem ensureDirectory_of_walk (h : t.walk start parts = .error fault) :
    t.ensureDirectory start parts = .error fault := by
  have made : t.makeDirectory start parts = .error fault := by
    rw [makeDirectory, h]
    rfl
  rw [ensureDirectory, made, h]
  cases fault <;> rfl

/-- The way to a new directory is open. -/
theorem ensureDirectory_eq_ok (h : t.ensureDirectory start parts = .ok t') :
    t.Open (Location.passed start parts) ∧ t.Passable [Location.reached start parts] ∧
      t.Opened [Location.reached start parts] t' := by
  by_cases isOpen : t.Open (Location.passed start parts)
  · rw [ensureDirectory_of_open isOpen] at h
    refine ⟨isOpen, ?_⟩
    cases here : t.node? (Location.reached start parts) with
    | none =>
      rw [here] at h
      obtain rfl := Except.ok.inj h
      refine ⟨by simp [Passable, here], rfl, fun place => ?_⟩
      · rw [node?_put (not_prefix_home (by simp [here]))]
        by_cases same : place = Location.reached start parts
        · simp [same, here]
        · simp [same]
    | some node =>
      rw [here] at h
      cases node with
      | file => cases h
      | directory =>
        obtain rfl := Except.ok.inj h
        have there : t.Open [Location.reached start parts] := List.forall_mem_singleton.mpr here
        exact ⟨there.passable, there.opened⟩
  · rcases walk_error isOpen with ⟨-, walk⟩ | ⟨-, walk⟩ <;>
      rw [ensureDirectory_of_walk walk] at h <;> cases h

theorem exists_ensureDirectory (isOpen : t.Open (Location.passed start parts))
    (free : t.Passable [Location.reached start parts]) :
    ∃ t', t.ensureDirectory start parts = .ok t' := by
  rw [ensureDirectory_of_open isOpen]
  cases here : t.node? (Location.reached start parts) with
  | none => exact ⟨_, rfl⟩
  | some node =>
    cases node with
    | directory => exact ⟨_, rfl⟩
    | file content => exact absurd here (List.forall_mem_singleton.mp free content)

/-- Directories are made on a way that no file takes a place of, and nowhere else. -/
theorem ensureDirectories_eq_ok {before : List String}
    (h : t.ensureDirectories start before = .ok t') :
    t.Passable (Location.passed start before.reverse ++
        [Location.reached start before.reverse]) ∧
      t.Opened (Location.passed start before.reverse ++
        [Location.reached start before.reverse]) t' := by
  induction before generalizing t' with
  | nil => exact (ensureDirectory_eq_ok h).2
  | cons last before ih =>
    rw [ensureDirectories] at h
    split at h
    · cases first : t.ensureDirectories start before with
      | error fault =>
        rw [first] at h
        cases h
      | ok t₁ =>
        rw [first] at h
        obtain ⟨-, free, second⟩ := ensureDirectory_eq_ok h
        obtain ⟨way, opened⟩ := ih first
        rw [List.reverse_cons, Location.passed_concat] at *
        exact ⟨way.append (opened.passable_iff.mp free), opened.trans second⟩
    · obtain ⟨isOpen, free, opened⟩ := ensureDirectory_eq_ok h
      exact ⟨isOpen.passable.append free, isOpen.opened.trans opened⟩

theorem exists_ensureDirectories {before : List String}
    (free : t.Passable (Location.passed start before.reverse ++
        [Location.reached start before.reverse])) :
    ∃ t', t.ensureDirectories start before = .ok t' := by
  induction before with
  | nil => exact exists_ensureDirectory (List.forall_mem_nil _) free
  | cons last before ih =>
    rw [ensureDirectories]
    obtain ⟨way, place⟩ : t.Passable _ ∧ t.Passable _ := List.forall_mem_append.mp free
    by_cases isOpen : t.Open (Location.passed start (last :: before).reverse)
    · obtain ⟨t', made⟩ := exists_ensureDirectory isOpen place
      rw [made]
      exact ⟨t', rfl⟩
    · -- A place on the way is taken by nothing, so the directories before it are made first.
      rcases walk_error isOpen with ⟨-, walk⟩ | ⟨⟨file, mem, content, here⟩, -⟩
      · rw [ensureDirectory_of_walk walk]
        rw [List.reverse_cons, Location.passed_concat] at way
        obtain ⟨t₁, first⟩ := ih way
        obtain ⟨-, opened⟩ := ensureDirectories_eq_ok first
        have nowOpen : t₁.Open (Location.passed start (last :: before).reverse) := by
          rw [List.reverse_cons, Location.passed_concat]
          exact opened.isOpen way
        obtain ⟨t', made⟩ := exists_ensureDirectory nowOpen (opened.passable_iff.mpr place)
        rw [first]
        exact ⟨t', made⟩
      · exact absurd here (way file mem content)

theorem write_of_open (isOpen : t.Open (Location.passed start parts)) (content : List UInt8) :
    t.write start parts content =
      if t.node? (Location.reached start parts) = some .directory then .error .isDirectory
      else .ok (t.put (Location.reached start parts) (.file content)) := by
  rw [write, walk_of_open isOpen]
  cases here : t.node? (Location.reached start parts) with
  | none => simp [here, bind, Except.bind, pure, Except.pure]
  | some node => cases node <;> simp [here, bind, Except.bind, pure, Except.pure]

/-- A file is written in a directory that is there, over a file or where nothing is. -/
theorem write_eq_ok_iff : t.write start parts content = .ok t' ↔
    t.Open (Location.passed start parts) ∧
      t.node? (Location.reached start parts) ≠ some .directory ∧
      t' = t.put (Location.reached start parts) (.file content) := by
  by_cases isOpen : t.Open (Location.passed start parts)
  · rw [write_of_open isOpen]
    by_cases here : t.node? (Location.reached start parts) = some .directory
    · simp [here]
    · simp [here, isOpen, eq_comm]
  · refine iff_of_false (fun h => ?_) fun h => isOpen h.1
    rcases walk_error isOpen with ⟨-, walk⟩ | ⟨-, walk⟩ <;> rw [write, walk] at h <;> cases h

end FileTree

namespace Workspace

variable {ws after : Workspace} {p : Path} {text : String}

/-- The place of a path. -/
def place (ws : Workspace) (p : Path) : Location := Location.reached (ws.start p) p.parts

/-- The places of the directories on the way to a path. -/
def wayTo (ws : Workspace) (p : Path) : List Location := Location.passed (ws.start p) p.parts

/-- A file can be written at the path: the path is a name for the system and has a last part, no
file stands in its way, and its place is neither a directory nor one that the way to it goes
through. -/
structure CanWrite (ws : Workspace) (p : Path) : Prop where
  system : namesPlace p.parts = true
  named : p.parts ≠ []
  way : ws.tree.Passable (ws.wayTo p)
  noDirectory : ws.tree.node? (ws.place p) ≠ some .directory
  apart : ws.place p ∉ ws.wayTo p

/-- The second workspace is the first one with a file at the path and with directories on the way to
it. No other place has changed. -/
structure Saved (ws : Workspace) (p : Path) (content : List UInt8) (after : Workspace) : Prop where
  written : after.tree.node? (ws.place p) = some (.file content)
  others : ∀ other, other ≠ ws.place p → after.tree.node? other =
    (ws.tree.node? other).or (if other ∈ ws.wayTo p then some .directory else none)
  home : after.tree.home = ws.tree.home
  surroundings : after = { ws with tree := after.tree }

theorem wayTo_of_named (named : p.parts ≠ []) : ws.wayTo p =
    Location.passed (ws.start p) p.parts.dropLast ++
      [Location.reached (ws.start p) p.parts.dropLast] := by
  rw [← Location.passed_concat _ _ (p.parts.getLast named), List.dropLast_concat_getLast]
  rfl

theorem change_eq_ok_iff {result : Except FileFault FileTree} :
    ws.change p result = .ok after ↔
      namesPlace p.parts = true ∧ ∃ t, result = .ok t ∧ after = { ws with tree := t } := by
  unfold change
  by_cases system : namesPlace p.parts = true
  · rw [if_pos system]
    cases result <;> simp [system, eq_comm]
  · rw [if_neg system]
    exact iff_of_false nofun fun h => system h.1

/-- A path is a name for the system when the path of its directory is one and its last part is. -/
theorem namesPlace_parent (h : namesPlace p.parts = true) : namesPlace p.parent.parts = true :=
  List.all_eq_true.mpr fun part mem => List.all_eq_true.mp h part ((List.dropLast_subset _) mem)

/-- The two steps of saving a file. -/
theorem saving_eq_ok_iff :
    (ws.ensureDirectories p.parent >>= fun ws => ws.writeText p text) = .ok after ↔
      namesPlace p.parts = true ∧
      ∃ t₁ t₂, ws.tree.ensureDirectories (ws.start p) p.parts.dropLast.reverse = .ok t₁ ∧
        t₁.write (ws.start p) p.parts (Text.utf8Bytes text.toList) = .ok t₂ ∧
        after = { ws with tree := t₂ } := by
  -- Making directories leaves the home of the tree, so the path starts where it did.
  have start {t : FileTree} (made : ws.tree.ensureDirectories (ws.start p)
      p.parts.dropLast.reverse = .ok t) :
    ({ ws with tree := t } : Workspace).start p = ws.start p := by
    unfold Workspace.start directory
    rw [(FileTree.ensureDirectories_eq_ok made).2.home]
  simp only [Chain.bind_eq_ok_iff, ensureDirectories, writeText, change_eq_ok_iff]
  constructor
  · rintro ⟨_, ⟨-, t₁, made, rfl⟩, system, t₂, wrote, rfl⟩
    exact ⟨system, t₁, t₂, made, start made ▸ wrote, rfl⟩
  · rintro ⟨system, t₁, t₂, made, wrote, rfl⟩
    exact ⟨_, ⟨namesPlace_parent system, t₁, made, rfl⟩, system, t₂, (start made).symm ▸ wrote, rfl⟩

/-- Where a file is saved, one can be written, and nothing else changes. -/
theorem saved_of_eq_ok
    (h : (ws.ensureDirectories p.parent >>= fun ws => ws.writeText p text) = .ok after) :
    ws.CanWrite p ∧ ws.Saved p (Text.utf8Bytes text.toList) after := by
  obtain ⟨system, t₁, t₂, made, wrote, rfl⟩ := saving_eq_ok_iff.mp h
  obtain ⟨free, opened⟩ := FileTree.ensureDirectories_eq_ok made
  obtain ⟨-, noDirectory, rfl⟩ := FileTree.write_eq_ok_iff.mp wrote
  rw [List.reverse_reverse] at free opened
  have named : p.parts ≠ [] := by
    intro none
    rw [none] at opened noDirectory free
    exact noDirectory (opened.isOpen free _ List.mem_cons_self)
  rw [← wayTo_of_named named] at free opened
  have apart : ws.place p ∉ ws.wayTo p := fun mem => noDirectory (opened.isOpen free _ mem)
  replace noDirectory : t₁.node? (ws.place p) ≠ some .directory := noDirectory
  have put := FileTree.node?_put (t := t₁) (FileTree.not_prefix_home noDirectory)
    (.file (Text.utf8Bytes text.toList))
  refine ⟨⟨system, named, free, fun here => noDirectory ?_, apart⟩, ?_, fun other elsewhere => ?_,
    opened.home, rfl⟩
  · rw [opened.nodes, here]
    rfl
  · exact (put _).trans (if_pos rfl)
  · exact ((put other).trans (if_neg elsewhere)).trans (opened.nodes other)

theorem exists_saved (h : ws.CanWrite p) (text : String) :
    ∃ after, (ws.ensureDirectories p.parent >>= fun ws => ws.writeText p text) = .ok after := by
  have way := h.way
  rw [wayTo_of_named h.named, ← List.reverse_reverse p.parts.dropLast] at way
  obtain ⟨t₁, made⟩ := FileTree.exists_ensureDirectories way
  obtain ⟨free, opened⟩ := FileTree.ensureDirectories_eq_ok made
  rw [List.reverse_reverse, ← wayTo_of_named h.named] at free opened
  have noDirectory : t₁.node? (ws.place p) ≠ some .directory := by
    rw [opened.nodes, if_neg h.apart, Option.or_none]
    exact h.noDirectory
  exact ⟨_, saving_eq_ok_iff.mpr ⟨h.system, t₁, _, made,
    FileTree.write_eq_ok_iff.mpr ⟨opened.isOpen free, noDirectory, rfl⟩, rfl⟩⟩

end Workspace

end RequestWriter
