import RequestWriter.CommandLine.Usage
import RequestWriter.Proofs.Text.Search

/-!
# Options that are spelled out

Options can be typed in many ways. One way does for every value: each option with its long name and
its value as the next word, and the arguments behind two hyphens. What is typed so is read as it was
meant, in every scope, whatever the values look like.
-/

namespace RequestWriter.CommandLine

/-- Options with their long names and values, in front of arguments. -/
def spelledOut (given : List Given) (arguments : List String) : List String :=
  given.flatMap (fun g => [g.option.name, g.value]) ++ "--" :: arguments

/-- The word has the form of a long option without a value. -/
def IsLongName (word : String) : Prop :=
  word ≠ "--" ∧ ['-', '-'].isPrefixOf word.toList = true ∧ '=' ∉ word.toList

instance (word : String) : Decidable (IsLongName word) := inferInstanceAs (Decidable (_ ∧ _))

/-- Every option of a scope has a long name of its own. -/
theorem isLongName_of_mem_options (scope : Scope) : ∀ s ∈ scope.options,
    IsLongName s.name ∧ (scope.options.find? fun other => other.name == s.name) = some s := by
  cases scope <;> decide

theorem nodup_names (scope : Scope) : (scope.options.map OptionSpec.name).Nodup := by
  cases scope <;> decide

variable {specs : List OptionSpec} {given : List Given}

/-- The long name of an option that is no switch waits for its value. -/
theorem meaning_longName {s : OptionSpec} (long : IsLongName s.name)
    (found : (specs.find? fun other => other.name == s.name) = some s)
    (valued : s.expected ≠ .nothing) : meaning specs s.name = .ok (.waiting [] s s.name) := by
  obtain ⟨-, hyphens, noValue⟩ := long
  obtain ⟨rest, chars⟩ := List.isPrefixOf_iff_prefix.mp hyphens
  have whole : cutValue s.name = (s.name, none) := by rw [cutValue, Text.cut?_of_notMem noValue]
  rw [meaning, ← chars]
  simp only [List.cons_append, whole, found, longMeaning, if_neg valued]

theorem readWords_spelledOut (long : ∀ g ∈ given, IsLongName g.option.name)
    (found : ∀ g ∈ given,
      (specs.find? fun other => other.name == g.option.name) = some g.option)
    (valued : ∀ g ∈ given, g.option.expected ≠ .nothing) (mixed : Bool)
    (arguments : List String) :
    readWords specs mixed (spelledOut given arguments) = .ok ⟨given, arguments⟩ := by
  induction given with
  | nil => rw [spelledOut, List.flatMap_nil, List.nil_append, readWords, if_pos rfl]
  | cons g given ih =>
    rw [List.forall_mem_cons] at long found valued
    have waits := meaning_longName long.1 found.1 valued.1
    change readWords specs mixed (g.option.name :: g.value :: spelledOut given arguments) = _
    rw [readWords, if_neg long.1.1, waits]
    dsimp only
    rw [ih long.2 found.2 valued.2]
    rfl

namespace Words

variable {words : Words} {g : Given}

/-- What is settled is an option that was given, with the last of its values. -/
theorem option_of_mem_settled (h : g ∈ words.settled) :
    (∃ typed ∈ words.options, typed.option = g.option) ∧
      g.value = (words.value? g.option.name).getD "" := by
  obtain ⟨s, seen, rfl⟩ := List.mem_map.mp h
  refine ⟨?_, rfl⟩
  have run : ∀ (options : List Given) (before : List OptionSpec),
      s ∈ options.foldl (fun seen g =>
        if seen.any fun s => s.name == g.option.name then seen else seen ++ [g.option]) before →
      s ∈ before ∨ ∃ typed ∈ options, typed.option = s := by
    intro options
    induction options with
    | nil => exact fun before mem => .inl mem
    | cons typed options ih =>
      intro before mem
      rcases ih _ mem with old | ⟨other, mem, same⟩
      · dsimp only at old
        split at old
        · exact .inl old
        · rcases List.mem_append.mp old with old | new
          · exact .inl old
          · exact .inr ⟨typed, List.mem_cons_self, (List.mem_singleton.mp new).symm⟩
      · exact .inr ⟨other, List.mem_cons_of_mem _ mem, same⟩
  exact (run words.options [] seen).resolve_left (List.not_mem_nil)

end Words

namespace Scope

variable {scope : Scope} {values : String → List String}

/-- The options of a scope with the values that are meant for their names. -/
def listed (scope : Scope) (values : String → List String) : List Given :=
  scope.options.flatMap fun s => (values s.name).map (Given.mk s)

theorem mem_listed {g : Given} (h : g ∈ scope.listed values) :
    g.option ∈ scope.options ∧ g.value ∈ values g.option.name := by
  obtain ⟨s, known, mem⟩ := List.mem_flatMap.mp h
  obtain ⟨value, meant, rfl⟩ := List.mem_map.mp mem
  exact ⟨known, meant⟩

theorem values_listed (values : String → List String) (arguments : List String) {s : OptionSpec}
    (known : s ∈ scope.options) :
    (Words.mk (scope.listed values) arguments).values s.name = values s.name := by
  have others : ∀ options : List OptionSpec, (∀ other ∈ options, other.name ≠ s.name) →
      (options.flatMap fun other => (values other.name).map (Given.mk other)).filter
        (fun g => g.option.name == s.name) = [] := by
    intro options differ
    refine List.filter_eq_nil_iff.mpr fun g mem => ?_
    obtain ⟨other, here, inside⟩ := List.mem_flatMap.mp mem
    obtain ⟨value, -, rfl⟩ := List.mem_map.mp inside
    simpa using differ other here
  have own : ((values s.name).map (Given.mk s)).filter (fun g => g.option.name == s.name) =
      (values s.name).map (Given.mk s) := by
    simp
  obtain ⟨before, after, split⟩ := List.append_of_mem known
  have nodup := nodup_names scope
  rw [split, List.map_append, List.map_cons, List.nodup_append, List.nodup_cons] at nodup
  obtain ⟨-, ⟨later, -⟩, earlier⟩ := nodup
  have first := others before fun other mem =>
    earlier _ (List.mem_map_of_mem mem) _ List.mem_cons_self
  have last := others after fun other mem same => later (same ▸ List.mem_map_of_mem mem)
  rw [Words.values, listed, split, List.flatMap_append, List.flatMap_cons, List.filter_append,
    List.filter_append, first, last, own, List.nil_append, List.append_nil, List.map_map]
  exact List.map_id _

/-- Options that are no switches are read as they were spelled out, if the last value of each of
them is one that it takes. -/
theorem read_listed {ws : Workspace}
    (valued : ∀ s ∈ scope.options, s.expected = .nothing → values s.name = [])
    (taken : ∀ s ∈ scope.options, ∀ last, (values s.name).getLast? = some last →
      Given.problem? ws ⟨s, last⟩ = none) (arguments : List String) :
    scope.read ws (spelledOut (scope.listed values) arguments) =
      .ok ⟨scope.listed values, arguments⟩ := by
  have named : ∀ g ∈ scope.listed values, IsLongName g.option.name ∧
      (scope.options.find? fun other => other.name == g.option.name) = some g.option :=
    fun g mem => isLongName_of_mem_options scope _ (mem_listed mem).1
  have noSwitch : ∀ g ∈ scope.listed values, g.option.expected ≠ .nothing := by
    intro g mem switch
    have none := valued _ (mem_listed mem).1 switch
    exact absurd (mem_listed mem).2 (by simp [none])
  have read := readWords_spelledOut (fun g mem => (named g mem).1) (fun g mem => (named g mem).2)
    noSwitch (decide (scope ≠ .program)) arguments
  have settled : (Words.mk (scope.listed values) arguments).settled.findSome?
      (Given.problem? ws) = none := by
    rw [List.findSome?_eq_none_iff]
    rintro ⟨s, value⟩ mem
    obtain ⟨⟨typed, mem, same⟩, last⟩ := Words.option_of_mem_settled mem
    obtain ⟨known, meant⟩ := mem_listed mem
    dsimp only at same last
    rw [same] at known meant
    rw [Words.value?, values_listed values arguments known] at last
    rw [last, List.getLast?_eq_some_getLast (List.ne_nil_of_mem meant), Option.getD_some]
    exact taken s known _ (List.getLast?_eq_some_getLast _)
  have noHelp : (Words.mk (scope.listed values) arguments).has helpOption.name = false := by
    have known : helpOption ∈ scope.options := List.mem_append_right _ List.mem_cons_self
    rw [Words.has, values_listed values arguments known, valued _ known rfl]
    rfl
  rw [Scope.read, read]
  simp only [noHelp, settled]
  rfl

end Scope

end RequestWriter.CommandLine
