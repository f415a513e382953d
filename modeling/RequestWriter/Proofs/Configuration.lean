import RequestWriter.Proofs.Files.Reading
import RequestWriter.Proofs.Loading
import RequestWriter.Proofs.Refusal
import Mathlib.Control.Basic

/-!
# Where a configuration comes from

One file is read, if any: the sources are asked in an order, and the first that names a file
decides, whether the file is there or not. Nothing else in the tree has a part in the result. A
variable that sets the server is put into what the file says before the fields are checked. It has a
part in one field: the others are read as they would be without it, and refused as they would be.
-/

namespace RequestWriter.Configuration

variable {ws ws' : Workspace} {explicit : Option Path} {url : String}
  {data : List (Scalar × Value)}

section Sources

/-- Something has the name of the usual file in the working directory. -/
def HasUsual (ws : Workspace) : Prop := ws.tree.node? (ws.directory ++ [fileName]) ≠ none

/-- The source that is read when a text asks for one. A text that is empty asks for none, and a
variable that is empty names none. -/
inductive Chosen (ws : Workspace) (given : Option String) : Option Source → Prop
  | asked {name : String} (words : given = some name) (named : name ≠ "") :
      Chosen ws given (some (.ofPath ws (Path.ofText name)))
  | setting {name : String} (silent : given.getD "" = "")
      (set : ws.settings.lookup fileVariable = some name) (named : name ≠ "") :
      Chosen ws given (some (.ofPath ws (Path.ofText name)))
  | usual (silent : given.getD "" = "") (unset : (ws.settings.lookup fileVariable).getD "" = "")
      (there : HasUsual ws) : Chosen ws given (some (.usual ws))
  | nothing (silent : given.getD "" = "") (unset : (ws.settings.lookup fileVariable).getD "" = "")
      (absent : ¬HasUsual ws) : Chosen ws given none

theorem setting?_eq_none_iff {name : String} :
    ws.setting? name = none ↔ (ws.settings.lookup name).getD "" = "" := by
  unfold Workspace.setting?
  cases ws.settings.lookup name <;> simp

theorem setting?_eq_some_iff {name value : String} :
    ws.setting? name = some value ↔ ws.settings.lookup name = some value ∧ value ≠ "" := by
  simp [Workspace.setting?, Option.filter_eq_some_iff]

theorem explicitPath?_of_silent {given : Option String} (silent : given.getD "" = "") :
    given.bind explicitPath? = none := by
  cases given with
  | none => rfl
  | some name => exact if_pos silent

theorem explicitPath?_of_named {name : String} (named : name ≠ "") :
    (some name).bind explicitPath? = some (Path.ofText name) := if_neg named

theorem usual_exists_iff : (Source.usual ws).exists ws = true ↔ HasUsual ws := by
  have found : (Source.usual ws).exists ws = true ↔
      ∃ node, ws.tree.find ws.directory [fileName] = .ok node := by
    unfold Source.exists Source.usual
    cases ws.tree.find ws.directory [fileName] <;> simp [Except.toBool]
  have place : Location.reached ws.directory [fileName] = ws.directory ++ [fileName] := by
    simp [Location.reached, Location.next, fileName]
  have isOpen : ws.tree.Open (Location.passed ws.directory [fileName]) := by
    simp [FileTree.Open, Location.passed, Workspace.directory]
  simp only [found, FileTree.find_eq_ok_iff, place, isOpen, true_and, HasUsual,
    Option.ne_none_iff_exists']

theorem source?_of_setting {name : String} (set : ws.setting? fileVariable = some name) :
    source? ws none = some (.ofPath ws (Path.ofText name)) := by
  unfold source?
  rw [set]

theorem source?_of_unset (unset : ws.setting? fileVariable = none) :
    source? ws none = if (Source.usual ws).exists ws then some (.usual ws) else none := by
  unfold source?
  rw [unset]

/-- The source that is read is one that is chosen. -/
theorem chosen_source? (ws : Workspace) (given : Option String) :
    Chosen ws given (source? ws (given.bind explicitPath?)) := by
  by_cases silent : given.getD "" = ""
  · rw [explicitPath?_of_silent silent]
    cases set : ws.setting? fileVariable with
    | some name =>
      obtain ⟨there, named⟩ := setting?_eq_some_iff.mp set
      rw [source?_of_setting set]
      exact .setting silent there named
    | none =>
      have unset := setting?_eq_none_iff.mp set
      rw [source?_of_unset set]
      by_cases there : HasUsual ws
      · rw [if_pos (usual_exists_iff.mpr there)]
        exact .usual silent unset there
      · rw [if_neg (mt usual_exists_iff.mp there)]
        exact .nothing silent unset there
  · obtain ⟨name, rfl⟩ : ∃ name, given = some name := by
      cases given with
      | none => exact absurd rfl silent
      | some name => exact ⟨name, rfl⟩
    have named : name ≠ "" := silent
    rw [explicitPath?_of_named named]
    exact .asked rfl named

/-- No other source is chosen. -/
theorem Chosen.eq_source? {given : Option String} {s : Option Source} (h : Chosen ws given s) :
    s = source? ws (given.bind explicitPath?) := by
  cases h with
  | asked words named =>
    rw [words, explicitPath?_of_named named]
    rfl
  | setting silent set named =>
    rw [explicitPath?_of_silent silent, source?_of_setting (setting?_eq_some_iff.mpr ⟨set, named⟩)]
  | usual silent unset there =>
    rw [explicitPath?_of_silent silent, source?_of_unset (setting?_eq_none_iff.mpr unset),
      if_pos (usual_exists_iff.mpr there)]
  | nothing silent unset absent =>
    rw [explicitPath?_of_silent silent, source?_of_unset (setting?_eq_none_iff.mpr unset),
      if_neg (mt usual_exists_iff.mp absent)]

/-- The source that is looked for: the file that is asked for, else that of the variable, else the
usual one. -/
def sought (ws : Workspace) (explicit : Option Path) : Source :=
  (explicit.or ((ws.setting? fileVariable).map Path.ofText)).elim (.usual ws) (.ofPath ws)

/-- Two workspaces in which the same source is looked for, with the same on the way to it and at its
end. All else in their trees, and all other variables, may differ. -/
structure Alike (explicit : Option Path) (ws ws' : Workspace) : Prop where
  directory : ws'.directory = ws.directory
  directoryName : ws'.directoryName = ws.directoryName
  setting : ws'.setting? fileVariable = ws.setting? fileVariable
  file : ws.tree.Alike ws'.tree (sought ws explicit).start (sought ws explicit).parts

namespace Alike

theorem ofPath_eq (h : Alike explicit ws ws') (p : Path) :
    Source.ofPath ws' p = Source.ofPath ws p := by
  unfold Source.ofPath Workspace.start
  rw [h.directory]

theorem usual_eq (h : Alike explicit ws ws') : Source.usual ws' = Source.usual ws := by
  unfold Source.usual
  rw [h.directory, h.directoryName]

theorem source?_eq (h : Alike explicit ws ws') : source? ws' explicit = source? ws explicit := by
  have setting := h.setting
  cases explicit with
  | some path => exact congrArg some (h.ofPath_eq path)
  | none =>
    cases set : ws.setting? fileVariable with
    | some name =>
      rw [source?_of_setting set, source?_of_setting (setting.trans set), h.ofPath_eq]
    | none =>
      have usual : sought ws none = Source.usual ws := by
        rw [sought, set]
        rfl
      have same := h.file
      rw [usual] at same
      rw [source?_of_unset set, source?_of_unset (setting.trans set), h.usual_eq, Source.exists,
        Source.exists, same.find_eq]

end Alike

theorem eq_sought {s : Source} (h : source? ws explicit = some s) : s = sought ws explicit := by
  cases explicit with
  | some path => exact (Option.some.inj h).symm
  | none =>
    unfold sought
    cases set : ws.setting? fileVariable with
    | some name =>
      rw [source?_of_setting set] at h
      exact (Option.some.inj h).symm
    | none =>
      rw [source?_of_unset set] at h
      split at h
      · exact (Option.some.inj h).symm
      · cases h

section Loading

variable [Yaml.Loader]

/-- The configuration in what is read under the name of a source, or the failure to read it. -/
def ofReading (s : Source) (server : Option String) (reading : Except FileFault (List UInt8)) :
    Except Fault Configuration :=
  if Workspace.namesPlace s.parts then
    match reading with
    | .error reason => .error (.config (.unreadable s.name reason))
    | .ok content =>
      match fileText? content with
      | none => .error .notUtf8
      | some text =>
        entriesOfText s.name text >>= fun found => ofEntries (overrideServer server found)
  else .error .badValue

theorem result_load (ws : Workspace) (explicit : Option Path) :
    (load ws explicit).result = (entries ws (source? ws explicit)).result >>= fun found =>
      ofEntries (overrideServer (ws.setting? serverVariable) found) := by
  rw [load, Logged.result_bind]
  simp only [Logged.result_liftM]

/-- What the source makes of the configuration. -/
theorem result_load_eq (ws : Workspace) (explicit : Option Path) :
    (load ws explicit).result =
      (source? ws explicit).elim
        (.ok { usual with apiServer := (ws.setting? serverVariable).getD "" })
        fun s => ofReading s (ws.setting? serverVariable) (ws.tree.read s.start s.parts) := by
  rw [result_load]
  cases source? ws explicit with
  | none => cases ws.setting? serverVariable <;> rfl
  | some s =>
    rw [result_entries, entriesOfFile, Option.elim_some]
    unfold ofReading
    cases named : Workspace.namesPlace s.parts with
    | false =>
      rw [Workspace.readText_of_unnamed named]
      rfl
    | true =>
      cases found : ws.tree.read s.start s.parts with
      | error reason =>
        rw [Workspace.readText_of_error named found]
        rfl
      | ok content =>
        rw [Workspace.readText_of_ok named found]
        simp only [if_true]
        cases fileText? content <;> rfl

/-- What is not on the way to the source has no part in what is read, nor in the records. -/
theorem entries_congr (h : Alike explicit ws ws') :
    entries ws' (source? ws' explicit) = entries ws (source? ws explicit) := by
  rw [h.source?_eq]
  cases source : source? ws explicit with
  | none => rfl
  | some s =>
    have file := eq_sought source ▸ h.file
    have read : entriesOfFile ws' s = entriesOfFile ws s := by
      rw [entriesOfFile, entriesOfFile, Workspace.readText, Workspace.readText, file.read_eq]
    rw [entries, entries, read]

end Loading

end Sources

section Override

/-- The configuration with another server. -/
def withServer (url : String) (c : Configuration) : Configuration := { c with apiServer := url }

/-- The check of the field for the server. -/
def checkServer (data : List (Scalar × Value)) : Checked String :=
  Field.optional "api_server" usual.apiServer Field.text data

/-- The check of the other fields, with no server. -/
def checkOthers (data : List (Scalar × Value)) : Checked Configuration :=
  Configuration.mk "" <$> Field.optional "api_servers" usual.apiServers (Field.list Field.text) data
    <*> Field.optional "auth_types" usual.credentialKinds
      (Field.list (Field.choice CredentialKind.ofName?)) data
    <*> Field.optional "default_language" usual.defaultLanguage Field.text data
    <*> Field.optional "shell_style" usual.shellStyle (Field.choice Shell.Style.ofName?) data

theorem check_eq (data : List (Scalar × Value)) :
    check data = withServer <$> checkServer data <*> checkOthers data := by
  unfold check checkOthers checkServer
  -- Grouped anew, the fields stand in one row on both sides, under functions that are the same.
  simp only [functor_norm]
  rfl

theorem optional_put {α : Type} {name other : String} (ne : other ≠ name) (default : α)
    (check : Field.Check α) (v : Value) (data : List (Scalar × Value)) :
    Field.optional name default check (Entries.put (.text other) v data) =
      Field.optional name default check data := by
  unfold Field.optional
  rw [Entries.get?_put (Scalar.exact_text other), if_neg (by simpa using ne)]

theorem checkServer_put (url : String) (data : List (Scalar × Value)) :
    checkServer (Entries.put (.text "api_server") (.text url) data) = .ok url := by
  unfold checkServer Field.optional
  rw [Entries.get?_put (Scalar.exact_text _), if_pos (by simp)]
  rfl

theorem checkOthers_put (v : Value) (data : List (Scalar × Value)) :
    checkOthers (Entries.put (.text "api_server") v data) = checkOthers data := by
  unfold checkOthers
  rw [optional_put (by decide), optional_put (by decide), optional_put (by decide),
    optional_put (by decide)]

/-- The issue is about the server. -/
def isServerIssue (issue : Issue) : Bool := issue.location.head? == some "api_server"

theorem blames_checkServer (data : List (Scalar × Value)) :
    (checkServer data).Blames (isServerIssue · = true) :=
  (Field.blames_optional Field.isLocal_text _ _ data).imp fun _ named => beq_iff_eq.mpr named

theorem blames_other {α : Type} {check : Field.Check α} (isLocal : check.IsLocal) {name : String}
    (ne : name ≠ "api_server") (default : α) (data : List (Scalar × Value)) :
    (Field.optional name default check data).Blames (isServerIssue · = false) := by
  refine (Field.blames_optional isLocal name default data).imp fun issue named => ?_
  rw [isServerIssue, named]
  simpa using ne

theorem blames_checkOthers (data : List (Scalar × Value)) :
    (checkOthers data).Blames (isServerIssue · = false) := by
  have servers := blames_other (Field.isLocal_list Field.isLocal_text)
    (show "api_servers" ≠ _ by decide) usual.apiServers data
  have kinds := blames_other (Field.isLocal_list (Field.isLocal_choice CredentialKind.ofName?))
    (show "auth_types" ≠ _ by decide) usual.credentialKinds data
  have language := blames_other Field.isLocal_text
    (show "default_language" ≠ _ by decide) usual.defaultLanguage data
  have style := blames_other (Field.isLocal_choice Shell.Style.ofName?)
    (show "shell_style" ≠ _ by decide) usual.shellStyle data
  exact (((servers.map (Configuration.mk "")).seq kinds).seq language).seq style

/-- The issues that are not about the server. -/
def otherIssues (issues : List Issue) : List Issue :=
  issues.filter fun issue => !isServerIssue issue

theorem otherIssues_of_server {issues : List Issue}
    (h : ∀ issue ∈ issues, isServerIssue issue = true) : otherIssues issues = [] :=
  List.filter_eq_nil_iff.mpr fun issue mem => by simp [h issue mem]

theorem otherIssues_of_others {issues : List Issue}
    (h : ∀ issue ∈ issues, isServerIssue issue = false) : otherIssues issues = issues :=
  List.filter_eq_self.mpr fun issue mem => by simp [h issue mem]

/-- What a server that is set makes of an outcome. Of the issues those about the server go, and a
configuration with no other ones is loaded. A file that cannot be read stays so. -/
inductive Overridden (url : String) :
    Except Fault Configuration → Except Fault Configuration → Prop
  | loaded (c : Configuration) : Overridden url (.ok c) (.ok { c with apiServer := url })
  | invalid {issues : List Issue} (left : otherIssues issues ≠ []) :
      Overridden url (.error (.config (.invalid issues)))
        (.error (.config (.invalid (otherIssues issues))))
  | mended {issues : List Issue} {c : Configuration} (left : otherIssues issues = [])
      (server : c.apiServer = url) :
      Overridden url (.error (.config (.invalid issues))) (.ok c)
  | failed {fault : Fault} (other : ∀ issues, fault ≠ .config (.invalid issues)) :
      Overridden url (.error fault) (.error fault)

/-- What the check of a configuration comes to. -/
def ofChecked : Checked Configuration → Except Fault Configuration
  | .ok c => .ok c
  | .bad issues => .error (.config (.invalid issues))

/-- The configuration that a check finds in a mapping. -/
def readBy (check : List (Scalar × Value) → Checked Configuration) (data : List (Scalar × Value)) :
    Except Fault Configuration := do
  let data ← Field.ofMapping (.mapping data)
  ofChecked (check data)

variable {c : List (Scalar × Value) → Checked Configuration}

theorem readBy_of_named (named : ¬HasOtherKey data) : readBy c data = ofChecked (c data) := by
  rw [readBy, Field.ofMapping, if_pos ((all_text_iff data).mpr named), Logged.ok_bind]

theorem readBy_of_otherKey (other : HasOtherKey data) : readBy c data = .error .wrongKind := by
  rw [readBy, Field.ofMapping, if_neg (mt (all_text_iff data).mp (not_not_intro other)),
    Logged.error_bind]

theorem ofEntries_eq (data : List (Scalar × Value)) : ofEntries data = readBy check data := by
  unfold ofEntries readBy
  cases Field.ofMapping (.mapping data) with
  | error fault => rfl
  | ok data =>
    rw [Logged.ok_bind, Logged.ok_bind]
    cases check data <;> rfl

theorem Overridden.of_otherIssues {issues left : List Issue} (others : otherIssues issues = left)
    (some : left ≠ []) : Overridden url (.error (.config (.invalid issues)))
      (.error (.config (.invalid left))) := by
  subst others
  exact .invalid some

/-- The check of all fields against that of the others. -/
theorem overridden_ofChecked (url : String) (data : List (Scalar × Value)) :
    Overridden url (ofChecked (check data)) (withServer url <$> ofChecked (checkOthers data)) := by
  have server := blames_checkServer data
  have others := blames_checkOthers data
  rw [check_eq]
  cases read : checkServer data with
  | ok s =>
    cases rest : checkOthers data with
    | ok c => exact .loaded (withServer s c)
    | bad issues =>
      rw [rest] at others
      exact .of_otherIssues (otherIssues_of_others others.2) others.1
  | bad wrong =>
    rw [read] at server
    have none := otherIssues_of_server server.2
    cases rest : checkOthers data with
    | ok c => exact .mended none rfl
    | bad issues =>
      rw [rest] at others
      have same : otherIssues (wrong ++ issues) = issues := by
        rw [otherIssues, List.filter_append]
        exact congrArg₂ (· ++ ·) none (otherIssues_of_others others.2)
      exact .of_otherIssues same others.1

theorem overridden_readBy (url : String) (data : List (Scalar × Value)) :
    Overridden url (readBy check data) (withServer url <$> readBy checkOthers data) := by
  by_cases other : HasOtherKey data
  · rw [readBy_of_otherKey other, readBy_of_otherKey other]
    exact .failed nofun
  · rw [readBy_of_named other, readBy_of_named other]
    exact overridden_ofChecked url data

/-- A server that a variable sets is right, so it has a part in its own field alone. -/
theorem check_overrideServer (url : String) (data : List (Scalar × Value)) :
    check (overrideServer (some url) data) = withServer url <$> checkOthers data := by
  rw [check_eq, overrideServer, checkServer_put, checkOthers_put]
  cases checkOthers data <;> rfl

theorem ofEntries_overrideServer (url : String) (data : List (Scalar × Value)) :
    ofEntries (overrideServer (some url) data) = withServer url <$> readBy checkOthers data := by
  rw [ofEntries_eq]
  by_cases other : HasOtherKey data
  · rw [readBy_of_otherKey ((hasOtherKey_overrideServer _ data).mpr other),
      readBy_of_otherKey other]
    rfl
  · rw [readBy_of_named (mt (hasOtherKey_overrideServer _ data).mp other),
      readBy_of_named other, check_overrideServer]
    cases checkOthers data <;> rfl

/-- A configuration with a server asks no further. -/
theorem server_withServer (named : url ≠ "") (c : Configuration) (declared : List Value) :
    (withServer url c).server declared = .text url := by
  have first : (Value.text url).truthy = true := bne_iff_ne.mpr named
  have asked : (withServer url c).server declared =
      ((Value.text url :: (c.apiServers.map Value.text ++ declared)).find?
        Value.truthy).getD (Value.text "") := rfl
  rw [asked, List.find?_cons_of_pos first]
  rfl

end Override

section Loading

variable [Yaml.Loader]

/-- Until the fields are checked no field is refused. -/
theorem entries_error {s : Option Source} {fault : Fault}
    (h : (entries ws s).result = .error fault) (issues : List Issue) :
    fault ≠ .config (.invalid issues) := by
  rintro rfl
  cases s with
  | none => cases h
  | some s =>
    rw [result_entries] at h
    rcases Chain.bind_eq_error_iff.mp h with read | ⟨text, -, made⟩
    · rcases Workspace.readText_cases ws s.start s.parts _ with
        ⟨_, ok, -⟩ | ⟨_, announced, -⟩ | ⟨_, own, unreadable⟩
      · cases ok.symm.trans read
      · cases announced.symm.trans read
      · cases own.symm.trans read
        cases unreadable
    · unfold entriesOfText at made
      split at made
      · next refusal _ =>
        cases refusal with
        | malformed => cases made
        | broken fault unforeseen =>
          cases made
          cases unforeseen
      · split at made
        · split at made <;> cases made
        · cases made

theorem records_load_congr (alike : Alike explicit ws ws') :
    (load ws' explicit).records = (load ws explicit).records := by
  rw [load, load, Logged.records_bind_liftM, Logged.records_bind_liftM, entries_congr alike]

/-- The other fields are those that the file gives, whatever the server is. -/
theorem result_load_of_server (alike : Alike explicit ws ws')
    (set : ws'.setting? serverVariable = some url) :
    (load ws' explicit).result = withServer url <$>
      ((entries ws (source? ws explicit)).result >>= readBy checkOthers) := by
  rw [result_load, entries_congr alike, set]
  cases (entries ws (source? ws explicit)).result with
  | error fault => rfl
  | ok found => exact ofEntries_overrideServer url found

theorem overridden_load (alike : Alike explicit ws ws')
    (unset : ws.setting? serverVariable = none) (set : ws'.setting? serverVariable = some url) :
    Overridden url (load ws explicit).result (load ws' explicit).result := by
  rw [result_load_of_server alike set, result_load, unset]
  cases read : (entries ws (source? ws explicit)).result with
  | error fault => exact .failed (entries_error read)
  | ok found =>
    rw [Logged.ok_bind, Logged.ok_bind, overrideServer, ofEntries_eq]
    exact overridden_readBy url found

/-- A configuration is read from the first source that names a file. It depends on what is there and
on the way to it alone, and on the server that a variable sets. A server that is set replaces the
one of the configuration and removes the issues about it; every other field and issue stays. -/
theorem load_precedence (ws : Workspace) :
    (∀ given, ∃ s, Chosen ws given s ∧ (∀ s', Chosen ws given s' → s' = s) ∧
      (load ws (given.bind explicitPath?)).result =
        s.elim (.ok { usual with apiServer := (ws.setting? serverVariable).getD "" })
          fun s => ofReading s (ws.setting? serverVariable)
            (ws.tree.read s.start s.parts)) ∧
    ∀ explicit, ∃ others : Except Fault Configuration, ∀ ws', Alike explicit ws ws' →
      (ws'.setting? serverVariable = ws.setting? serverVariable →
        load ws' explicit = load ws explicit) ∧
      ∀ url, ws.setting? serverVariable = none → ws'.setting? serverVariable = some url →
        (load ws' explicit).records = (load ws explicit).records ∧
        Overridden url (load ws explicit).result (load ws' explicit).result ∧
        (load ws' explicit).result = (fun c => { c with apiServer := url }) <$> others ∧
        ∀ c, (load ws' explicit).result = .ok c → ∀ declared, c.server declared = .text url := by
  constructor
  · intro given
    exact ⟨_, chosen_source? ws given, fun _ chosen => chosen.eq_source?, result_load_eq ws _⟩
  · intro explicit
    refine ⟨(entries ws (source? ws explicit)).result >>= readBy checkOthers, ?_⟩
    intro ws' alike
    constructor
    · intro server
      rw [load, load, entries_congr alike, server]
    · intro url unset set
      have loaded := result_load_of_server alike set
      refine ⟨records_load_congr alike, overridden_load alike unset set, loaded, ?_⟩
      intro c found declared
      rw [loaded] at found
      obtain ⟨c, -, rfl⟩ := Chain.map_eq_ok_iff.mp found
      exact server_withServer (setting?_eq_some_iff.mp set).2 c declared

end Loading

section Examples

/-- A site whose configuration has a number for a server. It stands in a directory that a variable
points to, among other files and other variables. -/
def site (files settings : List (String × String)) : Workspace where
  tree := ⟨(["conf"], .directory) ::
    (["conf", "site.yml"],
      .file (Text.utf8Bytes "api_server: 5\nauth_types: [bearer]\n".toList)) ::
    files.map fun (name, text) => ([name], .file (Text.utf8Bytes text.toList)), []⟩
  directoryName := "/"
  settings := (fileVariable, "conf/site.yml") :: settings

theorem alike_site (files files' settings settings' : List (String × String)) :
    Alike none (site files settings) (site files' settings') where
  directory := rfl
  directoryName := rfl
  setting := rfl
  file := by
    have parts : (Path.ofText "conf/site.yml").parts = ["conf", "site.yml"] := by decide
    change (site files settings).tree.Alike _ [] (Path.ofText "conf/site.yml").parts
    rw [parts]
    refine ⟨fun place mem => ?_, rfl⟩
    rcases List.mem_pair.mp mem with rfl | rfl <;> rfl

theorem failure?_site :
    failure? (load (site [(fileName, "default_language: ruby\n")] []) none).result =
      some (.config (.invalid [⟨["api_server"], .notText⟩])) := by
  decide +kernel

/-- The file that the variable points to is read, not the usual one. Without the usual one the site
is the same, and a server that is set leaves no issue. -/
theorem site_mended :
    let plain := site [(fileName, "default_language: ruby\n")] []
    let bare := site [] []
    let set := site [("pets.yaml", "openapi: 3.1.0\n")]
      [(serverVariable, "https://env.example.com")]
    Chosen plain none (some ⟨[], ["conf", "site.yml"], "conf/site.yml"⟩) ∧
      Alike none plain bare ∧ load bare none = load plain none ∧ Alike none plain set ∧
      (load plain none).result = .error (.config (.invalid [⟨["api_server"], .notText⟩])) ∧
      ∃ c, (load set none).result = .ok c ∧ c.apiServer = "https://env.example.com" ∧
        ∀ declared, c.server declared = .text "https://env.example.com" := by
  intro plain bare set
  obtain ⟨sources, sites⟩ := load_precedence plain
  obtain ⟨others, alike⟩ := sites none
  obtain ⟨s, chosen, -, -⟩ := sources none
  have refused := failure?_eq_some_iff.mp failure?_site
  obtain ⟨-, overridden, -, server⟩ :=
    (alike set (alike_site ..)).2 "https://env.example.com" rfl rfl
  refine ⟨?_, alike_site .., (alike bare (alike_site ..)).1 rfl, alike_site .., refused, ?_⟩
  · have source : source? plain none = some ⟨[], ["conf", "site.yml"], "conf/site.yml"⟩ := by
      decide +kernel
    rw [← source]
    exact chosen.eq_source? ▸ chosen
  · rw [refused] at overridden
    generalize (load set none).result = outcome at overridden server ⊢
    cases overridden with
    | invalid left => exact absurd rfl left
    | mended left named => exact ⟨_, rfl, named, server _ rfl⟩
    | failed other => exact absurd rfl (other _)

end Examples

end RequestWriter.Configuration
