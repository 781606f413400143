import Patchbay.Proofs.Folders
import Patchbay.Proofs.Sorting

set_option autoImplicit false

namespace Patchbay

namespace Project

def scriptsPath (path : String) : String := Path.join path scriptsName

variable (read : String → Option Document)

/-- A script under its own name or, where it has none, under that of its file. -/
def readScript (entry : String × String) : Except ScriptError Script :=
  (Script.loadWith read entry.2).map fun script =>
    if script.name.isEmpty then { script with name := (Path.stemAndExtension entry.1).1 } else script

/-- The script files of a project with their texts, as the directory lists them. Whatever else it lists is left open. -/
inductive Holds (files : Files) (path : String) : List (String × String) → Prop where
  | absent (missing : files.contains (scriptsPath path) = false) : Holds files path []
  | present (entries : List (String × FileTree)) (texts : List (String × String))
      (found : files.lookup (scriptsPath path) = .ok (.directory entries))
      (texted : entries.filter (isScriptFile ·.1) = texts.map fun entry => (entry.1, .file (some entry.2)))
      (usable : ∀ entry ∈ texts, Path.isUsable (Path.join (scriptsPath path) entry.1) = true) :
      Holds files path texts

structure Collected (texts : List (String × String)) (scripts : List Script) : Prop where
  read : List.Forall₂ (fun entry script => readScript read entry = .ok script) texts scripts
  distinct : (scripts.map (·.name)).Nodup

/-- What is wrong with a file that comes after those of some scripts. -/
inductive Fails (directory : String) (scripts : List Script) (entry : String × String) : LoadError → Prop where
  | malformed (cause : ScriptError) (unread : readScript read entry = .error cause) :
      Fails directory scripts entry (.malformedScript (Path.join directory entry.1) cause)
  | duplicate (script : Script) (made : readScript read entry = .ok script) (taken : script.name ∈ scripts.map (·.name)) :
      Fails directory scripts entry (.duplicateScript script.name)

def keyed (script : Script) : String × Script := (script.name, script)

def enter (found : Fields Script) (script : Script) : Fields Script := Fields.insert script.name script found

variable {read} {files : Files} {directory path : String} {texts ordered : List (String × String)} {scripts : List Script}
  {found : Fields Script}

theorem keyed_names (listed : found.Perm (scripts.map keyed)) :
    (found.map (·.1)).Perm (scripts.map (·.name)) := by
  have names := listed.map (·.1)
  rwa [List.map_map] at names

theorem load_script_read {entry : String × String} (there : files.read (Path.join directory entry.1) = .ok entry.2) :
    loadScript read files directory entry.1 =
      (readScript read entry).mapError (.malformedScript (Path.join directory entry.1)) := by
  have text : readFile files (Path.join directory entry.1) = .ok entry.2 := by rw [readFile, there]
  unfold loadScript readScript
  dsimp only [bind, Except.bind]
  rw [text]
  dsimp only
  cases Script.loadWith read entry.2 <;> rfl

theorem load_files_step {entry : String × String} {script : Script} (names : List String)
    (there : files.read (Path.join directory entry.1) = .ok entry.2) (made : readScript read entry = .ok script)
    (fresh : script.name ∉ found.map (·.1)) :
    loadFiles read files directory found (entry.1 :: names) = loadFiles read files directory (enter found script) names := by
  rw [loadFiles, load_script_read there, made, Except.mapError]
  dsimp only [bind, Except.bind]
  rw [(Fields.find_none _ _).mpr fresh]
  rfl

theorem load_files_collected (names : List String) (done : List Script) (listed : found.Perm (done.map keyed))
    (there : ∀ entry ∈ texts, files.read (Path.join directory entry.1) = .ok entry.2)
    (made : List.Forall₂ (fun entry script => readScript read entry = .ok script) texts scripts)
    (distinct : ((done ++ scripts).map (·.name)).Nodup) :
    (scripts.foldl enter found).Perm ((done ++ scripts).map keyed) ∧
      loadFiles read files directory found (texts.map (·.1) ++ names) =
        loadFiles read files directory (scripts.foldl enter found) names := by
  -- By induction on the files that are in order, with the scripts that were entered before.
  induction made generalizing found done with
  | nil => exact ⟨by rwa [List.append_nil], rfl⟩
  | @cons entry script others scripts first rest ih =>
    obtain ⟨thereFirst, thereRest⟩ := List.forall_mem_cons.mp there
    rw [List.append_cons] at distinct ⊢
    have fresh : script.name ∉ found.map (·.1) := by
      rw [(keyed_names listed).mem_iff]
      rw [List.map_append, List.map_append, List.nodup_append, List.nodup_append] at distinct
      exact fun taken => distinct.1.2.2 _ taken _ List.mem_cons_self rfl
    have longer : (enter found script).Perm ((done ++ [script]).map keyed) := by
      rw [List.map_append]
      exact (Fields.insert_perm _ _ _ fresh).trans ((listed.cons _).trans (List.perm_append_singleton _ _).symm)
    obtain ⟨all, same⟩ := ih (done ++ [script]) longer thereRest distinct
    exact ⟨all, (load_files_step _ thereFirst first fresh).trans same⟩

theorem load_files_fails (names : List String) {entry : String × String} {error : LoadError}
    (listed : found.Perm (scripts.map keyed)) (there : files.read (Path.join directory entry.1) = .ok entry.2)
    (fails : Fails read directory scripts entry error) :
    loadFiles read files directory found (entry.1 :: names) = .error error := by
  rw [loadFiles, load_script_read there]
  cases fails with
  | malformed cause unread => rw [unread]; rfl
  | duplicate script made taken =>
    rw [made, Except.mapError]
    dsimp only [bind, Except.bind]
    rw [← (keyed_names listed).mem_iff] at taken
    cases inside : Fields.find? script.name found with
    | none => exact absurd taken ((Fields.find_none _ _).mp inside)
    | some => rfl

/-- Either all files are in order, or there is a first one that is not. -/
theorem collected_or_fails (read : String → Option Document) (directory : String) (texts : List (String × String)) :
    (∃ scripts, Collected read texts scripts) ∨ ∃ before entry after scripts error, texts = before ++ entry :: after ∧
      Collected read before scripts ∧ Fails read directory scripts entry error := by
  induction texts using List.reverseRecOn with
  | nil => exact .inl ⟨[], .nil, .nil⟩
  | append_singleton front entry ih =>
    obtain ⟨scripts, collected⟩ | ⟨before, first, after, scripts, error, rfl, collected, fails⟩ := ih
    · cases made : readScript read entry with
      | error cause => exact .inr ⟨front, entry, [], scripts, _, rfl, collected, .malformed cause made⟩
      | ok script =>
        by_cases taken : script.name ∈ scripts.map (·.name)
        · exact .inr ⟨front, entry, [], scripts, _, rfl, collected, .duplicate script made taken⟩
        · refine .inl ⟨scripts ++ [script], List.rel_append collected.read (.cons made .nil), ?_⟩
          rw [List.map_append, List.map_singleton, ← List.concat_eq_append]
          exact collected.distinct.concat taken
    · exact .inr ⟨before, first, after ++ [entry], scripts, error, by simp, collected, fails⟩

/-- The texts of the script files in the order of their paths, which is the one in which they are loaded. -/
structure InOrder (read : String → Option Document) (files : Files) (path : String) (ordered : List (String × String)) : Prop where
  increasing : (ordered.map (·.1)).Pairwise (· < ·)
  there : ∀ entry ∈ ordered, files.read (Path.join (scriptsPath path) entry.1) = .ok entry.2
  loads : loadScripts read files path = loadFiles read files (scriptsPath path) [] (ordered.map (·.1))

theorem script_names {entries : List (String × FileTree)}
    (texted : entries.filter (isScriptFile ·.1) = texts.map fun entry => (entry.1, .file (some entry.2))) :
    (entries.map (·.1)).filter isScriptFile = texts.map (·.1) := by
  rw [List.filter_map]
  exact (congrArg (List.map Prod.fst) texted).trans (by rw [List.map_map]; rfl)

theorem holds_in_order (sound : files.root.Sound) (holds : Holds files path texts) (same : ordered.Perm texts)
    (increasing : (ordered.map (·.1)).Pairwise (· < ·)) : InOrder read files path ordered := by
  -- A directory lists its files in no order. It is the sort that brings them into the one in which they are loaded.
  cases holds with
  | absent missing =>
    cases List.perm_nil.mp same
    exact ⟨.nil, by simp, by rw [loadScripts, ← scriptsPath, missing]; rfl⟩
  | present entries texts found texted usable =>
    obtain ⟨_, _, place, _, there⟩ := Files.lookup_iff.mp found
    cases sound.within there with
    | directory _ distinct _ _ =>
      refine ⟨increasing, fun entry inside => ?_, ?_⟩
      · have given := same.mem_iff.mp inside
        have listed : (entry.1, FileTree.file (some entry.2)) ∈ entries.filter (isScriptFile ·.1) :=
          texted ▸ List.mem_map.mpr ⟨entry, given, rfl⟩
        rw [Files.read, scriptsPath, Files.lookup_below (by decide) sound found (List.mem_filter.mp listed).1 (usable entry given)]
      · have present : files.contains (scriptsPath path) = true := by rw [Files.contains, found]; rfl
        have listed : files.list (scriptsPath path) = .ok (entries.map (·.1)) := by rw [Files.list, found]
        have sorts : (sorted (entries.map (·.1))).filter isScriptFile = ordered.map (·.1) := by
          refine increasing_unique ((sorted_increasing _ distinct).filter _) increasing ?_
          exact ((sorted_perm _).filter _).trans (script_names texted ▸ (same.map _).symm)
        rw [loadScripts, ← scriptsPath, present, listed]
        exact congrArg (loadFiles read files (scriptsPath path) []) sorts

theorem texts_in_order (sound : files.root.Sound) (holds : Holds files path texts) :
    ∃ ordered : List (String × String), ordered.Perm texts ∧ (ordered.map (·.1)).Pairwise (· < ·) := by
  have distinct : (texts.map (·.1)).Nodup := by
    cases holds with
    | absent => exact .nil
    | present entries texts found texted =>
      obtain ⟨_, _, place, _, there⟩ := Files.lookup_iff.mp found
      cases sound.within there with
      | directory _ distinct _ _ => exact script_names texted ▸ distinct.filter _
  have total : Std.Total fun a b : String × String => a.1 ≤ b.1 := ⟨fun a b => Std.le_total⟩
  have trans : IsTrans (String × String) fun a b => a.1 ≤ b.1 := ⟨fun a b c => Std.le_trans⟩
  have same := List.perm_insertionSort (fun a b : String × String => a.1 ≤ b.1) texts
  have apart := (same.map Prod.fst).nodup_iff.mpr distinct
  have below := (List.pairwise_insertionSort (fun a b : String × String => a.1 ≤ b.1) texts).and (List.pairwise_map.mp apart)
  exact ⟨_, same, List.pairwise_map.mpr (below.imp fun pair => Std.lt_of_le_of_ne pair.1 pair.2)⟩

section

variable {manifest : Manifest} (order : InOrder read files path ordered) (valid : loadManifest files path = .ok manifest)

include order valid

theorem load_collected (collected : Collected read ordered scripts) :
    loadWith read files path = .ok ⟨path, manifest, scripts.foldl enter []⟩ ∧
      (scripts.foldl enter []).Perm (scripts.map keyed) := by
  obtain ⟨all, same⟩ := load_files_collected [] [] .nil order.there collected.read collected.distinct
  refine ⟨?_, all⟩
  rw [loadWith, valid, order.loads, ← List.append_nil (ordered.map _), same]
  rfl

theorem load_fails {before after : List (String × String)} {entry : String × String} {error : LoadError}
    (split : ordered = before ++ entry :: after) (collected : Collected read before scripts)
    (fails : Fails read (scriptsPath path) scripts entry error) : loadWith read files path = .error error := by
  have there := order.there
  rw [split, List.forall_mem_append, List.forall_mem_cons] at there
  obtain ⟨all, same⟩ := load_files_collected (entry.1 :: after.map (·.1)) [] .nil there.1 collected.read collected.distinct
  rw [loadWith, valid, order.loads, split, List.map_append, List.map_cons, same, load_files_fails _ all there.2.1 fails]
  rfl

end

/-- Every file is loaded and none twice, or the first file that is not in order is reported, first by the order of the paths
and not by that of the listing. Neither the listing nor other files matter. -/
theorem loading_keeps_scripts (read : String → Option Document) (files : Files) (path : String) (manifest : Manifest)
    (texts : List (String × String)) (sound : files.root.Sound) (valid : loadManifest files path = .ok manifest)
    (holds : Holds files path texts) :
    ∃ ordered : List (String × String), ordered.Perm texts ∧ (ordered.map (·.1)).Pairwise (· < ·) ∧
      ((∃ project, loadWith read files path = .ok project) ↔ ∃ scripts, Collected read ordered scripts) ∧
      (∀ project, loadWith read files path = .ok project → project.path = path ∧ project.manifest = manifest ∧
        ∃ scripts, Collected read ordered scripts ∧ project.scripts.Perm (scripts.map keyed) ∧
          ∀ script ∈ scripts, Fields.find? script.name project.scripts = some script) ∧
      (∀ error, loadWith read files path = .error error ↔ ∃ before entry after scripts, ordered = before ++ entry :: after ∧
        Collected read before scripts ∧ Fails read (scriptsPath path) scripts entry error) ∧
      ∀ (other : Files) (listed : List (String × String)), other.root.Sound → loadManifest other path = .ok manifest →
        Holds other path listed → listed.Perm texts → loadWith read other path = loadWith read files path := by
  obtain ⟨ordered, same, increasing⟩ := texts_in_order sound holds
  have order : InOrder read files path ordered := holds_in_order sound holds same increasing
  refine ⟨ordered, same, increasing, ?_⟩
  obtain ⟨scripts, collected⟩ | ⟨before, entry, after, scripts, error, split, collected, fails⟩ :=
    collected_or_fails read (scriptsPath path) ordered
  · obtain ⟨loads, all⟩ := load_collected order valid collected
    refine ⟨⟨fun _ => ⟨scripts, collected⟩, fun _ => ⟨_, loads⟩⟩, fun project loaded => ?_, fun error => ⟨fun failed => ?_, ?_⟩, ?_⟩
    · cases loads.symm.trans loaded
      refine ⟨rfl, rfl, scripts, collected, all, fun script inside => ?_⟩
      exact Fields.find_mem _ _ _ ((keyed_names all).nodup_iff.mpr collected.distinct)
        (all.mem_iff.mpr (List.mem_map_of_mem inside))
    · cases loads.symm.trans failed
    · rintro ⟨before, entry, after, others, split, collected, fails⟩
      exact load_fails order valid split collected fails
    · intro other listed soundOther validOther holdsOther again
      rw [loads, (load_collected (holds_in_order soundOther holdsOther (same.trans again.symm) increasing) validOther collected).1]
  · have failed := load_fails order valid split collected fails
    refine ⟨⟨?_, ?_⟩, fun project loaded => ?_, fun other => ⟨fun again => ?_, ?_⟩, ?_⟩
    · rintro ⟨project, loaded⟩
      cases failed.symm.trans loaded
    · rintro ⟨others, all⟩
      exact ⟨_, (load_collected order valid all).1⟩
    · cases failed.symm.trans loaded
    · cases failed.symm.trans again
      exact ⟨before, entry, after, scripts, split, collected, fails⟩
    · rintro ⟨before, entry, after, others, split, collected, fails⟩
      exact load_fails order valid split collected fails
    · intro other listed soundOther validOther holdsOther again
      rw [failed, load_fails (holds_in_order soundOther holdsOther (same.trans again.symm) increasing) validOther split
        collected fails]

/-- Two scripts of one name, and a file without a script that the directory lists before them and that comes last in order. -/
def clashingTexts : List (String × String) :=
  [("clock.json", ""), ("bell.json", "\x7b\"name\":\"alarm\"\x7d"), ("alarm.json", "\x7b\"name\":\"\"\x7d")]

def scriptEntries : List (String × FileTree) :=
  ("notes.txt", .file none) :: clashingTexts.map fun entry => (entry.1, .file (some entry.2))

def manifestEntry : String × FileTree := ("klax.toml", .file (some "[project]\nid=\"p\"\nname=\"P\"\n"))

def clashingProject : Files := ⟨.directory [manifestEntry, ("scripts", .directory scriptEntries)], []⟩

theorem clash_found_in_path_order : (∃ manifest, loadManifest clashingProject "." = .ok manifest) ∧
    Holds clashingProject "." clashingTexts ∧ load clashingProject "." = .error (.duplicateScript "alarm") := by
  have sound : clashingProject.root.Sound := by
    refine .directory _ (by decide) (by decide) ?_
    simp only [List.forall_mem_cons, List.not_mem_nil, false_imp_iff, implies_true, and_true]
    refine ⟨.file _, .directory _ (by decide) (by decide) ?_⟩
    simp only [scriptEntries, clashingTexts, List.map, List.forall_mem_cons, List.not_mem_nil, false_imp_iff, implies_true,
      and_true]
    exact ⟨.file _, .file _, .file _, .file _⟩
  have holds : Holds clashingProject "." clashingTexts := by
    refine .present scriptEntries clashingTexts
      (Files.lookup_iff.mpr ⟨by decide, by decide, ["scripts"], by decide +kernel, ?_⟩) ?_ (by decide +kernel)
    · simp [clashingProject, manifestEntry, FileTree.find, Fields.find?]
    · have apart : isScriptFile "notes.txt" = false := by decide
      have scripts : ∀ entry ∈ clashingTexts, isScriptFile entry.1 = true := by decide
      simp [scriptEntries, List.filter_map, apart, List.filter_eq_self.mpr scripts, Function.comp_def]
  have valid : (loadManifest clashingProject ".").isOk = true := by decide +kernel
  have names : ∀ entry ∈ clashingTexts.tail, (readScript Document.parse? entry).toOption.map (·.name) = some "alarm" := by
    decide +kernel
  have reads : ∀ entry ∈ clashingTexts.tail, ∃ script, readScript Document.parse? entry = .ok script ∧ script.name = "alarm" := by
    intro entry inside
    have name := names entry inside
    cases read : readScript Document.parse? entry with
    | error => rw [read] at name; cases name
    | ok script => rw [read] at name; exact ⟨script, rfl, Option.some.inj name⟩
  obtain ⟨bell, second, again⟩ := reads _ (.head _)
  obtain ⟨alarm, first, named⟩ := reads _ (.tail _ (.head _))
  cases loads : loadManifest clashingProject "." with
  | error => rw [loads] at valid; cases valid
  | ok manifest =>
    obtain ⟨ordered, same, increasing, _, _, fails, _⟩ :=
      loading_keeps_scripts Document.parse? clashingProject "." manifest clashingTexts sound loads holds
    -- There is one order only that increases.
    have rising : clashingTexts.reverse.Pairwise fun a b => a.1 < b.1 := by decide
    have rises : ordered.Pairwise fun a b => a.1 < b.1 := List.pairwise_map.mp increasing
    obtain rfl := (same.trans (List.reverse_perm _).symm).eq_of_pairwise
      (fun _ _ _ _ below above => absurd below (String.lt_asymm above)) rises rising
    refine ⟨⟨manifest, rfl⟩, holds, (fails _).mpr ⟨[_], _, [_], [alarm], rfl, ⟨.cons first .nil, List.nodup_singleton _⟩, ?_⟩⟩
    rw [← again]
    exact .duplicate bell second (by simp [named, again])

end Project

end Patchbay
