import Patchbay.Proofs.Loading
import Patchbay.Proofs.Persistence

set_option autoImplicit false

namespace Patchbay

namespace Project

theorem script_file_iff (stem : String) : isScriptFile (stem ++ ".json") = true ↔ stem ≠ "" := by
  have chars : (stem ++ ".json").toList.reverse = 'n' :: 'o' :: 's' :: 'j' :: '.' :: stem.toList.reverse := by simp
  have empty : stem = "" ↔ stem.toList.reverse = [] := by simp
  unfold isScriptFile Path.stemAndExtension
  dsimp only
  rw [chars, ne_eq, empty]
  cases stem.toList.reverse with
  | nil => simp [List.dropWhile]
  | cons => simp [List.dropWhile, List.takeWhile]; rfl

variable {write : Document → String} {read : String → Option Document} {files after : Files} {path file text : String}
  {script : Script} {manifest : Manifest}

/-- The names of the script files of a project. -/
def scriptFiles (files : Files) (path : String) : List String :=
  match files.list (scriptsPath path) with
  | .ok names => names.filter isScriptFile
  | .error _ => []

/-- A file is one of the script files of a project, under whatever path it is named. -/
structure Listed (files : Files) (path file : String) : Prop where
  script : isScriptFile (Files.fileName file) = true
  inside : files.root.locate (files.start file) (Path.parts file).dropLast = files.place (scriptsPath path)

theorem save_cases (saved : saveScriptWith write path script files = .ok (file, text, after)) :
    (script.saveWith write).1 = .ok text ∧ file = Path.join (scriptsPath path) (script.name ++ ".json") ∧
      ∃ made, files.makeDirectory (scriptsPath path) = .ok made ∧ made.write file (.file (some text)) = .ok after := by
  have name : script.name ++ "." ++ scriptExtension = script.name ++ ".json" := by rw [String.append_assoc]; rfl
  unfold saveScriptWith at saved
  dsimp only at saved
  rw [name, ← scriptsPath] at saved
  split at saved
  · cases saved
  next made created =>
  split at saved
  · cases saved
  next content written =>
  split at saved
  · next later stored =>
      cases saved
      exact ⟨written, rfl, made, created, stored⟩
  · cases saved

theorem manifest_iff : loadManifest files path = .ok manifest ↔ files.contains path = true ∧
    ∃ text, files.read (Path.join path manifestName) = .ok text ∧ Manifest.ofToml? text = some manifest := by
  unfold loadManifest readFile
  dsimp only [bind, Except.bind]
  by_cases there : files.contains path = true
  · rw [there, if_neg (by simp)]
    cases reads : files.read (Path.join path manifestName) with
    | error => split <;> simp
    | ok text =>
      have present : files.contains (Path.join path manifestName) = true := by
        rw [Files.contains, Files.read_iff.mp reads]
        rfl
      rw [present, if_neg (by simp)]
      dsimp only
      cases parsed : Manifest.ofToml? text <;> simp [parsed]
  · simp [there]

/-- The file that was saved, the folder of the scripts and the manifest, as they are after saving. -/
structure Saved (after : Files) (path file text : String) (manifest : Manifest) (folder place : List String)
    (entries : List (String × FileTree)) : Prop where
  sound : after.root.Sound
  valid : loadManifest after path = .ok manifest
  placed : after.place (scriptsPath path) = .ok folder
  lookup : after.lookup (scriptsPath path) = .ok (.directory entries)
  content : after.root.find folder = .ok (.directory entries)
  named : Path.IsName (Files.fileName file)
  usable : Path.isUsable file = true
  located : after.root.locate (after.start file) (Path.parts file).dropLast = .ok place
  written : after.place file = .ok (place ++ [Files.fileName file])
  found : after.root.find (place ++ [Files.fileName file]) = .ok (.file (some text))

theorem file_stem (directory name : String) : ∃ stem, Files.fileName (Path.join directory (name ++ ".json")) = stem ++ ".json" := by
  obtain ⟨front, ends⟩ := Path.join_ends directory (name ++ ".json")
  obtain ⟨before, last, parts⟩ := Path.parts_end (front ++ name)
  refine ⟨last, ?_⟩
  rw [Files.fileName, ends, ← String.append_assoc, parts ".json" (by decide), List.getLast?_concat, Option.getD_some]

/-- The manifest has another name than any script file. -/
theorem manifest_apart (place : List String) (stem : String) :
    files.place (Path.join path manifestName) ≠ .ok (place ++ [stem ++ ".json"]) := by
  intro placed
  obtain ⟨front, parts⟩ := Path.join_last path manifestName (by decide)
  rw [Files.place, parts, FileTree.locate_append] at placed
  obtain ⟨between, _, last⟩ := placed
  have names := (List.append_inj' ((FileTree.locate_name _ _ (by decide)).mp last).2 rfl).2
  have ends := congrArg (·.toList.getLast?) (List.singleton_inj.mp names)
  simp [manifestName] at ends

theorem scripts_named : Path.IsName scriptsName := by decide

theorem start_scripts : files.start (scriptsPath path) = files.start path := by
  rw [Files.start, scriptsPath, Path.join_absolute _ _ (by decide)]
  rfl

/-- Wherever the path of a file in the project starts, there is a folder. -/
theorem start_file (name : String) (folder : files.root.IsFolder (files.start path)) :
    files.root.IsFolder (files.start (Path.join (scriptsPath path) name)) := by
  cases absolute : Path.isAbsolute name with
  | false =>
    rw [scriptsPath, Files.start_below scripts_named absolute]
    exact folder
  | true =>
    have top : Path.isAbsolute (Path.join (scriptsPath path) name) = true := by rwa [Path.join, if_pos (.inl absolute)]
    rw [Files.start, if_pos top]
    exact FileTree.folder_top folder

theorem save_saved (sound : files.root.Sound) (valid : loadManifest files path = .ok manifest)
    (saved : saveScriptWith write path script files = .ok (file, text, after)) :
    ∃ folder place entries, Saved after path file text manifest folder place entries := by
  obtain ⟨_, rfl, made, created, stored⟩ := save_cases saved
  obtain ⟨there, toml, reads, parsed⟩ := manifest_iff.mp valid
  have start := Files.start_folder there
  obtain ⟨usable, here, make⟩ := Files.make_directory sound (by rwa [start_scripts]) created
  have startMade : made.root.IsFolder (made.start path) := by
    rw [Files.start, here]
    exact (make.keeps fun _ => True).folder _ start
  obtain ⟨place, written⟩ := Files.write_written make.sound (.file _) (start_file _ startMade) stored
  obtain ⟨folder, located, reached⟩ := make.reached
  obtain ⟨entries, content⟩ := written.keeps.folder folder reached
  have placed : after.place (scriptsPath path) = .ok folder := by
    refine Files.place_kept written.keeps written.here ?_
    rw [Files.place, Files.start, here]
    exact located
  have filled : scriptsPath path ≠ "" := by
    obtain ⟨front, ends⟩ := Path.join_ends path scriptsName
    rw [scriptsPath, ends]
    exact fun empty => scripts_named.filled (String.append_eq_empty_iff.mp empty).2
  obtain ⟨stem, ends⟩ := file_stem (scriptsPath path) script.name
  have keeps := (make.keeps _).trans written.keeps
  have stays := written.here.trans here
  refine ⟨folder, place, entries, written.sound, ?_, placed, ?_, content, written.named, written.usable, written.located, ?_,
    written.found⟩
  · refine manifest_iff.mpr ⟨Files.contains_kept keeps stays there, toml, ?_, parsed⟩
    refine Files.read_kept keeps stays (fun spot at_ same => ?_) reads
    rw [same, ends] at at_
    exact manifest_apart place stem at_
  · exact Files.lookup_iff.mpr ⟨filled, usable, folder, placed, content⟩
  · rw [Files.place, written.parts, FileTree.locate_append]
    refine ⟨place, written.located, (FileTree.locate_name _ _ written.named).mpr ⟨?_, rfl⟩⟩
    rw [written.found]
    rfl

variable {folder place : List String} {entries : List (String × FileTree)}

section

variable (saved : Saved after path file text manifest folder place entries)
  (alone : ∀ entry ∈ scriptFiles after path, after.place (Path.join (scriptsPath path) entry) = after.place file)

include saved alone

/-- A script file that is the one that was saved has its name, and then that one is listed. -/
theorem Saved.only : ∀ entry ∈ entries, isScriptFile entry.1 = true → entry.1 = Files.fileName file ∧ folder = place := by
  intro entry listed script
  have name : entry.1 ∈ scriptFiles after path := by
    rw [scriptFiles, Files.list, saved.lookup]
    exact List.mem_filter.mpr ⟨List.mem_map_of_mem listed, script⟩
  have same := (alone entry.1 name).trans saved.written
  cases saved.sound.within saved.content with
  | directory _ _ names _ =>
    obtain ⟨other, placed, _, spot⟩ := (Files.place_below scripts_named (names entry listed) _).mp same
    cases saved.placed.symm.trans placed
    obtain ⟨front, last⟩ := List.append_inj' spot rfl
    exact ⟨(List.singleton_inj.mp last).symm, front.symm⟩

theorem Saved.holds_none (unlisted : ¬ Listed after path file) : Holds after path [] := by
  refine .present entries [] saved.lookup (List.filter_eq_nil_iff.mpr fun entry inside script => unlisted ?_) (by simp)
  obtain ⟨name, rfl⟩ := saved.only alone entry inside script
  exact ⟨name ▸ script, saved.located.trans saved.placed.symm⟩

theorem Saved.holds_file (listed : Listed after path file)
    (usable : Path.isUsable (Path.join (scriptsPath path) (Files.fileName file)) = true) :
    Holds after path [(Files.fileName file, text)] := by
  cases saved.sound.within saved.content with
  | directory _ distinct _ _ =>
    obtain rfl : folder = place := Except.ok.inj (saved.placed.symm.trans (listed.inside.symm.trans saved.located))
    have found : Fields.find? (Files.fileName file) entries = some (.file (some text)) := by
      have child := saved.found
      rw [FileTree.find_child entries saved.content] at child
      cases there : Fields.find? (Files.fileName file) entries with
      | none => rw [there] at child; cases child
      | some tree => rw [there] at child; cases child; rfl
    refine .present entries _ saved.lookup ?_ (by simpa using usable)
    -- Names are listed once, so that the filter gives one entry if it gives the file and nothing else.
    refine List.perm_singleton.mp ((List.perm_ext_iff_of_nodup (distinct.of_map.filter _) (List.nodup_singleton _)).mpr ?_)
    intro entry
    rw [List.mem_filter, List.mem_singleton]
    constructor
    · rintro ⟨inside, script⟩
      have name := (saved.only alone entry inside script).1
      have same := Fields.find_mem entry.1 entry.2 entries distinct inside
      rw [name, found] at same
      exact Prod.ext name (Option.some.inj same).symm
    · rintro rfl
      exact ⟨Fields.mem_of_find _ _ _ found, listed.script⟩

end

/-- A name without a slash is that of a file among the scripts, unless it is empty. -/
theorem listed_iff (whole : '/' ∉ script.name.toList)
    (saved : saveScriptWith write path script files = .ok (file, text, after)) :
    (Listed after path file ↔ script.name ≠ "") ∧ Path.join (scriptsPath path) (Files.fileName file) = file := by
  obtain ⟨_, rfl, _⟩ := save_cases saved
  have plain : '/' ∉ (script.name ++ ".json").toList := by simpa using whole
  have relative := Path.relative_of_whole _ plain
  have parts := Path.parts_below path scriptsName _ scripts_named relative
  rw [Path.parts_whole plain, ← scriptsPath] at parts
  have name : Files.fileName (Path.join (scriptsPath path) (script.name ++ ".json")) = script.name ++ ".json" := by
    rw [Files.fileName, parts, List.getLast?_concat, Option.getD_some]
  refine ⟨⟨fun listed => (script_file_iff _).mp (name ▸ listed.script), fun filled => ⟨?_, ?_⟩⟩, by rw [name]⟩
  · rw [name]
    exact (script_file_iff _).mpr filled
  · rw [parts, List.dropLast_concat, Files.place, Files.start, Files.start, Path.join_absolute _ _ relative]

theorem load_saved {loaded : Script} (saved : Saved after path file text manifest folder place entries)
    (holds : Holds after path [(Files.fileName file, text)]) (loads : Script.loadWith read text = .ok loaded)
    (filled : loaded.name ≠ "") : loadWith read after path = .ok ⟨path, manifest, [(loaded.name, loaded)]⟩ := by
  have made : readScript read (Files.fileName file, text) = .ok loaded := by
    rw [readScript, loads, Except.map, if_neg]
    rwa [String.isEmpty_iff]
  exact (load_collected (holds_in_order saved.sound holds (.refl _) (List.pairwise_singleton _ _)) saved.valid
    ⟨.cons made .nil, List.nodup_singleton _⟩).1

/-- A saved script is found again if its file is listed among the scripts, and lost in silence otherwise. A script whose name
has no slash is listed unless the name is empty. What is loaded is the script as saving left it, at rest, as far as its text
can be read and with the numbers that come back from there. -/
theorem saved_scripts_found (write : Document → String) (read : String → Option Document) (files after : Files)
    (path file text : String) (manifest : Manifest) (script : Script) (sound : files.root.Sound)
    (valid : loadManifest files path = .ok manifest) (saved : saveScriptWith write path script files = .ok (file, text, after))
    (alone : ∀ entry ∈ scriptFiles after path, after.place (Path.join (scriptsPath path) entry) = after.place file)
    (representable : script.Representable) (finite : script.finite = true) :
    (¬ Listed after path file → loadWith read after path = .ok ⟨path, manifest, []⟩) ∧
      (Listed after path file → Path.isUsable (Path.join (scriptsPath path) (Files.fileName file)) = true →
        (∀ near nearSingle, (∀ document, (script.convertReferences .indexed).1.toDocument? = some document →
            document.Survives write read near nearSingle) →
          loadWith read after path = .ok ⟨path, manifest, [(script.name, script.restored near nearSingle)]⟩) ∧
        script.restored id id = (script.saveWith write).2.reset ∧
        ∀ cause, Script.loadWith read text = .error cause →
          loadWith read after path = .error (.malformedScript (Path.join (scriptsPath path) (Files.fileName file)) cause)) ∧
      ('/' ∉ script.name.toList → (Listed after path file ↔ script.name ≠ "") ∧
        Path.isUsable (Path.join (scriptsPath path) (Files.fileName file)) = true) := by
  obtain ⟨folder, place, entries, state⟩ := save_saved sound valid saved
  obtain ⟨written, _⟩ := save_cases saved
  refine ⟨fun unlisted => ?_, fun listed usable => ?_, fun whole => ?_⟩
  · have order : InOrder read after path [] := holds_in_order state.sound (state.holds_none alone unlisted) .nil .nil
    exact (load_collected order state.valid ⟨.nil, .nil⟩).1
  · have holds := state.holds_file alone listed usable
    have filled : script.name ≠ "" := by
      intro empty
      exact (listed_iff (by rw [empty]; simp) saved).1.mp listed empty
    refine ⟨fun near nearSingle survives => ?_, script.restored_exact write, fun cause unread => ?_⟩
    · obtain ⟨other, saves, loads⟩ := script.finite_reload write read near nearSingle representable finite survives
      cases written.symm.trans saves
      exact load_saved state holds loads filled
    · have fails : readScript read (Files.fileName file, text) = .error cause := by rw [readScript, unread, Except.map]
      exact load_fails (holds_in_order state.sound holds (.refl _) (List.pairwise_singleton _ _)) state.valid
        (List.nil_append _).symm ⟨.nil, .nil⟩ (.malformed cause fails)
  · obtain ⟨listed, same⟩ := listed_iff whole saved
    exact ⟨listed, by rw [same]; exact state.usable⟩

def emptyProject : Files := ⟨.directory [manifestEntry], []⟩

def unnamed : Script := { thermostat with name := "" }

theorem thermostat_found : ∃ file text after manifest, saveScript "." thermostat emptyProject = .ok (file, text, after) ∧
    load after "." = .ok ⟨".", manifest, [("Thermostat", thermostat.save.2.reset)]⟩ := by
  have sound : emptyProject.root.Sound := .directory _ (by decide) (by decide) (by simpa using .file _)
  have valid : (loadManifest emptyProject ".").isOk = true := by decide +kernel
  have saves : (saveScript "." thermostat emptyProject).isOk = true := by decide +kernel
  have alone : (saveScript "." thermostat emptyProject).toOption.all (fun saved => (scriptFiles saved.2.2 ".").all fun entry =>
      saved.2.2.place (Path.join (scriptsPath ".") entry) = saved.2.2.place saved.1) = true := by decide +kernel
  cases loads : loadManifest emptyProject "." with
  | error => rw [loads] at valid; cases valid
  | ok manifest =>
    cases saved : saveScript "." thermostat emptyProject with
    | error => rw [saved] at saves; cases saves
    | ok result =>
      obtain ⟨file, text, after⟩ := result
      rw [saved] at alone
      obtain ⟨_, listed, named⟩ := saved_scripts_found Document.pretty Document.parse? emptyProject after "." file text manifest
        thermostat sound loads saved (by simpa [Except.toOption] using alone) (by decide +kernel) (by decide +kernel)
      obtain ⟨inside, usable⟩ := named (by decide)
      obtain ⟨found, exact_, _⟩ := listed (inside.mpr (by decide)) usable
      have loaded := found id id (thermostat.legible_survives (by decide +kernel))
      rw [exact_] at loaded
      exact ⟨file, text, after, manifest, rfl, loaded⟩

/-- Without a name the same script is saved in a file that is all extension. -/
theorem unnamed_lost : unnamed.Representable ∧ unnamed.finite = true ∧ unnamed.legible = true ∧
    ∃ text after manifest, saveScript "." unnamed emptyProject = .ok ("./scripts/.json", text, after) ∧
      load after "." = .ok ⟨".", manifest, []⟩ := by
  have lost : (saveScript "." unnamed emptyProject).toOption.any (fun saved => saved.1 = "./scripts/.json" &&
      (load saved.2.2 ".").toOption.any fun project => project.path = "." && project.scripts.isEmpty) = true := by decide +kernel
  refine ⟨by decide +kernel, by decide +kernel, by decide +kernel, ?_⟩
  cases saved : saveScript "." unnamed emptyProject with
  | error => rw [saved] at lost; cases lost
  | ok result =>
    obtain ⟨file, text, after⟩ := result
    rw [saved] at lost
    cases loaded : load after "." with
    | error => simp [Except.toOption, loaded] at lost
    | ok project =>
      obtain ⟨path, manifest, scripts⟩ := project
      simp only [Except.toOption, loaded, Option.any_some, Bool.and_eq_true, decide_eq_true_eq, List.isEmpty_iff] at lost
      obtain ⟨rfl, rfl, rfl⟩ := lost
      exact ⟨text, after, manifest, rfl, loaded⟩

end Project

end Patchbay
