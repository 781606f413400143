import Mathlib.Data.List.Induction
import Patchbay.Proofs.Entries
import Patchbay.Proofs.Paths

set_option autoImplicit false

namespace Patchbay

namespace FileTree

/-- In every directory each name stands once and none of them is taken for a way to stay or to go up. -/
inductive Sound : FileTree → Prop where
  | file (text : Option String) : Sound (.file text)
  | directory (entries : List (String × FileTree)) (distinct : (entries.map (·.1)).Nodup)
      (named : ∀ entry ∈ entries, Path.IsName entry.1) (inner : ∀ entry ∈ entries, Sound entry.2) :
      Sound (.directory entries)

def IsFolder (tree : FileTree) (place : List String) : Prop := ∃ entries, tree.find place = .ok (.directory entries)

variable {tree after new : FileTree} {place rest parts : List String} {name : String}

theorem IsFolder.found (folder : tree.IsFolder place) : (tree.find place).isOk = true := by
  obtain ⟨entries, found⟩ := folder
  rw [found]
  rfl

theorem find_set (name other : String) (new : FileTree) (entries : List (String × FileTree)) :
    Fields.find? name (setEntry other new entries) = if other = name then some new else Fields.find? name entries := by
  induction entries with
  | nil => rfl
  | cons entry rest ih =>
    rw [setEntry]
    by_cases here : entry.1 = other
    · rw [if_pos here, Fields.find?, Fields.find?, here]
      split <;> rfl
    · rw [if_neg here, Fields.find?, Fields.find?, ih]
      by_cases named : entry.1 = name
      · rw [if_pos named, if_pos named, if_neg fun same => here (named.trans same.symm)]
      · rw [if_neg named, if_neg named]

theorem set_names (name : String) (new : FileTree) (entries : List (String × FileTree)) :
    (setEntry name new entries).map (·.1) =
      entries.map (·.1) ++ if name ∈ entries.map (·.1) then [] else [name] := by
  induction entries with
  | nil => rfl
  | cons entry rest ih =>
    rw [setEntry]
    by_cases here : entry.1 = name
    · rw [if_pos here, if_pos (by simp [here]), List.append_nil]
      rfl
    · have later : name ∈ (entry :: rest).map (·.1) ↔ name ∈ rest.map (·.1) := by simp [Ne.symm here]
      rw [if_neg here, List.map_cons, ih, if_congr later rfl rfl]
      rfl

theorem set_distinct (name : String) (new : FileTree) {entries : List (String × FileTree)}
    (distinct : (entries.map (·.1)).Nodup) : ((setEntry name new entries).map (·.1)).Nodup := by
  rw [set_names]
  split
  · rwa [List.append_nil]
  · next fresh =>
      rw [← List.concat_eq_append]
      exact distinct.concat fresh

theorem mem_set {name : String} {new : FileTree} {entries : List (String × FileTree)} :
    ∀ entry ∈ setEntry name new entries, entry = (name, new) ∨ entry ∈ entries := by
  induction entries with
  | nil => exact fun entry inside => .inl (List.mem_singleton.mp inside)
  | cons first rest ih =>
    intro entry inside
    rw [setEntry] at inside
    split at inside
    · next here => exact here ▸ (List.mem_cons.mp inside).imp_right (List.mem_cons_of_mem first)
    · rcases List.mem_cons.mp inside with rfl | inside
      · exact .inr List.mem_cons_self
      · exact (ih entry inside).imp_right (List.mem_cons_of_mem first)

@[simp]
theorem find_here (tree : FileTree) : tree.find [] = .ok tree := by
  cases tree <;> rfl

theorem find_down (found : (tree.find (name :: rest)).isOk = true) :
    ∃ entries inner, tree = .directory entries ∧ Fields.find? name entries = some inner ∧
      tree.find (name :: rest) = inner.find rest := by
  cases tree with
  | file text => cases found
  | directory entries =>
    rw [find] at found ⊢
    cases inside : Fields.find? name entries with
    | none => rw [inside] at found; cases found
    | some inner => exact ⟨entries, inner, rfl, inside, rfl⟩

theorem find_append (tree : FileTree) (place rest : List String) :
    tree.find (place ++ rest) = (tree.find place).bind (·.find rest) := by
  induction place generalizing tree with
  | nil => rw [List.nil_append, find_here, Except.bind]
  | cons name others ih =>
    rw [List.cons_append]
    cases tree with
    | file text => rw [find, find, Except.bind]
    | directory entries =>
      rw [find, find]
      cases Fields.find? name entries with
      | none => rfl
      | some inner => exact ih inner

theorem find_child (entries : List (String × FileTree)) (found : tree.find place = .ok (.directory entries)) (name : String) :
    tree.find (place ++ [name]) = (Fields.find? name entries).elim (.error .notFound) .ok := by
  rw [find_append, found, Except.bind, find]
  cases Fields.find? name entries with
  | none => rfl
  | some inner => exact find_here inner

theorem folder_above (next : List String) (found : (tree.find (place ++ name :: next)).isOk = true) :
    tree.IsFolder place := by
  rw [find_append] at found
  cases front : tree.find place with
  | error => rw [front] at found; cases found
  | ok inner =>
    cases inner with
    | directory entries => exact ⟨entries, front⟩
    | file text => rw [front] at found; cases found

theorem folder_up (folder : tree.IsFolder place) : tree.IsFolder place.dropLast := by
  cases place using List.reverseRecOn with
  | nil => exact folder
  | append_singleton =>
    rw [List.dropLast_concat]
    exact folder_above [] folder.found

theorem folder_top (folder : tree.IsFolder place) : tree.IsFolder [] := by
  cases place with
  | nil => exact folder
  | cons first rest => exact folder_above rest folder.found

/-- All that is changed by putting something into a folder. Only the folders on the way to it get another content. -/
theorem find_put (new : FileTree) (name : String) (folder : tree.IsFolder place) (other : List String) :
    (∃ next, other = place ++ name :: next ∧ (put new (place ++ [name]) tree).find other = new.find next) ∨
      tree.IsFolder other ∧ (put new (place ++ [name]) tree).IsFolder other ∨
      (put new (place ++ [name]) tree).find other = tree.find other := by
  induction place generalizing tree other with
  | nil =>
    obtain ⟨entries, found⟩ := folder
    cases found
    rw [List.nil_append, put, put]
    cases other with
    | nil => exact .inr (.inl ⟨⟨_, rfl⟩, _, rfl⟩)
    | cons first next =>
      rw [find, find, find_set]
      by_cases same : name = first
      · rw [if_pos same, same]
        exact .inl ⟨next, rfl, rfl⟩
      · rw [if_neg same]
        exact .inr (.inr rfl)
  | cons first others ih =>
    obtain ⟨entries, inner, rfl, inside, down⟩ := find_down folder.found
    rw [IsFolder, down] at folder
    rw [List.cons_append, put, inside, Option.getD_some]
    cases other with
    | nil => exact .inr (.inl ⟨⟨_, rfl⟩, _, rfl⟩)
    | cons second next =>
      unfold IsFolder
      rw [find, find, find_set]
      by_cases same : first = second
      · subst same
        rw [if_pos rfl, inside]
        obtain ⟨behind, rfl, put⟩ | kept := ih folder next
        · exact .inl ⟨behind, rfl, put⟩
        · exact .inr kept
      · rw [if_neg same]
        exact .inr (.inr rfl)

/-- What is there stays there: folders, and the texts of files but for one place. -/
structure Keeps (changed : List String → Prop) (tree after : FileTree) : Prop where
  folder : ∀ place, tree.IsFolder place → after.IsFolder place
  found : ∀ place, (tree.find place).isOk = true → (after.find place).isOk = true
  file : ∀ place text, ¬ changed place → tree.find place = .ok (.file text) → after.find place = .ok (.file text)

theorem Keeps.refl (changed : List String → Prop) (tree : FileTree) : Keeps changed tree tree :=
  ⟨fun _ => id, fun _ => id, fun _ _ _ => id⟩

theorem Keeps.trans {changed : List String → Prop} {last : FileTree} (first : Keeps changed tree after)
    (second : Keeps changed after last) : Keeps changed tree last where
  folder place folder := second.folder place (first.folder place folder)
  found place found := second.found place (first.found place found)
  file place text same found := second.file place text same (first.file place text same found)

theorem put_keeps (changed : List String → Prop) (folder : tree.IsFolder place) (file : ¬ tree.IsFolder (place ++ [name]))
    (noted : (tree.find (place ++ [name])).isOk = true → changed (place ++ [name])) :
    Keeps changed tree (put new (place ++ [name]) tree) := by
  -- Below a place that is no folder there is nothing, so that only the place itself can be lost.
  have lost (next : List String) (found : (tree.find (place ++ name :: next)).isOk = true) : next = [] := by
    cases next with
    | nil => rfl
    | cons second others =>
      rw [List.append_cons] at found
      exact absurd (folder_above others found) file
  constructor
  · intro other there
    obtain ⟨next, rfl, _⟩ | ⟨_, stays⟩ | same := find_put new name folder other
    · obtain rfl := lost next there.found
      exact absurd there file
    · exact stays
    · rwa [IsFolder, same]
  · intro other there
    obtain ⟨next, rfl, found⟩ | ⟨_, stays⟩ | same := find_put new name folder other
    · rw [found, lost next there, find_here]
      rfl
    · exact stays.found
    · rwa [same]
  · intro other text kept there
    obtain ⟨next, rfl, _⟩ | ⟨⟨content, found⟩, _⟩ | same := find_put new name folder other
    · have stands : (tree.find (place ++ name :: next)).isOk = true := by rw [there]; rfl
      obtain rfl := lost next stands
      exact absurd (noted stands) kept
    · cases there.symm.trans found
    · rwa [same]

theorem put_found (new : FileTree) (name : String) (folder : tree.IsFolder place) :
    (put new (place ++ [name]) tree).find (place ++ [name]) = .ok new := by
  induction place generalizing tree with
  | nil =>
    obtain ⟨entries, found⟩ := folder
    cases found
    rw [List.nil_append, put, put, find, find_set, if_pos rfl]
    exact find_here new
  | cons first others ih =>
    obtain ⟨entries, inner, rfl, inside, down⟩ := find_down folder.found
    rw [IsFolder, down] at folder
    rw [List.cons_append, put, find, find_set, if_pos rfl, inside]
    exact ih folder

namespace Sound

theorem within (sound : tree.Sound) (found : tree.find place = .ok after) : after.Sound := by
  induction place generalizing tree with
  | nil =>
    cases (find_here tree).symm.trans found
    exact sound
  | cons name others ih =>
    obtain ⟨entries, child, rfl, inside, down⟩ := find_down (by rw [found]; rfl)
    cases sound with
    | directory _ _ named inner =>
      exact ih (inner _ (Fields.mem_of_find name child entries inside)) (down.symm.trans found)

theorem names (sound : tree.Sound) (found : (tree.find place).isOk = true) : ∀ name ∈ place, Path.IsName name := by
  induction place generalizing tree with
  | nil => exact fun name inside => absurd inside List.not_mem_nil
  | cons name others ih =>
    obtain ⟨entries, child, rfl, inside, down⟩ := find_down found
    rw [down] at found
    cases sound with
    | directory _ _ named inner =>
      have listed := Fields.mem_of_find name child entries inside
      exact List.forall_mem_cons.mpr ⟨named _ listed, ih (inner _ listed) found⟩

theorem put (sound : tree.Sound) (fits : new.Sound) (named : ∀ name ∈ place, Path.IsName name) :
    (FileTree.put new place tree).Sound := by
  induction place generalizing tree with
  | nil => rwa [FileTree.put]
  | cons name others ih =>
    obtain ⟨first, behind⟩ := List.forall_mem_cons.mp named
    cases sound with
    | file text => exact .file text
    | directory entries distinct names inner =>
      have below : (FileTree.put new others ((Fields.find? name entries).getD empty)).Sound := by
        cases inside : Fields.find? name entries with
        | none => exact ih (.directory [] .nil (by simp) (by simp)) behind
        | some child => exact ih (inner _ (Fields.mem_of_find name child entries inside)) behind
      rw [FileTree.put]
      refine .directory _ (set_distinct _ _ distinct) (fun entry inside => ?_) fun entry inside => ?_
      · obtain rfl | old := mem_set entry inside
        · exact first
        · exact names entry old
      · obtain rfl | old := mem_set entry inside
        · exact below
        · exact inner entry old

end Sound

theorem locate_cons (tree : FileTree) (place : List String) (part : String) (rest goal : List String) :
    tree.locate place (part :: rest) = .ok goal ↔ tree.IsFolder place ∧
      if part = "" ∨ part = "." then tree.locate place rest = .ok goal
      else if part = ".." then tree.locate place.dropLast rest = .ok goal
      else (tree.find (place ++ [part])).isOk = true ∧ tree.locate (place ++ [part]) rest = .ok goal := by
  rw [locate, IsFolder]
  cases found : tree.find place with
  | error => simp
  | ok inner =>
    cases inner with
    | file text => simp
    | directory entries =>
      rw [find_child entries found]
      simp only [Except.ok.injEq, directory.injEq, exists_eq', true_and]
      split
      · rfl
      · split
        · rfl
        · cases Fields.find? part entries <;> simp [Except.isOk, Except.toBool]

theorem locate_append (place front rest goal : List String) :
    tree.locate place (front ++ rest) = .ok goal ↔
      ∃ between, tree.locate place front = .ok between ∧ tree.locate between rest = .ok goal := by
  induction front generalizing place with
  | nil => simp [locate]
  | cons part others ih =>
    rw [List.cons_append]
    simp only [locate_cons, ih]
    split
    · simp [and_assoc]
    · split <;> simp [and_assoc]

theorem locate_name (place goal : List String) (named : Path.IsName name) :
    tree.locate place [name] = .ok goal ↔ (tree.find (place ++ [name])).isOk = true ∧ goal = place ++ [name] := by
  rw [locate_cons, if_neg (not_or.mpr ⟨named.filled, named.notHere⟩), if_neg named.notAbove, locate, Except.ok.injEq,
    eq_comm (a := goal)]
  exact ⟨And.right, fun there => ⟨folder_above [] there.1, there⟩⟩

theorem locate_found (place goal : List String) (found : (tree.find place).isOk = true)
    (located : tree.locate place parts = .ok goal) : (tree.find goal).isOk = true := by
  induction parts generalizing place with
  | nil =>
    cases located
    exact found
  | cons part rest ih =>
    obtain ⟨folder, located⟩ := (locate_cons tree place part rest goal).mp located
    split at located
    · exact ih place found located
    · split at located
      · exact ih place.dropLast (folder_up folder).found located
      · exact ih (place ++ [part]) located.1 located.2

theorem Keeps.locate {changed : List String → Prop} (keeps : Keeps changed tree after) (place goal : List String)
    (located : tree.locate place parts = .ok goal) : after.locate place parts = .ok goal := by
  induction parts generalizing place with
  | nil => exact located
  | cons part rest ih =>
    rw [locate_cons] at located ⊢
    refine ⟨keeps.folder place located.1, ?_⟩
    have located := located.2
    split
    · next stays =>
        rw [if_pos stays] at located
        exact ih place located
    · next moves =>
        rw [if_neg moves] at located
        split
        · next up =>
            rw [if_pos up] at located
            exact ih place.dropLast located
        · next down =>
            rw [if_neg down] at located
            exact ⟨keeps.found _ located.1, ih (place ++ [part]) located.2⟩

/-- A directory is made with all that lead to it, and nothing is lost. -/
structure Made (tree : FileTree) (place parts : List String) (after : FileTree) : Prop where
  sound : after.Sound
  keeps : ∀ changed, Keeps changed tree after
  reached : ∃ goal, after.locate place parts = .ok goal ∧ after.IsFolder goal

theorem Made.down {middle : FileTree} (named : Path.IsName name) (folder : tree.IsFolder place)
    (keeps : ∀ changed, Keeps changed tree middle) (inner : middle.IsFolder (place ++ [name]))
    (made : Made middle (place ++ [name]) rest after) : Made tree place (name :: rest) after := by
  have stays (changed : List String → Prop) := (keeps changed).trans (made.keeps changed)
  have kept := (made.keeps fun _ => True).folder _ inner
  obtain ⟨goal, located, reached⟩ := made.reached
  refine ⟨made.sound, stays, goal, (locate_cons ..).mpr ⟨(stays fun _ => True).folder place folder, ?_⟩, reached⟩
  rw [if_neg (not_or.mpr ⟨named.filled, named.notHere⟩), if_neg named.notAbove]
  exact ⟨kept.found, located⟩

theorem make_made (sound : tree.Sound) (place : List String) (folder : tree.IsFolder place)
    (pieces : ∀ part ∈ parts, '/' ∉ part.toList) (made : makeFrom place parts tree = .ok after) :
    Made tree place parts after := by
  induction parts generalizing tree place with
  | nil =>
    cases made
    exact ⟨sound, fun changed => .refl changed _, place, rfl, folder⟩
  | cons part rest ih =>
    obtain ⟨piece, pieces⟩ := List.forall_mem_cons.mp pieces
    rw [makeFrom] at made
    split at made
    · next stays =>
        obtain ⟨safe, keeps, goal, located, reached⟩ := ih sound place folder pieces made
        refine ⟨safe, keeps, goal, (locate_cons ..).mpr ⟨(keeps fun _ => True).folder place folder, ?_⟩, reached⟩
        rwa [if_pos stays]
    · next moves =>
        split at made
        · next up =>
            obtain ⟨safe, keeps, goal, located, reached⟩ := ih sound place.dropLast (folder_up folder) pieces made
            refine ⟨safe, keeps, goal, (locate_cons ..).mpr ⟨(keeps fun _ => True).folder place folder, ?_⟩, reached⟩
            rwa [if_neg moves, if_pos up]
        · next down =>
            have named : Path.IsName part := ⟨piece, fun empty => moves (.inl empty), fun here => moves (.inr here), down⟩
            split at made
            · next entries found =>
                exact .down named folder (fun changed => .refl changed tree) ⟨entries, found⟩
                  (ih sound (place ++ [part]) ⟨entries, found⟩ pieces made)
            · cases made
            · next missing =>
                split at made
                · cases made
                · have absent : ¬ tree.IsFolder (place ++ [part]) := by
                    rintro ⟨_, there⟩
                    cases missing.symm.trans there
                  have inner : (put empty (place ++ [part]) tree).IsFolder (place ++ [part]) :=
                    ⟨[], put_found empty part folder⟩
                  have names : ∀ name ∈ place ++ [part], Path.IsName name :=
                    List.forall_mem_append.mpr ⟨sound.names folder.found, by simpa using named⟩
                  have safe := sound.put (.directory [] .nil (by simp) (by simp)) names
                  refine .down named folder (fun changed => put_keeps changed folder absent fun found => ?_) inner
                    (ih safe (place ++ [part]) inner pieces made)
                  rw [missing] at found
                  cases found
            · cases made

end FileTree

namespace Files

def place (files : Files) (path : String) : Except FileFault (List String) :=
  files.root.locate (files.start path) (Path.parts path)

def fileName (path : String) : String := (Path.parts path).getLast?.getD ""

variable {files after : Files} {path folder name text : String} {place : List String} {tree new : FileTree}
  {changed : List String → Prop}

theorem lookup_iff : files.lookup path = .ok tree ↔
    path ≠ "" ∧ Path.isUsable path = true ∧ ∃ place, files.place path = .ok place ∧ files.root.find place = .ok tree := by
  rw [lookup, ← place]
  by_cases empty : path = ""
  · simp [empty]
  · by_cases usable : Path.isUsable path = true
    · cases files.place path <;> simp [empty, usable]
    · simp [empty, usable]

theorem start_below (named : Path.IsName folder) (relative : Path.isAbsolute name = false) :
    files.start (Path.join (Path.join path folder) name) = files.start path := by
  rw [start, start, Path.join_absolute _ _ relative, Path.join_absolute _ _ (Path.relative_of_whole folder named.whole)]

theorem place_below (above : Path.IsName folder) (named : Path.IsName name) (goal : List String) :
    files.place (Path.join (Path.join path folder) name) = .ok goal ↔
      ∃ place, files.place (Path.join path folder) = .ok place ∧ (files.root.find (place ++ [name])).isOk = true ∧
        goal = place ++ [name] := by
  have relative := Path.relative_of_whole name named.whole
  rw [place, place, Path.parts_below path folder name above relative, Path.parts_whole named.whole, FileTree.locate_append,
    start, start, Path.join_absolute _ _ relative]
  simp only [FileTree.locate_name _ _ named]

/-- What a directory lists is found under its name. -/
theorem lookup_below (above : Path.IsName folder) (sound : files.root.Sound) {entries : List (String × FileTree)}
    (found : files.lookup (Path.join path folder) = .ok (.directory entries)) {entry : String × FileTree}
    (listed : entry ∈ entries) (usable : Path.isUsable (Path.join (Path.join path folder) entry.1) = true) :
    files.lookup (Path.join (Path.join path folder) entry.1) = .ok entry.2 := by
  obtain ⟨_, _, place, placed, there⟩ := lookup_iff.mp found
  cases sound.within there with
  | directory _ distinct names _ =>
    have named := names entry listed
    have child : files.root.find (place ++ [entry.1]) = .ok entry.2 := by
      rw [FileTree.find_child entries there,
        Fields.find_mem entry.1 entry.2 entries distinct listed, Option.elim]
    have below := (place_below above named _).mpr ⟨place, placed, by rw [child]; rfl, rfl⟩
    refine lookup_iff.mpr ⟨fun empty => ?_, usable, place ++ [entry.1], below, child⟩
    rw [Path.join_below path above (Path.relative_of_whole _ named.whole), String.append_eq_empty_iff] at empty
    exact named.filled empty.2

theorem contains_iff : files.contains path = true ↔ ∃ tree, files.lookup path = .ok tree := by
  rw [contains]
  cases files.lookup path <;> simp [Except.isOk, Except.toBool]

theorem start_folder (there : files.contains path = true) : files.root.IsFolder (files.start path) := by
  obtain ⟨tree, found⟩ := contains_iff.mp there
  obtain ⟨_, _, place, placed, _⟩ := lookup_iff.mp found
  obtain ⟨first, rest, parts⟩ := Path.parts_filled path
  rw [Files.place, parts, FileTree.locate_cons] at placed
  exact placed.1

theorem read_iff : files.read path = .ok text ↔ files.lookup path = .ok (.file (some text)) := by
  rw [read]
  cases files.lookup path with
  | error => simp
  | ok tree =>
    cases tree with
    | directory => simp
    | file content => cases content <;> simp

section

variable (keeps : FileTree.Keeps changed files.root after.root) (here : after.here = files.here)

include keeps here

theorem place_kept (placed : files.place path = .ok place) : after.place path = .ok place := by
  rw [Files.place, start, here]
  exact keeps.locate _ _ placed

theorem contains_kept (there : files.contains path = true) : after.contains path = true := by
  obtain ⟨tree, found⟩ := contains_iff.mp there
  obtain ⟨filled, usable, place, placed, found⟩ := lookup_iff.mp found
  have stays := keeps.found place (by rw [found]; rfl)
  cases still : after.root.find place with
  | error => rw [still] at stays; cases stays
  | ok tree => exact contains_iff.mpr ⟨tree, lookup_iff.mpr ⟨filled, usable, place, place_kept keeps here placed, still⟩⟩

theorem read_kept (apart : ∀ place, files.place path = .ok place → ¬ changed place) (reads : files.read path = .ok text) :
    after.read path = .ok text := by
  obtain ⟨filled, usable, place, placed, found⟩ := lookup_iff.mp (read_iff.mp reads)
  have stays := keeps.file place _ (apart place placed) found
  exact read_iff.mpr (lookup_iff.mpr ⟨filled, usable, place, place_kept keeps here placed, stays⟩)

end

theorem write_cases (written : files.write path new = .ok after) :
    Path.isUsable path = true ∧ Path.IsName (fileName path) ∧
      Path.parts path = (Path.parts path).dropLast ++ [fileName path] ∧
      ∃ place, files.root.locate (files.start path) (Path.parts path).dropLast = .ok place ∧
        (files.root.find (place ++ [fileName path]) = .error .notFound ∨
          ∃ content, files.root.find (place ++ [fileName path]) = .ok (.file content)) ∧
        after = { files with root := FileTree.put new (place ++ [fileName path]) files.root } := by
  unfold write at written
  dsimp only at written
  rw [← fileName] at written
  split at written
  · cases written
  split at written
  · cases written
  next plain =>
  split at written
  · cases written
  next usable =>
  rw [not_or, not_or] at plain
  rw [not_or, Bool.not_eq_true, Bool.not_eq_false'] at usable
  have parts : Path.parts path = (Path.parts path).dropLast ++ [fileName path] := by
    cases last : (Path.parts path).getLast? with
    | none => exact absurd (by rw [fileName, last]; rfl) plain.1
    | some name =>
      obtain ⟨front, ends⟩ := List.getLast?_eq_some_iff.mp last
      rw [fileName, last, ends, List.dropLast_concat, Option.getD_some]
  have inside : fileName path ∈ Path.parts path := by
    rw [parts]
    exact List.mem_append_right _ (List.mem_singleton_self _)
  refine ⟨usable.1, ⟨Path.parts_pieces path _ inside, plain.1, plain.2.1, plain.2.2⟩, parts, ?_⟩
  split at written
  · cases written
  next place located =>
  refine ⟨place, located, ?_⟩
  split at written
  · cases written
  · next content found => exact ⟨.inr ⟨content, found⟩, (Except.ok.inj written).symm⟩
  · next missing => exact ⟨.inl missing, (Except.ok.inj written).symm⟩
  · cases written

/-- A file is written into the folder that its path leads to, and all else stays. -/
structure Written (files : Files) (path : String) (new : FileTree) (after : Files) (place : List String) : Prop where
  here : after.here = files.here
  usable : Path.isUsable path = true
  named : Path.IsName (fileName path)
  parts : Path.parts path = (Path.parts path).dropLast ++ [fileName path]
  sound : after.root.Sound
  keeps : FileTree.Keeps (· = place ++ [fileName path]) files.root after.root
  located : after.root.locate (after.start path) (Path.parts path).dropLast = .ok place
  found : after.root.find (place ++ [fileName path]) = .ok new

theorem write_written (sound : files.root.Sound) (fits : new.Sound) (folder : files.root.IsFolder (files.start path))
    (written : files.write path new = .ok after) : ∃ place, Written files path new after place := by
  obtain ⟨usable, named, parts, place, located, before, rfl⟩ := write_cases written
  have there := FileTree.locate_found _ _ folder.found located
  have inside : files.root.IsFolder place := by
    cases found : files.root.find place with
    | error => rw [found] at there; cases there
    | ok tree =>
      cases tree with
      | directory entries => exact ⟨entries, found⟩
      | file =>
        rw [FileTree.find_append, found] at before
        obtain missing | ⟨_, present⟩ := before
        · cases missing
        · cases present
  have file : ¬ files.root.IsFolder (place ++ [fileName path]) := by
    rintro ⟨entries, found⟩
    rw [found] at before
    obtain missing | ⟨_, present⟩ := before
    · cases missing
    · cases present
  have keeps : FileTree.Keeps (· = place ++ [fileName path]) files.root
      (FileTree.put new (place ++ [fileName path]) files.root) :=
    FileTree.put_keeps _ inside file fun _ => rfl
  have names : ∀ name ∈ place ++ [fileName path], Path.IsName name :=
    List.forall_mem_append.mpr ⟨sound.names there, by simpa using named⟩
  exact ⟨place, rfl, usable, named, parts, sound.put fits names, keeps, keeps.locate _ _ located,
    FileTree.put_found new _ inside⟩

theorem make_directory (sound : files.root.Sound) (folder : files.root.IsFolder (files.start path))
    (created : files.makeDirectory path = .ok after) : Path.isUsable path = true ∧ after.here = files.here ∧
      FileTree.Made files.root (files.start path) (Path.parts path) after.root := by
  unfold makeDirectory at created
  split at created
  · cases created
  next usable =>
  split at created
  · next root makes =>
      cases created
      exact ⟨by simpa using usable, rfl, FileTree.make_made sound _ folder (Path.parts_pieces path) makes⟩
  · cases created

end Files

end Patchbay
