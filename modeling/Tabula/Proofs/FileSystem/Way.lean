import Tabula.Proofs.FileSystem

/-!
# Ways

Where parts lead is said by the parts alone, once every place that they pass is a directory; so a
way that leads somewhere leads there for good as long as directories are only added. Making the
directories of a way adds the places that it passes, with those above them, and leaves every file in
its place. When it succeeds, a name below the way was either missing before, or the whole way was
there already and nothing is added.
-/

namespace Tabula.FileSystem

variable {files made left right : FileSystem} {location place : Location} {part name : String}
  {parts : List String}

theorem isDirectory_of_higher {above : Location} (higher : above <+: location)
    (directory : files.isDirectory location = true) : files.isDirectory above = true := by
  simp only [isDirectory, Bool.or_eq_true, List.isEmpty_iff, List.any_eq_true,
    List.isPrefixOf_iff_prefix] at directory ⊢
  rcases directory with rfl | ⟨known, known_mem, below⟩
  · exact .inl (List.prefix_nil.mp higher)
  · exact .inr ⟨known, known_mem, higher.trans below⟩

/-- What is above a place is above its parent, unless it is the place itself. -/
theorem prefix_dropLast_of_ne {above : Location} (higher : above <+: location)
    (differs : above ≠ location) : above <+: location.dropLast := by
  rcases List.eq_nil_or_concat location with rfl | ⟨parent, last, rfl⟩
  · exact higher
  · rw [List.concat_eq_append] at higher differs ⊢
    rw [List.dropLast_concat]
    exact (List.prefix_concat_iff.mp higher).resolve_left differs

/-! ## Removing -/

/-- What is above the removed place stays a directory. -/
theorem isDirectory_removeAll_iff (placed : location ≠ []) :
    (files.removeAll location).isDirectory place = true ↔
      ¬location <+: place ∧ files.isDirectory place = true := by
  simp only [isDirectory, removeAll, Bool.or_eq_true, List.isEmpty_iff, List.any_map,
    List.any_eq_true, Function.comp_apply, List.isPrefixOf_iff_prefix]
  constructor
  · rintro (rfl | ⟨known, known_mem, below⟩)
    · exact ⟨fun above => placed (List.prefix_nil.mp above), .inl rfl⟩
    · split at below
      · rename_i removed
        refine ⟨fun above => ?_, .inr ⟨known, known_mem, ?_⟩⟩
        · have shorter := (above.trans below).length_le
          have positive := List.length_pos_iff.mpr placed
          rw [List.length_dropLast] at shorter
          omega
        · exact (below.trans (List.dropLast_prefix location)).trans removed
      · rename_i kept
        exact ⟨fun above => kept (above.trans below), .inr ⟨known, known_mem, below⟩⟩
  · rintro ⟨apart, rfl | ⟨known, known_mem, below⟩⟩
    · exact .inl rfl
    · refine .inr ⟨known, known_mem, ?_⟩
      split
      · rename_i removed
        have higher := (List.prefix_or_prefix_of_prefix below removed).resolve_right apart
        exact prefix_dropLast_of_ne higher fun same => apart (same ▸ List.prefix_rfl)
      · exact below

/-- Nothing is left at a removed place or below it, and all else is left as it was. -/
theorem node?_removeAll (placed : location ≠ []) (place : Location) :
    (files.removeAll location).node? place =
      if location <+: place then none else files.node? place := by
  have held : (files.removeAll location).contents.get? place =
      (files.contents.get? place).filter fun _ => !location.isPrefixOf place :=
    OrderedMap.get?_filter _ files.contents place
  by_cases removed : location <+: place
  · rw [if_pos removed, node?_eq_none_iff, held, List.isPrefixOf_iff_prefix.mpr removed,
      ← Bool.not_eq_true, isDirectory_removeAll_iff placed]
    exact ⟨fun directory => directory.1 removed, by simp⟩
  · have unremoved : location.isPrefixOf place = false := by
      rwa [← Bool.not_eq_true, List.isPrefixOf_iff_prefix]
    have same : (files.removeAll location).isDirectory place = files.isDirectory place := by
      rw [Bool.eq_iff_iff, isDirectory_removeAll_iff placed]
      exact and_iff_right removed
    rw [if_neg removed, node?, node?, same, held, unremoved]
    cases files.contents.get? place with
    | none => rfl
    | some content => rfl

/-! ## Where parts lead -/

/-- The place to which parts lead from a directory, whatever stands on the way. -/
def destination (location : Location) : List String → Location
  | [] => location
  | part :: rest =>
      if part = ".." then destination location.dropLast rest
      else destination (location ++ [part]) rest

theorem destination_concat (proper : name ≠ "..") :
    destination location (parts ++ [name]) = destination location parts ++ [name] := by
  induction parts generalizing location with
  | nil => simp [destination, proper]
  | cons part rest ih =>
      rw [List.cons_append, destination, destination]
      split
      · exact ih
      · exact ih

/-- What a way of at least two parts does: it goes up, or on through a directory. -/
theorem walk_cons_eq_ok_iff {next : String} {rest : List String} :
    files.walk location (part :: next :: rest) = .ok place ↔
      (part = ".." ∧ files.walk location.dropLast (next :: rest) = .ok place) ∨
      (part ≠ ".." ∧ part.utf8ByteSize ≤ maxNameBytes ∧
        files.isDirectory (location ++ [part]) = true ∧
          files.walk (location ++ [part]) (next :: rest) = .ok place) := by
  rw [walk]
  split
  · rename_i above
    simp [above]
  · rename_i named
    split
    · rename_i long
      simp [named, Nat.not_le.mpr long]
    · rename_i short
      rw [if_neg (List.cons_ne_nil next rest)]
      cases node : files.node? (location ++ [part]) with
      | none =>
          have nowhere := node?_eq_none_iff.mp node
          simp [named, nowhere.1]
      | some found =>
          cases found with
          | file content =>
              have file := node?_eq_file_iff.mp node
              simp [named, file.1]
          | directory =>
              have directory := node?_eq_directory_iff.mp node
              simp [named, directory, Nat.le_of_not_lt short]

theorem walk_singleton_eq_ok_iff :
    files.walk location [part] = .ok place ↔
      (part = ".." ∧ place = location.dropLast) ∨
      (part ≠ ".." ∧ part.utf8ByteSize ≤ maxNameBytes ∧ place = location ++ [part]) := by
  rw [walk]
  split
  · rename_i above
    simp [above, walk, eq_comm]
  · rename_i named
    split
    · rename_i long
      simp [named, Nat.not_le.mpr long]
    · rename_i short
      simp [named, Nat.le_of_not_lt short, eq_comm]

theorem walk_cons_concat_eq_ok_iff {rest : List String} :
    files.walk location (part :: (rest ++ [name])) = .ok place ↔
      (part = ".." ∧ files.walk location.dropLast (rest ++ [name]) = .ok place) ∨
      (part ≠ ".." ∧ part.utf8ByteSize ≤ maxNameBytes ∧
        files.isDirectory (location ++ [part]) = true ∧
          files.walk (location ++ [part]) (rest ++ [name]) = .ok place) := by
  have more : rest ++ [name] ≠ [] := List.append_ne_nil_of_right_ne_nil _ (List.cons_ne_nil _ _)
  rcases List.exists_cons_of_ne_nil more with ⟨next, last, cut⟩
  rw [cut]
  exact walk_cons_eq_ok_iff

theorem eq_destination_of_walk (led : files.walk location parts = .ok place) :
    place = destination location parts := by
  induction parts generalizing location with
  | nil =>
      cases led
      rfl
  | cons part rest ih =>
      rw [destination]
      cases rest with
      | nil =>
          rcases walk_singleton_eq_ok_iff.mp led with ⟨above, same⟩ | ⟨named, -, same⟩
          · rw [if_pos above, destination, same]
          · rw [if_neg named, destination, same]
      | cons next rest =>
          rcases walk_cons_eq_ok_iff.mp led with ⟨above, led⟩ | ⟨named, -, -, led⟩
          · rw [if_pos above]
            exact ih led
          · rw [if_neg named]
            exact ih led

/-- A way leads where it led when directories have been added. -/
theorem walk_mono (grown : ∀ place, left.isDirectory place = true → right.isDirectory place = true)
    (led : left.walk location parts = .ok place) : right.walk location parts = .ok place := by
  induction parts generalizing location with
  | nil => exact led
  | cons part rest ih =>
      cases rest with
      | nil => exact walk_singleton_eq_ok_iff.mpr (walk_singleton_eq_ok_iff.mp led)
      | cons next rest =>
          refine walk_cons_eq_ok_iff.mpr ?_
          rcases walk_cons_eq_ok_iff.mp led with ⟨above, led⟩ | ⟨named, short, directory, led⟩
          · exact .inl ⟨above, ih led⟩
          · exact .inr ⟨named, short, grown _ directory, ih led⟩

/-- A way that leads to one name leads as far to any other. -/
theorem walk_beside (led : files.walk location (parts ++ [name]) = .ok place) (other : String) :
    files.walk location (parts ++ [other]) = files.walk (destination location parts) [other] := by
  induction parts generalizing location with
  | nil => rfl
  | cons part rest ih =>
      have more : rest ++ [other] ≠ [] :=
        List.append_ne_nil_of_right_ne_nil _ (List.cons_ne_nil _ _)
      rw [List.cons_append, walk, destination]
      rcases walk_cons_concat_eq_ok_iff.mp led with ⟨above, led⟩ | ⟨named, short, directory, led⟩
      · rw [if_pos above, if_pos above]
        exact ih led
      · rw [if_neg named, if_neg named, if_neg (Nat.not_lt.mpr short), if_neg more,
          node?_eq_directory_iff.mpr directory]
        exact ih led

theorem walk_name (proper : name ≠ "..") :
    files.walk location [name] =
      if maxNameBytes < name.utf8ByteSize then .error .nameTooLong
      else .ok (location ++ [name]) := by
  rw [walk, if_neg proper, if_pos rfl]

theorem mem_route_of_mem_dropLast {way : Location} (way_mem : way ∈ route location parts.dropLast) :
    way ∈ route location parts := by
  induction parts generalizing location with
  | nil => exact way_mem
  | cons part rest ih =>
      cases rest with
      | nil => cases way_mem
      | cons next rest =>
          rw [List.dropLast_cons_cons, route] at way_mem
          rw [route]
          split
          · rename_i above
            rw [if_pos above] at way_mem
            exact ih way_mem
          · rename_i named
            rw [if_neg named] at way_mem
            rcases List.mem_cons.mp way_mem with rfl | later
            · exact List.mem_cons_self
            · exact List.mem_cons_of_mem _ (ih later)

/-! ## Making directories -/

/-- Files to which directories have been added, none but those that some ways pass, with every file
in its place. -/
structure Grows (files made : FileSystem) (ways : List Location) : Prop where
  workingDirectory : made.workingDirectory = files.workingDirectory
  contents : made.contents = files.contents
  keeps : ∀ place, files.isDirectory place = true → made.isDirectory place = true
  adds : ∀ place, made.isDirectory place = true →
    files.isDirectory place = true ∨ ∃ way ∈ ways, place <+: way
  stays : ∀ place content, files.node? place = some (.file content) →
    made.node? place = some (.file content)

theorem Grows.refl (files : FileSystem) (ways : List Location) : Grows files files ways where
  workingDirectory := rfl
  contents := rfl
  keeps _ directory := directory
  adds _ directory := .inl directory
  stays _ _ file := file

theorem Grows.mono {ways more : List Location} (grows : Grows files made ways)
    (subset : ways ⊆ more) : Grows files made more :=
  { grows with
    adds := fun place directory =>
      (grows.adds place directory).imp_right fun ⟨way, way_mem, above⟩ =>
        ⟨way, subset way_mem, above⟩ }

theorem Grows.trans {grown : FileSystem} {ways : List Location} (first : Grows files made ways)
    (second : Grows made grown ways) : Grows files grown ways where
  workingDirectory := second.workingDirectory.trans first.workingDirectory
  contents := second.contents.trans first.contents
  keeps place directory := second.keeps place (first.keeps place directory)
  adds place directory := by
    rcases second.adds place directory with before | added
    · exact first.adds place before
    · exact .inr added
  stays place content file := second.stays place content (first.stays place content file)

/-- A directory can be added below another where nothing stands. -/
theorem grows_addDirectory (above : files.isDirectory location = true)
    (free : files.node? (location ++ [part]) = none) :
    Grows files (files.addDirectory (location ++ [part])) [location ++ [part]] where
  workingDirectory := rfl
  contents := rfl
  keeps place directory := by
    rw [isDirectory_addDirectory, directory, Bool.or_true]
  adds place directory := by
    rw [isDirectory_addDirectory, Bool.or_eq_true, List.isPrefixOf_iff_prefix] at directory
    rcases directory with new | old
    · exact .inr ⟨_, List.mem_singleton_self _, new⟩
    · exact .inl old
  stays place content file := by
    rcases node?_eq_file_iff.mp file with ⟨elsewhere, held⟩
    refine node?_eq_file_iff.mpr ⟨?_, held⟩
    rw [isDirectory_addDirectory, elsewhere, Bool.or_false, Bool.eq_false_iff, ne_eq,
      List.isPrefixOf_iff_prefix, List.prefix_concat_iff, not_or]
    constructor
    · rintro rfl
      rw [file] at free
      cases free
    · intro higher
      rw [isDirectory_of_higher higher above] at elsewhere
      cases elsewhere

theorem grows_makeDirectoriesFrom (start : files.isDirectory location = true) :
    Grows files (files.makeDirectoriesFrom location parts).1 (route location parts) := by
  induction parts generalizing files location with
  | nil => exact .refl files _
  | cons part rest ih =>
      rw [makeDirectoriesFrom, route]
      split
      · exact ih (isDirectory_of_higher (List.dropLast_prefix location) start)
      · split
        · exact .refl files _
        · split
          · rename_i directory
            exact (ih (node?_eq_directory_iff.mp directory)).mono (List.subset_cons_self _ _)
          · exact .refl files _
          · rename_i free
            have added := grows_addDirectory start free
            have new : (files.addDirectory (location ++ [part])).isDirectory (location ++ [part]) =
                true := by
              rw [isDirectory_addDirectory, List.isPrefixOf_iff_prefix.mpr List.prefix_rfl,
                Bool.true_or]
            refine (added.mono ?_).trans ((ih new).mono (List.subset_cons_self _ _))
            exact List.cons_subset_cons _ (List.nil_subset _)

/-- When the directories of a way have been made, they are there. -/
theorem isDirectory_of_makeDirectoriesFrom (start : files.isDirectory location = true)
    (succeeded : files.makeDirectoriesFrom location parts = (made, .ok ())) :
    ∀ way ∈ route location parts, made.isDirectory way = true := by
  induction parts generalizing files location with
  | nil => exact nofun
  | cons part rest ih =>
      rw [makeDirectoriesFrom] at succeeded
      rw [route]
      split
      · rename_i above
        rw [if_pos above] at succeeded
        exact ih (isDirectory_of_higher (List.dropLast_prefix location) start) succeeded
      · rename_i named
        rw [if_neg named] at succeeded
        split at succeeded
        · cases succeeded
        · rw [List.forall_mem_cons]
          split at succeeded
          · rename_i directory
            have start := node?_eq_directory_iff.mp directory
            have grows : Grows files made _ := succeeded ▸ grows_makeDirectoriesFrom start
            exact ⟨grows.keeps _ start, ih start succeeded⟩
          · cases succeeded
          · have start : (files.addDirectory (location ++ [part])).isDirectory
                (location ++ [part]) = true := by
              rw [isDirectory_addDirectory, List.isPrefixOf_iff_prefix.mpr List.prefix_rfl,
                Bool.true_or]
            have grows : Grows _ made _ := succeeded ▸ grows_makeDirectoriesFrom start
            exact ⟨grows.keeps _ start, ih start succeeded⟩

variable {path : Path}

/-- A path that names nothing in any files: it holds the character NUL, is empty or is too long. -/
def Unusable (path : Path) : Prop :=
  path.hasNul = true ∨ path.isEmpty = true ∨ maxPathBytes < path.size

/-- A path that can be used leads along its parts; any other fails in the same way in all files. -/
theorem locate_cases (path : Path) :
    (Unusable path ∧ ∃ fault, ∀ files : FileSystem, files.locate path = .error fault) ∨
      (¬Unusable path ∧
        ∀ files : FileSystem, files.locate path = files.walk (files.origin path) path.parts) := by
  simp only [locate, Unusable]
  split
  · rename_i nul
    exact .inl ⟨.inl nul, _, fun _ => rfl⟩
  · rename_i named
    split
    · rename_i empty
      exact .inl ⟨.inr (.inl empty), _, fun _ => rfl⟩
    · rename_i written
      split
      · rename_i long
        exact .inl ⟨.inr (.inr long), _, fun _ => rfl⟩
      · rename_i short
        exact .inr ⟨by simp [named, written, short], fun _ => rfl⟩

/-- Paths that agree lead to the same place or fail in the same way, if both can be used. -/
theorem locate_of_agrees {other : Path} (same : path.agrees other = true)
    (usable : ¬Unusable path) (otherUsable : ¬Unusable other) :
    files.locate path = files.locate other := by
  rcases Path.agrees_iff.mp same with ⟨absolute, parts, -⟩
  have origins : files.origin path = files.origin other := by
    rw [origin, origin, absolute]
  rw [((locate_cases path).resolve_left fun both => usable both.1).2,
    ((locate_cases other).resolve_left fun both => otherUsable both.1).2, origins, parts]

theorem walk_of_locate (located : files.locate path = .ok place) :
    files.walk (files.origin path) path.parts = .ok place := by
  rcases locate_cases path with ⟨-, fault, refused⟩ | ⟨-, leads⟩
  · rw [refused] at located
    cases located
  · rw [← leads, located]

/-- In files where a path has the same way, it leads to the same place or fails in the same way. -/
theorem locate_eq_of_walk (here : left.workingDirectory = right.workingDirectory)
    (same : left.walk (left.origin path) path.parts = right.walk (left.origin path) path.parts) :
    left.locate path = right.locate path := by
  have origins : left.origin path = right.origin path := by
    rw [origin, origin, here]
  rcases locate_cases path with ⟨-, fault, refused⟩ | ⟨-, leads⟩
  · rw [refused, refused]
  · rw [leads, leads, same, origins]

theorem locate_mono (here : left.workingDirectory = right.workingDirectory)
    (grown : ∀ place, left.isDirectory place = true → right.isDirectory place = true)
    (located : left.locate path = .ok place) : right.locate path = .ok place := by
  have led := walk_of_locate located
  rw [← locate_eq_of_walk here (led.trans (walk_mono grown led).symm), located]

/-- Where a path leads does not depend on what the files hold. -/
theorem locate_contents_iff {contents : OrderedMap Location ByteArray} {place : Location} :
    { files with contents }.locate path = .ok place ↔ files.locate path = .ok place := by
  constructor
  · intro located
    refine locate_mono ?_ ?_ located
    · rfl
    · exact fun _ isDirectory => isDirectory
  · intro located
    refine locate_mono ?_ ?_ located
    · rfl
    · exact fun _ isDirectory => isDirectory

/-- What is read is read as well in other files where a file stands at the same place. -/
theorem readFile_eq_of_node? (located : left.locate path = right.locate path)
    (same : ∀ place, left.locate path = .ok place → left.node? place = right.node? place) :
    left.readFile path = right.readFile path := by
  rw [readFile, readFile, ← located]
  cases found : left.locate path with
  | error fault => rfl
  | ok place =>
      dsimp only
      rw [same place found]

theorem isDirectory_origin (start : files.isDirectory files.workingDirectory = true)
    (path : Path) : files.isDirectory (files.origin path) = true := by
  rw [origin]
  split
  · rfl
  · exact start

/-- To make the parent of a path is to make the directories along its parts but the last, unless the
path cannot be written. -/
theorem makeDirectories_parent (files : FileSystem) (path : Path) :
    (∃ fault, files.makeDirectories path.parent = (files, .error fault)) ∨
      files.makeDirectories path.parent =
        files.makeDirectoriesFrom (files.origin path) path.parts.dropLast := by
  rw [makeDirectories]
  split
  · exact .inl ⟨_, rfl⟩
  · split
    · exact .inl ⟨_, rfl⟩
    · split
      · exact .inl ⟨_, rfl⟩
      · refine .inr ?_
        by_cases leads : path.parent.parts = []
        · rw [← Path.parts_parent, leads]
          rfl
        · rw [origin, Path.absolute_parent leads, Path.parts_parent]
          rfl

theorem grows_makeDirectories_parent (start : files.isDirectory files.workingDirectory = true)
    (path : Path) :
    Grows files (files.makeDirectories path.parent).1
      (route (files.origin path) path.parts.dropLast) := by
  rcases makeDirectories_parent files path with ⟨fault, failed⟩ | made
  · rw [failed]
    exact .refl files _
  · rw [made]
    exact grows_makeDirectoriesFrom (isDirectory_origin start path)

theorem makeDirectoriesFrom_of_parent
    (succeeded : files.makeDirectories path.parent = (made, .ok ())) :
    files.makeDirectoriesFrom (files.origin path) path.parts.dropLast = (made, .ok ()) := by
  rcases makeDirectories_parent files path with ⟨fault, failed⟩ | along
  · rw [failed] at succeeded
    cases succeeded
  · rw [← along, succeeded]

end Tabula.FileSystem
