import Tabula.FileSystem
import Tabula.Proofs.FileSystem.Path

/-!
# What file operations do

Each operation is said by the place to which its path leads and by what stands there. Where a path
leads and how an operation fails depend on the directories and on which places hold files, not on
what the files hold; so overwriting a file changes neither. A path that leads anywhere has its
parent in place, and nothing needs to be made for it.
-/

namespace Tabula

namespace FileSystem

variable {files written : FileSystem} {path : Path} {location place : Location}
  {content : ByteArray} {fault : FileFault}

/-! ## What stands at a place -/

theorem node?_eq_directory_iff :
    files.node? location = some .directory ↔ files.isDirectory location = true := by
  rw [node?]
  split
  · rename_i directory
    simp [directory]
  · rename_i other
    simp [other]

theorem node?_eq_file_iff :
    files.node? location = some (.file content) ↔
      files.isDirectory location = false ∧ files.contents.get? location = some content := by
  rw [node?]
  split
  · rename_i directory
    simp [directory]
  · rename_i other
    simp [other]

theorem node?_eq_none_iff :
    files.node? location = none ↔
      files.isDirectory location = false ∧ files.contents.get? location = none := by
  rw [node?]
  split
  · rename_i directory
    simp [directory]
  · rename_i other
    simp [other]

/-! ## Reading, writing and removing -/

theorem readFile_eq_ok_iff :
    files.readFile path = .ok content ↔
      ∃ location, files.locate path = .ok location ∧
        files.node? location = some (.file content) ∧ path.directoryOnly = false := by
  rw [readFile]
  cases files.locate path with
  | error fault => simp
  | ok location =>
      simp only [Except.ok.injEq, exists_eq_left']
      cases files.node? location with
      | none => simp
      | some node =>
          cases node with
          | directory => simp
          | file found => cases path.directoryOnly <;> simp

theorem writeFile_eq_ok_iff :
    files.writeFile path content = .ok written ↔
      ∃ location, files.locate path = .ok location ∧ files.isDirectory location = false ∧
        path.directoryOnly = false ∧
          written = { files with contents := files.contents.insert location content } := by
  rw [writeFile]
  cases files.locate path with
  | error fault => simp
  | ok location =>
      simp only [Except.ok.injEq, exists_eq_left']
      split
      · rename_i directory
        simp [node?_eq_directory_iff.mp directory]
      · rename_i other
        have not_directory : files.isDirectory location = false := by
          rw [Bool.eq_false_iff]
          exact fun directory => other (node?_eq_directory_iff.mpr directory)
        cases path.directoryOnly <;> simp [not_directory, eq_comm]

theorem removeFile_eq_ok_iff :
    files.removeFile path = .ok written ↔
      ∃ location content, files.locate path = .ok location ∧
        files.node? location = some (.file content) ∧ path.directoryOnly = false ∧
          written = { files with contents := files.contents.erase location } := by
  rw [removeFile]
  cases files.locate path with
  | error fault => simp
  | ok location =>
      simp only [Except.ok.injEq, exists_and_left, exists_eq_left']
      cases files.node? location with
      | none => simp
      | some node =>
          cases node with
          | directory => simp
          | file found => cases path.directoryOnly <;> simp [eq_comm]

/-- What is read at a place that is no directory is what is held there. -/
theorem readFile_of_locate (located : files.locate path = .ok location)
    (elsewhere : files.isDirectory location = false) (file : path.directoryOnly = false) :
    files.readFile path = (files.contents.get? location).elim (.error .notFound) .ok := by
  cases held : files.contents.get? location with
  | none =>
      have absent := node?_eq_none_iff.mpr ⟨elsewhere, held⟩
      rw [readFile, located]
      simp only [absent, Option.elim_none]
  | some content =>
      have stands := node?_eq_file_iff.mpr ⟨elsewhere, held⟩
      exact readFile_eq_ok_iff.mpr ⟨location, located, stands, file⟩

/-- What is removed at a place that is no directory is what is held there. -/
theorem removeFile_of_locate (located : files.locate path = .ok location)
    (elsewhere : files.isDirectory location = false) (file : path.directoryOnly = false) :
    files.removeFile path = (files.contents.get? location).elim (.error .notFound) fun _ =>
      .ok { files with contents := files.contents.erase location } := by
  cases held : files.contents.get? location with
  | none =>
      have absent := node?_eq_none_iff.mpr ⟨elsewhere, held⟩
      rw [removeFile, located]
      simp only [absent, Option.elim_none]
  | some content =>
      have stands := node?_eq_file_iff.mpr ⟨elsewhere, held⟩
      exact removeFile_eq_ok_iff.mpr ⟨location, content, located, stands, file, rfl⟩

/-! ## Plain names -/

/-- A name under which a file can stand. -/
structure IsName (name : String) : Prop where
  leads : Path.leadsNowhere name = false
  proper : name ≠ ".."
  noNul : '\x00' ∉ name.toList
  short : name.utf8ByteSize ≤ maxNameBytes

section

variable {name folder : String}

theorem IsName.nonempty (isName : IsName name) : name ≠ "" := by
  rintro rfl
  cases isName.leads

theorem IsName.size_pos (isName : IsName name) : 0 < name.utf8ByteSize := by
  rw [Nat.pos_iff_ne_zero, ne_eq, String.utf8ByteSize_eq_zero_iff]
  exact isName.nonempty

theorem IsName.directoryOnly (isName : IsName name) (above : List String) :
    (Path.mk (above ++ [name])).directoryOnly = false := by
  rw [Path.directoryOnly, List.getLast?_concat]
  simp [isName.leads]

section

variable {names : List String} (plain : ∀ name ∈ names, IsName name)

include plain

theorem parts_names : (Path.mk names).parts = names := by
  rw [Path.parts, List.filter_eq_self]
  intro name name_mem
  rw [(plain name name_mem).leads]
  rfl

theorem hasNul_names : (Path.mk names).hasNul = false := by
  rw [Path.hasNul, parts_names plain, List.any_eq_false]
  intro name name_mem
  rw [List.contains_iff_mem]
  exact (plain name name_mem).noNul

theorem origin_names : files.origin ⟨names⟩ = files.workingDirectory := by
  have relative : (Path.mk names).absolute = false := by
    rw [Path.absolute]
    split
    · rename_i first second rest shape
      rw [beq_eq_false_iff_ne]
      refine (plain first ?_).nonempty
      rw [show names = first :: second :: rest from shape]
      exact List.mem_cons_self
    · rfl
  rw [origin, relative, if_neg Bool.false_ne_true]

/-- A path of plain names leads along them from the working directory. -/
theorem locate_names (present : 0 < (Path.mk names).size)
    (fits : (Path.mk names).size ≤ maxPathBytes) :
    files.locate ⟨names⟩ = files.walk files.workingDirectory names := by
  have nonempty : (Path.mk names).isEmpty = false := by
    rw [Path.isEmpty, beq_eq_false_iff_ne]
    omega
  rw [locate, hasNul_names plain, if_neg Bool.false_ne_true, nonempty, if_neg Bool.false_ne_true,
    if_neg (Nat.not_lt.mpr fits), origin_names plain, parts_names plain]

end

theorem size_name (name : String) : (Path.mk [name]).size = name.utf8ByteSize := by
  rw [Path.size, String.intercalate_singleton]

theorem size_below (folder name : String) :
    (Path.mk [folder, name]).size = folder.utf8ByteSize + 1 + name.utf8ByteSize := by
  rw [Path.size, String.intercalate_cons_cons, String.intercalate_singleton,
    String.utf8ByteSize_append, String.utf8ByteSize_append]
  rfl

theorem locate_name (isName : IsName name) :
    files.locate ⟨[name]⟩ = .ok (files.workingDirectory ++ [name]) := by
  have plain : ∀ part ∈ [name], IsName part := by simpa using isName
  have positive := isName.size_pos
  have short := isName.short
  rw [locate_names plain, walk, if_neg isName.proper, if_neg (Nat.not_lt.mpr isName.short),
    if_pos rfl]
  · rwa [size_name]
  · rw [size_name]
    simp only [maxPathBytes, maxNameBytes] at short ⊢
    omega

/-- A path of two names leads below the first if that is a directory. -/
theorem locate_below (isFolder : IsName folder) (isName : IsName name) :
    files.locate ⟨[folder, name]⟩ =
      match files.node? (files.workingDirectory ++ [folder]) with
      | none => .error .notFound
      | some (.file _) => .error .notADirectory
      | some .directory => .ok (files.workingDirectory ++ [folder, name]) := by
  have size := size_below folder name
  have plain : ∀ part ∈ [folder, name], IsName part := by simp [isFolder, isName]
  have shortFolder := isFolder.short
  have short := isName.short
  simp only [maxNameBytes] at shortFolder short
  rw [locate_names plain, walk, if_neg isFolder.proper, if_neg (Nat.not_lt.mpr isFolder.short),
    if_neg (List.cons_ne_nil name [])]
  · cases files.node? (files.workingDirectory ++ [folder]) with
    | none => rfl
    | some node =>
        cases node with
        | file content => rfl
        | directory =>
            dsimp only
            rw [walk, if_neg isName.proper, if_neg (Nat.not_lt.mpr isName.short), if_pos rfl,
              List.append_assoc, List.singleton_append]
  · omega
  · simp only [maxPathBytes]
    omega

end

/-! ## Making directories -/

@[simp]
theorem contents_makeDirectoriesFrom (files : FileSystem) (location : Location)
    (parts : List String) :
    (files.makeDirectoriesFrom location parts).1.contents = files.contents := by
  induction parts generalizing files location with
  | nil => rfl
  | cons part rest ih =>
      rw [makeDirectoriesFrom]
      repeat' split
      · exact ih _ _
      · rfl
      · exact ih _ _
      · rfl
      · exact ih _ _

@[simp]
theorem contents_makeDirectories (files : FileSystem) (path : Path) :
    (files.makeDirectories path).1.contents = files.contents := by
  rw [makeDirectories]
  repeat' split
  · rfl
  · rfl
  · rfl
  · exact contents_makeDirectoriesFrom _ _ _

/-- Nothing is made if the first thing in the way is a file. -/
theorem makeDirectoriesFrom_of_notADirectory {parts : List String}
    (blocked : files.walk location parts = .error .notADirectory) :
    ∃ fault, files.makeDirectoriesFrom location parts = (files, .error fault) := by
  induction parts generalizing location with
  | nil => cases blocked
  | cons part rest ih =>
      rw [walk] at blocked
      rw [makeDirectoriesFrom]
      split
      · rename_i above
        rw [if_pos above] at blocked
        exact ih blocked
      · rename_i named
        rw [if_neg named] at blocked
        split
        · exact ⟨_, rfl⟩
        · rename_i short
          rw [if_neg short] at blocked
          split at blocked
          · cases blocked
          · split at blocked
            · cases blocked
            · rename_i content file
              rw [file]
              exact ⟨_, rfl⟩
            · rename_i directory
              rw [directory]
              exact ih blocked

theorem makeDirectories_of_makeDirectoriesFrom {made : FileSystem} (named : path.hasNul = false)
    (short : ¬maxPathBytes < path.size)
    (along : files.makeDirectoriesFrom (files.origin path) path.parts = (made, .ok ())) :
    files.makeDirectories path = (made, .ok ()) := by
  rw [makeDirectories, named, if_neg Bool.false_ne_true, if_neg short]
  split
  · rename_i blocked
    rcases makeDirectoriesFrom_of_notADirectory blocked with ⟨fault, failed⟩
    cases failed.symm.trans along
  · exact along

/-- Nothing is made on a way that leads to a place. -/
theorem makeDirectoriesFrom_of_walk {parts : List String}
    (led : files.walk location parts = .ok place) :
    files.makeDirectoriesFrom location parts.dropLast = (files, .ok ()) := by
  induction parts generalizing location with
  | nil => rfl
  | cons part rest ih =>
      cases rest with
      | nil => rfl
      | cons next rest =>
          rw [List.dropLast_cons_cons, makeDirectoriesFrom]
          rw [walk] at led
          split
          · rename_i above
            rw [if_pos above] at led
            exact ih led
          · rename_i named
            rw [if_neg named] at led
            split
            · rename_i long
              rw [if_pos long] at led
              cases led
            · rename_i short
              rw [if_neg short, if_neg (List.cons_ne_nil next rest)] at led
              split at led
              · cases led
              · cases led
              · rename_i directory
                rw [directory]
                exact ih led

/-- The parent of a path that leads to a place needs no directory made. -/
theorem makeDirectories_parent_of_locate (found : files.locate path = .ok location) :
    files.makeDirectories path.parent = (files, .ok ()) := by
  rw [locate] at found
  split at found
  · cases found
  · rename_i named
    split at found
    · cases found
    · split at found
      · cases found
      · rename_i short
        have made := makeDirectoriesFrom_of_walk found
        have parentNamed : path.parent.hasNul = false := by
          rw [Path.hasNul, Path.parts_parent]
          rw [Path.hasNul, Bool.not_eq_true, List.any_eq_false] at named
          rw [List.any_eq_false]
          intro part part_mem
          exact named part (List.dropLast_subset _ part_mem)
        have parentShort : ¬maxPathBytes < path.parent.size := by
          have fewer := Path.size_mono path.prefix_written_parent
          omega
        refine makeDirectories_of_makeDirectoriesFrom parentNamed parentShort ?_
        by_cases leads : path.parent.parts = []
        · rw [leads]
          rfl
        · rw [origin, Path.absolute_parent leads, Path.parts_parent]
          exact made

theorem makeDirectories_name {name : String} (isName : IsName name)
    (missing : files.node? (files.workingDirectory ++ [name]) = none) :
    files.makeDirectories ⟨[name]⟩ =
      (files.addDirectory (files.workingDirectory ++ [name]), .ok ()) := by
  have plain : ∀ part ∈ [name], IsName part := by simpa using isName
  have fits : ¬maxPathBytes < (Path.mk [name]).size := by
    have short := isName.short
    rw [size_name]
    simp only [maxPathBytes, maxNameBytes] at short ⊢
    omega
  refine makeDirectories_of_makeDirectoriesFrom (hasNul_names plain) fits ?_
  rw [origin_names plain, parts_names plain, makeDirectoriesFrom, if_neg isName.proper,
    if_neg (Nat.not_lt.mpr isName.short), missing]
  rfl

/-! ## Overwriting -/

/-- Two file systems with the same directories, and files at the same places. -/
structure SameShape (left right : FileSystem) : Prop where
  directories : left.directories = right.directories
  workingDirectory : left.workingDirectory = right.workingDirectory
  files : ∀ location,
    (left.contents.get? location).isSome = (right.contents.get? location).isSome

namespace SameShape

variable {left right : FileSystem}

theorem isDirectory (same : SameShape left right) (location : Location) :
    left.isDirectory location = right.isDirectory location := by
  rw [FileSystem.isDirectory, FileSystem.isDirectory, same.directories]

/-- What stands at a place differs at most in what a file holds. -/
theorem node?_cases (same : SameShape left right) (location : Location) :
    left.node? location = right.node? location ∨
      ∃ old new, left.node? location = some (.file old) ∧
        right.node? location = some (.file new) := by
  have shape := same.files location
  rw [node?, node?, same.isDirectory]
  cases right.isDirectory location with
  | true => exact .inl rfl
  | false =>
      cases before : left.contents.get? location <;>
        cases after : right.contents.get? location <;> rw [before, after] at shape
      · exact .inl rfl
      · cases shape
      · cases shape
      · exact .inr ⟨_, _, rfl, rfl⟩

theorem walk (same : SameShape left right) (location : Location) (parts : List String) :
    left.walk location parts = right.walk location parts := by
  induction parts generalizing location with
  | nil => rfl
  | cons part rest ih =>
      rw [FileSystem.walk, FileSystem.walk, ih, ih]
      rcases same.node?_cases (location ++ [part]) with shape | ⟨old, new, before, after⟩
      · rw [shape]
      · rw [before, after]

theorem locate (same : SameShape left right) (path : Path) :
    left.locate path = right.locate path := by
  rw [FileSystem.locate, FileSystem.locate, origin, origin, same.workingDirectory, same.walk]

/-- What cannot be removed cannot be removed whatever the files hold. -/
theorem removeFile_eq_error_iff (same : SameShape left right) :
    left.removeFile path = .error fault ↔ right.removeFile path = .error fault := by
  rw [removeFile, removeFile, same.locate]
  cases right.locate path with
  | error fault => rfl
  | ok location =>
      rcases same.node?_cases location with shape | ⟨old, new, before, after⟩
      · simp only [shape]
        cases right.node? location with
        | none => rfl
        | some node =>
            cases node with
            | directory => rfl
            | file content => cases path.directoryOnly <;> simp
      · simp only [before, after]
        cases path.directoryOnly <;> simp

end SameShape

/-- Overwriting a file changes nothing but what it holds. -/
theorem sameShape_insert (standing : (files.contents.get? location).isSome) :
    SameShape { files with contents := files.contents.insert location content } files where
  directories := rfl
  workingDirectory := rfl
  files other := by
    rw [OrderedMap.get?_insert]
    split
    · rename_i same
      rw [← same, standing]
      rfl
    · rfl

/-! ## Texts -/

theorem readText_toUTF8 {text : String} (read : files.readFile path = .ok text.toUTF8) :
    files.readText path = .ok text := by
  have decoded : String.fromUTF8? text.toUTF8 = some text := dif_pos text.isValidUTF8
  rw [readText, read]
  simp only [decoded]

end FileSystem

end Tabula
