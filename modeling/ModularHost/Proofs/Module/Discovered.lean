import ModularHost.Module.Discovery
import ModularHost.Proofs.FileTree
import ModularHost.Proofs.PathOrder
/-!
# What is found in a directory

A directory is searched by names alone: whatever is in it under a name with a known extension is
found, once and in the order of paths, and nothing else is, nor anything that is further down
(`discoverModules_finds`). What stands under the name is not looked at. So what is found are the
files with these extensions exactly where no directory in it is called like one.
-/


namespace ModularHost

variable {γ : Type}

/-- A thing that is no directory. -/
def FileNode.IsFile : FileNode γ → Prop
  | .directory => False
  | .text _ | .library _ => True

namespace Path

variable {directory : Path} {name : String} {extensions : List String}

/-- A name has one of some extensions. -/
def KnownName (extensions : List String) (name : String) : Prop :=
  ∃ extension ∈ extensions, NameEnds name extension

theorem hasExtension_join_iff (h : IsName name) :
    (directory.join name).hasExtension extensions = true ↔ KnownName extensions name := by
  have hextension : ∀ extension, (directory.join name).extension? = some extension ↔
      NameEnds name extension := fun _ => extension?_join_eq_some_iff h
  unfold hasExtension KnownName
  simp only [← hextension]
  cases (directory.join name).extension? <;> simp

end Path

/-- **What is found in a directory.** -/
structure Discovered (files : FileTree γ) (extensions : List String) (directory : Path)
    (place : Location) (found : List Path) : Prop where
  answered : discoverModules files extensions directory = .ok found
  /-- It is in order, and none of it is found twice. -/
  increasing : found.Pairwise Path.Before
  /-- It is every entry of the directory whose name has a known extension, -/
  mem_iff : ∀ p, p ∈ found ↔ ∃ name node, p = directory.join name ∧
    files.get? (place.child name) = some node ∧ Path.KnownName extensions name
  /-- where the path of an entry leads to the entry, unless it is too long to be asked for. -/
  leads : ∀ name node, files.get? (place.child name) = some node →
    FileTree.isNameable (directory.join name) = true →
    files.find? (directory.join name) = some node
  /-- It is the files among them exactly if no directory among them has such a name. -/
  files_iff : (∀ p, p ∈ found ↔ ∃ name node, p = directory.join name ∧
      files.get? (place.child name) = some node ∧ node.IsFile ∧ Path.KnownName extensions name) ↔
    ∀ name, files.get? (place.child name) = some .directory → ¬ Path.KnownName extensions name

section Finding

variable {files : FileTree γ} {extensions : List String} {directory : Path} {place : Location}

/-- The names that are looked for, in a directory. -/
theorem discoverModules_eq (extensions : List String) (hfiles : files.WellFormed)
    (hplace : files.locate directory = some place) (hdirectory : files.isDirectory place = true) :
    ∃ names : List String, names.Nodup ∧
      (∀ name, name ∈ names ↔ name ∈ files.children place ∧ Path.KnownName extensions name) ∧
      discoverModules files extensions directory =
        .ok ((names.map directory.join).mergeSort Path.le) := by
  refine ⟨(files.children place).filter fun name => (directory.join name).hasExtension extensions,
    (FileTree.nodup_children hfiles place).filter _, fun name => ?_, ?_⟩
  · rw [List.mem_filter]
    refine and_congr_right fun hname => ?_
    exact Path.hasExtension_join_iff (FileTree.isName_of_mem_children hfiles hname)
  · simp only [discoverModules, hplace, hdirectory, if_true, List.filter_map]
    rfl

theorem discovered (hfiles : files.WellFormed) (hplace : files.locate directory = some place)
    (hdirectory : files.isDirectory place = true) :
    ∃ found, Discovered files extensions directory place found := by
  obtain ⟨names, hnodup, hnames, hfound⟩ :=
    discoverModules_eq extensions hfiles hplace hdirectory
  have hname : ∀ name node, files.get? (place.child name) = some node → Path.IsName name :=
    fun name node hnode => FileTree.isName_of_mem_children hfiles
      ((FileTree.mem_children_iff hfiles).2 ⟨node, hnode⟩)
  have hmem : ∀ p, p ∈ (names.map directory.join).mergeSort Path.le ↔ ∃ name node,
      p = directory.join name ∧ files.get? (place.child name) = some node ∧
        Path.KnownName extensions name := by
    intro p
    simp only [List.mem_mergeSort, List.mem_map, hnames, FileTree.mem_children_iff hfiles]
    constructor
    · rintro ⟨name, ⟨⟨node, hnode⟩, hknown⟩, rfl⟩
      exact ⟨name, node, rfl, hnode, hknown⟩
    · rintro ⟨name, node, rfl, hnode, hknown⟩
      exact ⟨name, ⟨⟨node, hnode⟩, hknown⟩, rfl⟩
  refine ⟨_, hfound, Path.pairwise_before_sort hnodup fun name h => ?_, hmem,
    fun name node hnode hnameable => ?_, fun honly name hnode hknown => ?_, fun hnone p => ?_⟩
  · exact FileTree.isName_of_mem_children hfiles ((hnames name).1 h).1
  · exact FileTree.find?_join hplace hdirectory (hname name node hnode) hnode hnameable
  · -- a directory of such a name is found, and its path is that of no file
    obtain ⟨other, node, hpath, hother, hfile, -⟩ :=
      (honly (directory.join name)).1 ((hmem _).2 ⟨name, _, rfl, hnode, hknown⟩)
    obtain rfl := (Path.join_inj (hname name _ hnode) (hname other node hother)).1 hpath
    rw [hnode] at hother
    cases hother
    exact hfile
  · rw [hmem]
    constructor
    · rintro ⟨name, node, rfl, hnode, hknown⟩
      refine ⟨name, node, rfl, hnode, ?_, hknown⟩
      cases node with
      | directory => exact absurd hknown (hnone name hnode)
      | text | library => trivial
    · rintro ⟨name, node, rfl, hnode, -, hknown⟩
      exact ⟨name, node, rfl, hnode, hknown⟩

end Finding

/-- **A directory is searched by names.** For every tree and all extensions: where there is no
directory nothing is found; and in a directory what is found is whatever is directly in it under a
name with a known extension, once and in order. These are the files of such names exactly if no
directory in it has one. -/
theorem discoverModules_finds {files : FileTree γ} (hfiles : files.WellFormed)
    (extensions : List String) (directory : Path) :
    (files.exists directory = false → discoverModules files extensions directory = .ok []) ∧
    ∀ place, files.locate directory = some place → files.isDirectory place = true →
      ∃ found, Discovered files extensions directory place found := by
  refine ⟨fun hmissing => ?_, fun place hplace hdirectory => discovered hfiles hplace hdirectory⟩
  rw [discoverModules, FileTree.exists_eq_false_iff.1 hmissing]

/-- A directory with a library, files that are hidden or have no extension or have several, and a
directory that is called like a library and has one in it. -/
def mixedFiles : FileTree Unit :=
  ⟨[(⟨.above 0, ["mods"]⟩, .directory),
    (⟨.above 0, ["mods", "tide.so"]⟩, .library ()),
    (⟨.above 0, ["mods", ".so"]⟩, .text ""),
    (⟨.above 0, ["mods", "so"]⟩, .text ""),
    (⟨.above 0, ["mods", "tide.so.old"]⟩, .text ""),
    (⟨.above 0, ["mods", "old.tide.so"]⟩, .text ""),
    (⟨.above 0, ["mods", "spare.so"]⟩, .directory),
    (⟨.above 0, ["mods", "spare.so", "gale.so"]⟩, .library ())]⟩

theorem wellFormed_mixedFiles : mixedFiles.WellFormed where
  apart := by decide +kernel
  named := by
    have hnames : ∀ e ∈ mixedFiles.entries, ∀ name ∈ e.1.names,
        name ≠ "" ∧ '/' ∉ name.toList ∧ name ≠ "." ∧ name ≠ ".." := by
      simp [mixedFiles]
    intro e he name hname
    obtain ⟨hempty, hslash, hhere, hparent⟩ := hnames e he name hname
    exact ⟨hempty, hslash, hhere, hparent⟩

/-- The directory of that name is found with the libraries. -/
theorem discoverModules_finds_mixedFiles : mixedFiles.WellFormed ∧
    ∃ found, Discovered mixedFiles ["so"] ⟨"mods"⟩ ⟨.above 0, ["mods"]⟩ found ∧
      ⟨"mods/tide.so"⟩ ∈ found ∧ ⟨"mods/spare.so"⟩ ∈ found := by
  obtain ⟨found, hfound⟩ := (discoverModules_finds wellFormed_mixedFiles ["so"] ⟨"mods"⟩).2
    ⟨.above 0, ["mods"]⟩ (by decide +kernel) (by decide +kernel)
  refine ⟨wellFormed_mixedFiles, found, hfound, ?_, ?_⟩
  · exact (hfound.mem_iff _).2 ⟨"tide.so", .library (), by decide +kernel, by rfl,
      "so", by decide, "tide", by decide, by decide +kernel, by decide⟩
  · exact (hfound.mem_iff _).2 ⟨"spare.so", .directory, by decide +kernel, by rfl,
      "so", by decide, "spare", by decide, by decide +kernel, by decide⟩

/-- What is found need not be a file. -/
theorem mixedFiles_finds_directory : ∃ found,
    discoverModules mixedFiles ["so"] ⟨"mods"⟩ = .ok found ∧
    ⟨"mods/spare.so"⟩ ∈ found ∧ mixedFiles.isFile ⟨"mods/spare.so"⟩ = false := by
  refine ⟨_, rfl, ?_, by decide +kernel⟩
  rw [List.mem_mergeSort]
  decide +kernel

end ModularHost
